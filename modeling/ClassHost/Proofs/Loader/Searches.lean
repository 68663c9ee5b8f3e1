import ClassHost.Proofs.ClassTable
import ClassHost.Proofs.Loader.Plans

/-!
# What the class path is asked for

A load asks the class path for at most one name, and which one is settled before the answer comes:
`ClassTable.sought?` tells it from the table alone. Nothing keeps a load from asking for the class
that has to be found for a name but a class that it comes upon on its way there.

An array asks for what its element asks for, unless it is there already (`sought?_objectArray`,
`sought?_objectArrays`).
-/

namespace ClassHost.ClassTable

/-- The component that is looked for to load an array of objects. -/
def soughtFor (table : ClassTable) : ArrayPlan String → Option String
  | .last descriptor component =>
    if (table.find? descriptor).isSome ∨ (table.find? component).isSome then none
    else some component
  | .level descriptor inner =>
    if (table.find? descriptor).isSome then none else table.soughtFor inner

/-- The name that the class path is asked for to load a name, if it is asked. -/
def sought? (table : ClassTable) (name : String) : Option String :=
  if (table.find? name).isSome then none
  else
    match LoadPlan.resolve name with
    | .ok (.instanceClass name) => some name
    | .ok (.objectArray plan) => table.soughtFor plan
    | .ok (.primitiveArray _) | .error _ => none

variable {table : ClassTable} {name sought component : String} {outer : Nat} {id : ClassId}

theorem sought?_of_find?_some (h : table.find? name = some id) : table.sought? name = none := by
  simp [sought?, h]

theorem sought?_of_malformed {error : DescriptorError} (h : LoadPlan.resolve name = .error error) :
    table.sought? name = none := by
  simp [sought?, h]

theorem soughtFor_of_isSome {plan : ArrayPlan String}
    (h : (table.find? plan.descriptor).isSome) : table.soughtFor plan = none := by
  cases plan with
  | last descriptor component =>
    rw [ArrayPlan.descriptor] at h
    simp [soughtFor, h]
  | level descriptor inner =>
    rw [ArrayPlan.descriptor] at h
    simp [soughtFor, h]

theorem soughtFor_eq_some {plan : ArrayPlan String} (h : table.soughtFor plan = some sought) :
    sought = plan.component := by
  induction plan with
  | last descriptor component =>
    rw [soughtFor] at h
    split at h
    · cases h
    · exact (Option.some.inj h).symm
  | level descriptor inner ih =>
    rw [soughtFor] at h
    split at h
    · cases h
    · exact ih h

/-- Only the class that has to be found for a name is ever looked for. -/
theorem classFor?_of_sought? (h : table.sought? name = some sought) :
    Command.classFor? name = some sought := by
  rw [sought?] at h
  split at h
  · cases h
  · rw [Command.classFor?]
    cases hplan : LoadPlan.resolve name with
    | error error =>
      rw [hplan] at h
      cases h
    | ok plan =>
      rw [hplan] at h
      cases plan with
      | instanceClass name => exact h
      | objectArray plan => exact congrArg some (soughtFor_eq_some h).symm
      | primitiveArray plan => cases h

theorem sought?_instanceClass (hplain : LoadPlan.resolve name = .ok (.instanceClass name))
    (hfree : table.find? name = none) : table.sought? name = some name := by
  simp [sought?, hfree, hplain]

theorem sought?_objectArray (hcomponent : IsComponentName component)
    (hfree : table.find? (arrayDescriptor (componentDescriptor component) 0) = none) :
    table.sought? (arrayDescriptor (componentDescriptor component) 0) = table.sought? component := by
  rw [sought?, resolve_objectArray hcomponent (by decide), hfree, sought?, hcomponent.resolve]
  have hdescriptor : table.find? ("[" ++ componentDescriptor component) = none := hfree
  simp [ArrayPlan.build, soughtFor, hdescriptor]

theorem sought?_objectArrays (hcomponent : IsComponentName component)
    (houter : outer + 1 < LoadPlan.maxDimensions)
    (hfree : table.find? (arrayDescriptor (componentDescriptor component) (outer + 1)) = none) :
    table.sought? (arrayDescriptor (componentDescriptor component) (outer + 1)) =
      table.sought? (arrayDescriptor (componentDescriptor component) outer) := by
  have hdescriptor : table.find? ("[" ++ arrayDescriptor (componentDescriptor component) outer) =
      none := hfree
  rw [sought?, resolve_objectArray hcomponent houter, hfree, sought?,
    resolve_objectArray hcomponent (Nat.lt_of_succ_lt houter)]
  simp only [ArrayPlan.build, soughtFor, ArrayPlan.descriptor_build, hdescriptor]
  by_cases hfound : (table.find? (arrayDescriptor (componentDescriptor component) outer)).isSome
  · rw [if_pos hfound, soughtFor_of_isSome (by rwa [ArrayPlan.descriptor_build])]
    rfl
  · rw [if_neg hfound]
    rfl

theorem sought?_primitiveArray {type : BaseType} (hvoid : type ≠ .void)
    (houter : outer < LoadPlan.maxDimensions) :
    table.sought? (arrayDescriptor type.text outer) = none := by
  rw [sought?, resolve_primitiveArray hvoid houter]
  split
  · rfl
  · rfl

end ClassHost.ClassTable
