import ClassHost.Command.Report
import ClassHost.Proofs.Descriptor.FieldTypes

/-!
# Plans and what names stand for

The descriptor of an array class is brackets in front of an element, and it can be read in one way
only (`arrayDescriptor_inj`). `Resolves` says what a name stands for by how the name is written:
itself, or an array of a class or of a primitive type. Planning finds what a name stands for and
fails if it stands for nothing, so that `LoadPlan.resolve` and `Resolves` say the same
(`resolve_eq_ok_iff`).

The class that has to be found for an array of objects is its component, for any number of brackets
(`classFor?_arrayDescriptor`).
-/

namespace ClassHost

-- ---------------------------------------------------------------------------
-- Descriptors of arrays
-- ---------------------------------------------------------------------------

/-- The descriptor of an array with `outer + 1` brackets in front of an element's descriptor. -/
def arrayDescriptor (element : String) : Nat → String
  | 0 => "[" ++ element
  | outer + 1 => "[" ++ arrayDescriptor element outer

/-- The descriptor of a class as the element of an array. -/
def componentDescriptor (component : String) : String := "L" ++ component ++ ";"

@[simp] theorem toList_arrayDescriptor (element : String) (outer : Nat) :
    (arrayDescriptor element outer).toList = List.replicate (outer + 1) '[' ++ element.toList := by
  induction outer with
  | zero => simp [arrayDescriptor]
  | succ outer ih =>
    rw [arrayDescriptor, String.toList_append, ih, List.replicate_succ (n := outer + 1)]
    rfl

@[simp] theorem toList_componentDescriptor (component : String) :
    (componentDescriptor component).toList = 'L' :: component.toList ++ [';'] := by
  simp [componentDescriptor]

@[simp] theorem ArrayPlan.descriptor_build {Component : Type} (element : String)
    (component : Component) (outer : Nat) :
    (ArrayPlan.build element component outer).descriptor = arrayDescriptor element outer := by
  induction outer with
  | zero => rfl
  | succ outer ih => rw [build, descriptor, ih, arrayDescriptor]

@[simp] theorem ArrayPlan.dimension_build {Component : Type} (element : String)
    (component : Component) (outer : Nat) :
    (ArrayPlan.build element component outer).dimension = outer + 1 := by
  induction outer with
  | zero => rfl
  | succ outer ih => rw [build, dimension, ih]

@[simp] theorem ArrayPlan.component_build {Component : Type} (element : String)
    (component : Component) (outer : Nat) :
    (ArrayPlan.build element component outer).component = component := by
  induction outer with
  | zero => rfl
  | succ outer ih => rw [build, ArrayPlan.component, ih]

/-- The name begins with a bracket. -/
def IsBracketed (name : String) : Prop := name.toList.head? = some '['

instance (name : String) : Decidable (IsBracketed name) := inferInstanceAs (Decidable (_ = _))

theorem isBracketed_arrayDescriptor (element : String) (outer : Nat) :
    IsBracketed (arrayDescriptor element outer) := by
  simp [IsBracketed, List.replicate_succ]

theorem not_isBracketed_componentDescriptor (component : String) :
    ¬ IsBracketed (componentDescriptor component) := by
  simp [IsBracketed]

theorem not_isBracketed_text (type : BaseType) : ¬ IsBracketed type.text := by
  cases type <;> simp [IsBracketed, BaseType.text, BaseType.code]

/-- All brackets of a descriptor are those in front of the element. -/
theorem leadingBrackets_arrayDescriptor {element : String} (h : ¬ IsBracketed element)
    (outer : Nat) : leadingBrackets (arrayDescriptor element outer) = outer + 1 := by
  have hnone : element.toList.takeWhile (· = '[') = [] := by
    unfold IsBracketed at h
    cases hlist : element.toList with
    | nil => rfl
    | cons c rest =>
      rw [hlist, List.head?_cons, Option.some.injEq] at h
      rw [List.takeWhile_cons_of_neg (by simpa using h)]
  rw [leadingBrackets, toList_arrayDescriptor, List.takeWhile_append_of_pos (by simp), hnone,
    List.append_nil, List.length_replicate]

/-- A descriptor can be read in one way only. -/
theorem arrayDescriptor_inj {element element' : String} {outer outer' : Nat}
    (h : ¬ IsBracketed element) (h' : ¬ IsBracketed element')
    (heq : arrayDescriptor element outer = arrayDescriptor element' outer') :
    element = element' ∧ outer = outer' := by
  have houter : outer + 1 = outer' + 1 := by
    rw [← leadingBrackets_arrayDescriptor h, heq, leadingBrackets_arrayDescriptor h']
  obtain rfl := Nat.succ.inj houter
  have hlist := congrArg String.toList heq
  rw [toList_arrayDescriptor, toList_arrayDescriptor] at hlist
  exact ⟨String.toList_inj.mp (List.append_cancel_left hlist), rfl⟩

/-- No descriptor of a class is that of a primitive type. -/
theorem componentDescriptor_ne_text (component : String) (type : BaseType) :
    componentDescriptor component ≠ type.text := by
  intro heq
  have hlength := congrArg (fun s => s.toList.length) heq
  simp [BaseType.text] at hlength

-- ---------------------------------------------------------------------------
-- Plans
-- ---------------------------------------------------------------------------

/-- Names that can stand between `L` and `;` in the descriptor of an array. -/
structure IsComponentName (component : String) : Prop where
  nonempty : component ≠ ""
  noSemicolon : ';' ∉ component.toList
  noBracket : '[' ∉ component.toList

/-- What a name stands for: itself, or an array of a class or of a primitive type. -/
inductive Resolves (name : String) : LoadPlan → Prop where
  | instanceClass (hname : name.toList.head? ≠ some '[') (hne : name ≠ "") :
      Resolves name (.instanceClass name)
  | objectArray {component : String} {outer : Nat} (hcomponent : IsComponentName component)
      (houter : outer < LoadPlan.maxDimensions)
      (hname : name = arrayDescriptor (componentDescriptor component) outer) :
      Resolves name (.objectArray (.build (componentDescriptor component) component outer))
  | primitiveArray {type : BaseType} {outer : Nat} (htype : type ≠ .void)
      (houter : outer < LoadPlan.maxDimensions)
      (hname : name = arrayDescriptor type.text outer) :
      Resolves name (.primitiveArray (.build type.text type outer))

theorem isComponentName_of_componentName {cs : List Char} {component : String}
    (h : LoadPlan.componentName cs = .ok component) :
    IsComponentName component ∧ cs = component.toList ++ [';'] := by
  unfold LoadPlan.componentName at h
  -- the three checks in the order they are made: the semicolon, emptiness, the forbidden characters
  split at h
  · exact nomatch h
  · rename_i hlast
    obtain ⟨front, rfl⟩ := List.getLast?_eq_some_iff.mp (Decidable.not_not.mp hlast)
    rw [List.dropLast_concat] at h
    split at h
    · exact nomatch h
    · rename_i hempty
      split at h
      · exact nomatch h
      · rename_i hbad
        obtain rfl := Except.ok.inj h
        rw [not_or] at hbad
        rw [String.toList_ofList]
        refine ⟨⟨fun hnil => hempty ?_, ?_, ?_⟩, rfl⟩
        · rw [List.isEmpty_iff, ← String.toList_ofList (l := front), hnil]
          rfl
        · rw [String.toList_ofList]
          exact hbad.1
        · rw [String.toList_ofList]
          exact hbad.2

/-- What comes after the brackets is a class name between `L` and `;`, or a letter. -/
theorem ofElement_eq_ok {outer : Nat} {element : List Char} {plan : LoadPlan}
    (h : LoadPlan.ofElement outer element = .ok plan) :
    (∃ component, IsComponentName component ∧
      element = (componentDescriptor component).toList ∧
      plan = .objectArray (.build (componentDescriptor component) component outer)) ∨
    (∃ type : BaseType, type ≠ .void ∧ element = type.text.toList ∧
      plan = .primitiveArray (.build type.text type outer)) := by
  unfold LoadPlan.ofElement at h
  split at h
  · exact nomatch h
  · rename_i rest
    left
    cases hname : LoadPlan.componentName rest with
    | error reason =>
      rw [hname] at h
      exact nomatch h
    | ok component =>
      rw [hname] at h
      obtain ⟨hcomponent, rfl⟩ := isComponentName_of_componentName hname
      have helement : String.ofList ('L' :: (component.toList ++ [';'])) =
          componentDescriptor component := by
        rw [← String.toList_inj, String.toList_ofList, toList_componentDescriptor]
        rfl
      refine ⟨component, hcomponent, by rw [toList_componentDescriptor]; rfl, ?_⟩
      rw [← helement]
      exact (Except.ok.inj h).symm
  · rename_i letter _
    right
    split at h
    · rename_i type htype
      obtain ⟨rfl, hvoid⟩ := BaseType.code_of_ofCode? htype
      exact ⟨type, hvoid, by simp [BaseType.text], (Except.ok.inj h).symm⟩
    · exact nomatch h
  · exact nomatch h

/-- A text is its leading brackets and what comes after them. -/
theorem replicate_append_dropWhile (cs : List Char) :
    List.replicate (cs.takeWhile (· = '[')).length '[' ++ cs.dropWhile (· = '[') = cs := by
  have hall : ∀ c ∈ cs.takeWhile (· = '['), c = '[' := fun c hc =>
    of_decide_eq_true (List.all_eq_true.mp List.all_takeWhile c hc)
  rw [← List.eq_replicate_of_mem hall, List.takeWhile_append_dropWhile]

/-- The plan for a name is the plan for what it stands for. -/
theorem resolves_of_resolve {name : String} {plan : LoadPlan}
    (h : LoadPlan.resolve name = .ok plan) : Resolves name plan := by
  have hchars : LoadPlan.ofChars name.toList = .ok plan := by
    unfold LoadPlan.resolve at h
    split at h
    · rename_i hof
      rw [hof, Except.ok.inj h]
    · exact nomatch h
  -- a name is its leading brackets and the element after them
  have hsplit := replicate_append_dropWhile name.toList
  unfold LoadPlan.ofChars at hchars
  split at hchars
  · exact nomatch hchars
  · rename_i hempty
    split at hchars
    · rename_i hzero
      rw [String.ofList_toList] at hchars
      obtain rfl := Except.ok.inj hchars
      refine .instanceClass (fun hhead => ?_) fun hnil => hempty (by rw [hnil]; rfl)
      obtain ⟨rest, hrest⟩ := List.head?_eq_some_iff.mp hhead
      simp [hrest] at hzero
    · rename_i outer hlength
      rw [hlength] at hsplit
      split at hchars
      · exact nomatch hchars
      · have houter : outer < LoadPlan.maxDimensions := by omega
        rcases ofElement_eq_ok hchars with ⟨component, hcomponent, helement, rfl⟩ |
          ⟨type, hvoid, helement, rfl⟩
        · refine .objectArray hcomponent houter ?_
          rw [← String.toList_inj, toList_arrayDescriptor, ← helement, hsplit]
        · refine .primitiveArray hvoid houter ?_
          rw [← String.toList_inj, toList_arrayDescriptor, ← helement, hsplit]

variable {name component : String} {outer : Nat}

theorem dropWhile_arrayDescriptor {element : String} (h : ¬ IsBracketed element) (outer : Nat) :
    (arrayDescriptor element outer).toList.dropWhile (· = '[') = element.toList := by
  rw [toList_arrayDescriptor, List.dropWhile_append_of_pos (by simp)]
  cases hlist : element.toList with
  | nil => rfl
  | cons first rest =>
    have hfirst : first ≠ '[' := by simpa [IsBracketed, hlist] using h
    rw [List.dropWhile_cons_of_neg (by simpa using hfirst)]

/-- A descriptor is planned by what comes after its brackets. -/
theorem ofChars_arrayDescriptor {element : String} (h : ¬ IsBracketed element)
    (houter : outer < LoadPlan.maxDimensions) :
    LoadPlan.ofChars (arrayDescriptor element outer).toList =
      LoadPlan.ofElement outer element.toList := by
  have hne : (arrayDescriptor element outer).toList.isEmpty = false := by
    simp [List.replicate_succ]
  have hbrackets := leadingBrackets_arrayDescriptor h outer
  unfold leadingBrackets at hbrackets
  unfold LoadPlan.ofChars
  rw [hne, hbrackets, dropWhile_arrayDescriptor h]
  exact if_neg (Nat.not_lt.mpr houter)

theorem componentName_append (h : IsComponentName component) :
    LoadPlan.componentName (component.toList ++ [';']) = .ok component := by
  have hne : component.toList.isEmpty = false := by
    simpa using h.nonempty
  unfold LoadPlan.componentName
  simp [hne, h.noSemicolon, h.noBracket]

theorem ofElement_componentDescriptor (h : IsComponentName component) (outer : Nat) :
    LoadPlan.ofElement outer (componentDescriptor component).toList =
      .ok (.objectArray (.build (componentDescriptor component) component outer)) := by
  have htext : String.ofList ('L' :: (component.toList ++ [';'])) =
      componentDescriptor component := by
    rw [← String.toList_inj, String.toList_ofList, toList_componentDescriptor]
    rfl
  rw [toList_componentDescriptor, List.cons_append, LoadPlan.ofElement, componentName_append h,
    htext]
  rfl

theorem ofElement_text {type : BaseType} (h : type ≠ .void) (outer : Nat) :
    LoadPlan.ofElement outer type.text.toList =
      .ok (.primitiveArray (.build type.text type outer)) := by
  cases type with
  | void => exact absurd rfl h
  | _ => rfl

/-- What a name stands for is planned for it. -/
theorem resolve_of_resolves {plan : LoadPlan} (h : Resolves name plan) :
    LoadPlan.resolve name = .ok plan := by
  have hchars : LoadPlan.ofChars name.toList = .ok plan := by
    cases h with
    | instanceClass hname hne =>
      have hlist : name.toList ≠ [] := by simpa using hne
      obtain ⟨first, rest, hcons⟩ := List.exists_cons_of_ne_nil hlist
      -- no bracket in front, so the count of levels is zero
      have hfirst : first ≠ '[' := fun heq => hname (by rw [hcons, heq]; rfl)
      unfold LoadPlan.ofChars
      rw [hcons, List.takeWhile_cons_of_neg (by simpa using hfirst), ← hcons,
        String.ofList_toList]
      simp [hlist]
    | objectArray hcomponent houter hname =>
      rw [hname, ofChars_arrayDescriptor (not_isBracketed_componentDescriptor _) houter,
        ofElement_componentDescriptor hcomponent]
    | primitiveArray htype houter hname =>
      rw [hname, ofChars_arrayDescriptor (not_isBracketed_text _) houter, ofElement_text htype]
  rw [LoadPlan.resolve, hchars]

/-- **Planning** finds what a name stands for, and fails if it stands for nothing. -/
theorem resolve_eq_ok_iff {plan : LoadPlan} :
    LoadPlan.resolve name = .ok plan ↔ Resolves name plan :=
  ⟨resolves_of_resolve, resolve_of_resolves⟩

/-- A name that can stand in a descriptor stands for itself. -/
theorem IsComponentName.resolve (h : IsComponentName component) :
    LoadPlan.resolve component = .ok (.instanceClass component) := by
  refine resolve_of_resolves (.instanceClass (fun hhead => h.noBracket ?_) h.nonempty)
  obtain ⟨rest, hrest⟩ := List.head?_eq_some_iff.mp hhead
  rw [hrest]
  exact List.mem_cons_self

theorem resolve_objectArray (h : IsComponentName component)
    (houter : outer < LoadPlan.maxDimensions) :
    LoadPlan.resolve (arrayDescriptor (componentDescriptor component) outer) =
      .ok (.objectArray (.build (componentDescriptor component) component outer)) :=
  resolve_of_resolves (.objectArray h houter rfl)

theorem resolve_primitiveArray {type : BaseType} (h : type ≠ .void)
    (houter : outer < LoadPlan.maxDimensions) :
    LoadPlan.resolve (arrayDescriptor type.text outer) =
      .ok (.primitiveArray (.build type.text type outer)) :=
  resolve_of_resolves (.primitiveArray h houter rfl)

/-- The class that has to be found for an array of objects is its component. -/
theorem classFor?_arrayDescriptor (h : IsComponentName component)
    (houter : outer < LoadPlan.maxDimensions) :
    Command.classFor? (arrayDescriptor (componentDescriptor component) outer) =
      some component := by
  rw [Command.classFor?, resolve_objectArray h houter]
  dsimp only
  rw [ArrayPlan.component_build]

end ClassHost
