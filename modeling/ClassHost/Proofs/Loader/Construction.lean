import ClassHost.Proofs.ClassTable
import ClassHost.Proofs.Loader.Plans

/-!
# What a loader adds to its table

Loading by name and defining from bytes are written as searches with early exits, but all that they
ever do to the table is to add classes at its end, each made from what stands in the table at that
moment. `Defines` lists the kinds of class that come about, with everything the loader has checked
by then; `Built` is a row of such additions.

The classes of before stand where they stood (`Built.get?_of_some`), and the others are as new
(`Built.eq_ofKind`). Invariants of the table are proved over `Built`, one case for each kind of
class.
-/

namespace ClassHost

/-- The loader can make a class of this name and kind from what stands in the table. -/
inductive Defines (table : ClassTable) (name : String) : ClassKind → Prop where
  /-- A class that was found on the class path under its own name. -/
  | located {file : ClassFile} {source : Source} (hhead : name.toList.head? ≠ some '[')
      (hname : file.thisClass = name) : Defines table name (.instances file (some source))
  /-- A class that was handed in. Its name is whatever the bytes say. -/
  | handedIn {file : ClassFile} (hname : file.thisClass = name) :
      Defines table name (.instances file none)
  | objectArray {component : String} {type : ClassId} (hcomponent : IsComponentName component)
      (htype : table.find? component = some type)
      (hname : name = arrayDescriptor (componentDescriptor component) 0) :
      Defines table name (.objectArray ⟨1, .component type⟩)
  | objectArrays {component : String} {outer : Nat} {down : ClassId}
      (hcomponent : IsComponentName component) (houter : outer + 1 < LoadPlan.maxDimensions)
      (hdown : table.find? (arrayDescriptor (componentDescriptor component) outer) = some down)
      (hname : name = arrayDescriptor (componentDescriptor component) (outer + 1)) :
      Defines table name (.objectArray ⟨outer + 2, .down down⟩)
  | primitiveArray {type : BaseType} (hvoid : type ≠ .void)
      (hname : name = arrayDescriptor type.text 0) :
      Defines table name (.primitiveArray ⟨1, .component type⟩)
  | primitiveArrays {type : BaseType} {outer : Nat} {down : ClassId} (hvoid : type ≠ .void)
      (houter : outer + 1 < LoadPlan.maxDimensions)
      (hdown : table.find? (arrayDescriptor type.text outer) = some down)
      (hname : name = arrayDescriptor type.text (outer + 1)) :
      Defines table name (.primitiveArray ⟨outer + 2, .down down⟩)

/-- One table has come from another by adding new classes, one after the other. -/
inductive Built (first : ClassTable) : ClassTable → Prop where
  | refl : Built first first
  | add {table : ClassTable} {name : String} {kind : ClassKind} (h : Built first table)
      (hfree : table.find? name = none) (hkind : Defines table name kind) :
      Built first (table.push (.ofKind name kind))

namespace Built

variable {first second third : ClassTable}

theorem trans (h : Built first second) (h' : Built second third) : Built first third := by
  induction h' with
  | refl => exact h
  | add _ hfree hkind ih => exact .add ih hfree hkind

/-- The classes of before stand where they stood. -/
theorem get?_of_some (h : Built first second) {id : ClassId} {c : LoadedClass}
    (hget : first.get? id = some c) : second.get? id = some c := by
  induction h with
  | refl => exact hget
  | add _ _ _ ih => exact ClassTable.get?_push_of_some ih

theorem find?_of_some (h : Built first second) {name : String} {id : ClassId}
    (hfind : first.find? name = some id) : second.find? name = some id := by
  induction h with
  | refl => exact hfind
  | add _ _ _ ih => exact ClassTable.find?_push_of_some ih

/-- A name that is free in the end was free before. -/
theorem find?_eq_none (h : Built first second) {name : String}
    (hfree : second.find? name = none) : first.find? name = none := by
  cases hfind : first.find? name with
  | none => rfl
  | some id =>
    rw [h.find?_of_some hfind] at hfree
    cases hfree

/-- A class that was not there before is as new. -/
theorem eq_ofKind (h : Built first second) {id : ClassId} {c : LoadedClass}
    (hget : second.get? id = some c) (hnew : first.get? id = none) :
    ∃ name kind, c = .ofKind name kind := by
  induction h with
  | refl =>
    rw [hnew] at hget
    exact nomatch hget
  | @add table name kind _ _ _ ih =>
    rw [ClassTable.get?_push] at hget
    split at hget
    · exact ⟨name, kind, (Option.some.inj hget).symm⟩
    · exact ih hget

/-- Where no class is left to load, none is left to load with the new ones. -/
theorem present (h : Built first second)
    (hpresent : ∀ id c, first.get? id = some c → c.state ≠ .notLoaded) {id : ClassId}
    {c : LoadedClass} (hget : second.get? id = some c) : c.state ≠ .notLoaded := by
  cases hold : first.get? id with
  | none =>
    obtain ⟨name, kind, rfl⟩ := h.eq_ofKind hget hold
    nofun
  | some old =>
    obtain rfl := Option.some.inj (hget.symm.trans (h.get?_of_some hold))
    exact hpresent id c hold

end Built

end ClassHost
