import Mathlib.Data.List.Induction
import ClassHost.Proofs.Loader.TableInvariant

/-!
# What a name resolves to

The table of a loader is a memory of what was loaded before, and loads consult it at every level. As
long as the class path stays the same it never shows, but for the places that classes get: a load by
name comes to what the name resolves to on the class path alone (`Finder.resolution`), which knows
nothing of tables.

The invariant is that every class in the table is what its name resolves to (`Settled`). A load
keeps it (`Makes.settled`): the description of an array class follows from its name and from whether
its component can be read, and the class that an array is made from shows that it can. A load that
comes to nothing has read the file that the resolution reads too. So no load depends on the ones
before it (`outcome_after_loads`).

A class is described without places: an array class by the name of what it holds
(`ClassDescription`).
-/

namespace ClassHost

/-- What an array class holds, told without places. -/
inductive ElementForm where
  | primitive (type : BaseType)
  | component (className : String)
  | down (className : String)
  deriving Repr, DecidableEq

/-- What a class is made of, told without places. -/
inductive ClassForm where
  | instances (file : ClassFile) (source : Option Source)
  | objectArray (dimension : Nat) (element : ElementForm)
  | primitiveArray (dimension : Nat) (element : ElementForm)
  deriving Repr, DecidableEq

/-- A class, told without places. Where there is no class there is no form. -/
structure ClassDescription where
  name : String
  form : Option ClassForm
  deriving Repr, DecidableEq

namespace ClassTable

def formOf (table : ClassTable) : ClassKind → ClassForm
  | .instances file source => .instances file source
  | .objectArray ⟨dimension, .component type⟩ =>
    .objectArray dimension (.component (table.nameOf type))
  | .objectArray ⟨dimension, .down array⟩ => .objectArray dimension (.down (table.nameOf array))
  | .primitiveArray ⟨dimension, .component type⟩ => .primitiveArray dimension (.primitive type)
  | .primitiveArray ⟨dimension, .down array⟩ =>
    .primitiveArray dimension (.down (table.nameOf array))

def describe (table : ClassTable) (id : ClassId) : ClassDescription :=
  ⟨table.nameOf id, (table.get? id).map fun c => table.formOf c.kind⟩

end ClassTable

/-- What the outermost array of a plan holds. -/
def ElementForm.ofPlan {Component : Type} (ofComponent : Component → ElementForm) :
    ArrayPlan Component → ElementForm
  | .last _ innermost => ofComponent innermost
  | .level _ inner => .down inner.descriptor

/-- What a name stands for on a class path. -/
def Finder.resolution (finder : Finder) (name : String) :
    Except Throwable (Option ClassDescription) :=
  match LoadPlan.resolve name with
  | .error error => .error (.descriptor error)
  | .ok (.instanceClass name) =>
    (finder.read name).map (Option.map fun (file, source) =>
      ⟨name, some (.instances file (some source))⟩)
  | .ok (.objectArray plan) =>
    (finder.read plan.component).map (Option.map fun _ =>
      ⟨name, some (.objectArray plan.dimension (.ofPlan .component plan))⟩)
  | .ok (.primitiveArray plan) =>
    .ok (some ⟨name, some (.primitiveArray plan.dimension (.ofPlan .primitive plan))⟩)

-- ---------------------------------------------------------------------------
-- Descriptions
-- ---------------------------------------------------------------------------

namespace ClassTable

variable {table : ClassTable} {id : ClassId} {c : LoadedClass} {kind : ClassKind}

theorem nameOf_push_of_lt (h : id.index < table.classes.size) (new : LoadedClass) :
    (table.push new).nameOf id = table.nameOf id := by
  rw [nameOf, get?_push, if_neg (Nat.ne_of_lt h), nameOf]

/-- The form of a class depends on the name of its element only. -/
theorem formOf_push (new : LoadedClass)
    (h : ∀ element, kind.element? = some element → element.index < table.classes.size) :
    (table.push new).formOf kind = table.formOf kind := by
  cases kind with
  | instances file source => rfl
  | objectArray shape =>
    obtain ⟨dimension, type | array⟩ := shape
    · rw [formOf, nameOf_push_of_lt (h type rfl), formOf]
    · rw [formOf, nameOf_push_of_lt (h array rfl), formOf]
  | primitiveArray shape =>
    obtain ⟨dimension, type | array⟩ := shape
    · rfl
    · rw [formOf, nameOf_push_of_lt (h array rfl), formOf]

theorem describe_of_get? (h : table.get? id = some c) :
    table.describe id = ⟨c.name, some (table.formOf c.kind)⟩ := by
  rw [describe, nameOf_of_get? h, h, Option.map_some]

/-- A class is described as it was before others were added. -/
theorem WellFormed.describe_push (hwell : table.WellFormed) (new : LoadedClass)
    (h : table.get? id = some c) : (table.push new).describe id = table.describe id := by
  rw [describe_of_get? (get?_push_of_some h), describe_of_get? h, formOf_push]
  intro element helement
  have hlt := hwell.descends id element ((elementClass?_of_get? h).trans helement)
  exact Nat.lt_trans hlt (index_lt_of_get? h)

/-- A class is described as it was before one was changed. -/
theorem describe_modify {change : LoadedClass → LoadedClass}
    (hname : ∀ c, (change c).name = c.name) (hkind : ∀ c, (change c).kind = c.kind)
    (id other : ClassId) : (table.modify id change).describe other = table.describe other := by
  -- a class is described by its kind and by its element's name, and the change keeps both
  have hnames : ∀ place, (table.modify id change).nameOf place = table.nameOf place := by
    intro place
    rw [nameOf, nameOf, get?_modify]
    split
    · rw [Option.map_map]
      exact congrArg (·.getD "") (congrArg (Option.map · (table.get? place)) (funext hname))
    · rfl
  have hforms : ∀ kind, (table.modify id change).formOf kind = table.formOf kind := by
    intro kind
    unfold formOf
    split <;> simp only [hnames]
  rw [describe, describe, hnames, get?_modify]
  split
  · cases table.get? other with
    | none => rfl
    | some c => simp only [Option.map_some, hforms, hkind]
  · cases table.get? other with
    | none => rfl
    | some c => simp only [Option.map_some, hforms]

end ClassTable

-- ---------------------------------------------------------------------------
-- Resolution
-- ---------------------------------------------------------------------------

variable {finder : Finder} {name sought component : String} {outer : Nat}

/-- What a name with a class to look for resolves to depends on that class alone. -/
theorem exists_resolution_eq (finder : Finder) (h : Command.classFor? name = some sought) :
    ∃ form, finder.resolution name = (finder.read sought).map (Option.map form) := by
  rw [Command.classFor?] at h
  rw [Finder.resolution]
  cases hplan : LoadPlan.resolve name with
  | error error =>
    rw [hplan] at h
    cases h
  | ok plan =>
    rw [hplan] at h
    cases plan with
    | instanceClass name =>
      obtain rfl := Option.some.inj h
      exact ⟨_, rfl⟩
    | objectArray plan =>
      obtain rfl := Option.some.inj h
      exact ⟨_, rfl⟩
    | primitiveArray plan => cases h

/-- A name that resolves to a class has a class to look for that can be read. -/
theorem exists_read_of_resolution {description : ClassDescription}
    (h : Command.classFor? name = some sought)
    (hresolution : finder.resolution name = .ok (some description)) :
    ∃ found, finder.read sought = .ok (some found) := by
  obtain ⟨form, hform⟩ := exists_resolution_eq finder h
  rw [hform] at hresolution
  cases hread : finder.read sought with
  | error error =>
    rw [hread] at hresolution
    cases hresolution
  | ok found =>
    cases found with
    | none =>
      rw [hread] at hresolution
      cases hresolution
    | some found => exact ⟨found, rfl⟩

theorem resolution_instances {file : ClassFile} {source : Source}
    (hplain : LoadPlan.resolve name = .ok (.instanceClass name))
    (hread : finder.read name = .ok (some (file, source))) :
    finder.resolution name = .ok (some ⟨name, some (.instances file (some source))⟩) := by
  rw [Finder.resolution, hplain]
  dsimp only
  rw [hread]
  rfl

theorem resolution_objectArray {found : ClassFile × Source} (hcomponent : IsComponentName component)
    (houter : outer < LoadPlan.maxDimensions) (hread : finder.read component = .ok (some found)) :
    finder.resolution (arrayDescriptor (componentDescriptor component) outer) =
      .ok (some ⟨arrayDescriptor (componentDescriptor component) outer,
        some (.objectArray (outer + 1) (.ofPlan .component
          (.build (componentDescriptor component) component outer)))⟩) := by
  rw [Finder.resolution, resolve_objectArray hcomponent houter]
  dsimp only
  rw [ArrayPlan.component_build, ArrayPlan.dimension_build, hread]
  rfl

theorem resolution_primitiveArray {type : BaseType} (hvoid : type ≠ .void)
    (houter : outer < LoadPlan.maxDimensions) :
    finder.resolution (arrayDescriptor type.text outer) =
      .ok (some ⟨arrayDescriptor type.text outer,
        some (.primitiveArray (outer + 1) (.ofPlan .primitive (.build type.text type outer)))⟩) := by
  rw [Finder.resolution, resolve_primitiveArray hvoid houter]
  dsimp only
  rw [ArrayPlan.dimension_build]

theorem ElementForm.ofPlan_build_succ {Component : Type} (ofComponent : Component → ElementForm)
    (element : String) (innermost : Component) (outer : Nat) :
    ElementForm.ofPlan ofComponent (.build element innermost (outer + 1)) =
      .down (arrayDescriptor element outer) := by
  rw [ArrayPlan.build, ofPlan, ArrayPlan.descriptor_build]

-- ---------------------------------------------------------------------------
-- The invariant
-- ---------------------------------------------------------------------------

/-- Every class in a table is what its name stands for on a class path. -/
def Settled (finder : Finder) (table : ClassTable) : Prop :=
  ∀ id c, table.get? id = some c → finder.resolution c.name = .ok (some (table.describe id))

theorem settled_empty (finder : Finder) : Settled finder .empty := by
  intro id c hget
  simp at hget

theorem Settled.of_find? {table : ClassTable} {id : ClassId} (h : Settled finder table)
    (hfind : table.find? name = some id) :
    finder.resolution name = .ok (some (table.describe id)) := by
  obtain ⟨c, hget, rfl⟩ := ClassTable.get?_of_find? hfind
  exact h id c hget

/-- A class may be added if it is what its name stands for. -/
theorem Settled.push {table : ClassTable} {kind : ClassKind} (h : Settled finder table)
    (hwell : table.WellFormed) (hdefines : Defines table name kind)
    (hresolution : finder.resolution name = .ok (some ⟨name, some (table.formOf kind)⟩)) :
    Settled finder (table.push (.ofKind name kind)) := by
  intro id c hget
  rw [ClassTable.get?_push] at hget
  split at hget
  · rename_i hindex
    obtain rfl := Option.some.inj hget
    have hnew : (table.push (.ofKind name kind)).get? id = some (.ofKind name kind) := by
      rw [ClassTable.get?_push, if_pos hindex]
    -- an element stands before its array, so appending the array does not change how it is told
    have hform : (table.push (.ofKind name kind)).formOf kind = table.formOf kind :=
      ClassTable.formOf_push _ fun _ helement => hdefines.element_lt helement
    rw [ClassTable.describe_of_get? hnew]
    change finder.resolution name =
      .ok (some ⟨name, some ((table.push (.ofKind name kind)).formOf kind)⟩)
    rw [hform]
    exact hresolution
  · rw [hwell.describe_push _ hget]
    exact h id c hget

/-- A class may be changed if it keeps its name and kind. -/
theorem Settled.modify {table : ClassTable} (h : Settled finder table)
    {change : LoadedClass → LoadedClass} (hname : ∀ c, (change c).name = c.name)
    (hkind : ∀ c, (change c).kind = c.kind) (id : ClassId) :
    Settled finder (table.modify id change) := by
  intro place c' hget
  rw [ClassTable.describe_modify hname hkind]
  rw [ClassTable.get?_modify] at hget
  split at hget
  · obtain ⟨c, hc, rfl⟩ := Option.map_eq_some_iff.mp hget
    rw [hname]
    exact h place c hc
  · exact h place c' hget

namespace Loader

variable {loader loader' : Loader} {id : ClassId}

/-- What loads add is what the names stand for, one case for each way to make a class. -/
theorem Makes.settled (h : Makes finder name loader id loader') (hwell : loader.table.WellFormed)
    (hsettled : Settled finder loader.table) : Settled finder loader'.table := by
  -- every class made is told as the finder alone would have it told; a level uses this of its element
  induction h with
  | present _ => exact hsettled
  | located hplain hfree hread =>
    cases resolves_of_resolve hplain with
    | instanceClass hhead hne =>
      obtain ⟨_, -, -, -, hname⟩ := Finder.located_of_read hread
      exact hsettled.push hwell (.located hhead hname) (resolution_instances hplain hread)
  | @objectArray component loader middle type hcomponent hfree h ih =>
    have hmiddle := ih hwell hsettled
    have hfind := h.find?
    obtain ⟨found, hread⟩ := exists_read_of_resolution
      (by rw [Command.classFor?, hcomponent.resolve]) (hmiddle.of_find? hfind)
    refine hmiddle.push (h.built.wellFormed hwell) (.objectArray hcomponent hfind rfl) ?_
    rw [resolution_objectArray hcomponent (by decide) hread, ClassTable.formOf,
      ClassTable.nameOf_of_find? hfind]
    rfl
  | @objectArrays component outer loader middle down hcomponent houter hfree h ih =>
    have hmiddle := ih hwell hsettled
    have hfind := h.find?
    obtain ⟨found, hread⟩ := exists_read_of_resolution
      (classFor?_arrayDescriptor hcomponent (by omega)) (hmiddle.of_find? hfind)
    refine hmiddle.push (h.built.wellFormed hwell) (.objectArrays hcomponent houter hfind rfl) ?_
    rw [resolution_objectArray hcomponent houter hread, ElementForm.ofPlan_build_succ,
      ClassTable.formOf, ClassTable.nameOf_of_find? hfind]
  | primitiveArray hvoid hfree =>
    refine hsettled.push hwell (.primitiveArray hvoid rfl) ?_
    exact resolution_primitiveArray hvoid (by decide)
  | @primitiveArrays type outer loader middle down hvoid houter hfree h ih =>
    have hfind := h.find?
    refine (ih hwell hsettled).push (h.built.wellFormed hwell)
      (.primitiveArrays hvoid houter hfind rfl) ?_
    rw [resolution_primitiveArray hvoid houter, ElementForm.ofPlan_build_succ, ClassTable.formOf,
      ClassTable.nameOf_of_find? hfind]

/-- What a load of a name comes to, told without places. -/
def outcome (finder : Finder) (name : String) (loader : Loader) :
    Except Throwable (Option ClassDescription) :=
  (load finder name loader).1.map (Option.map (load finder name loader).2.table.describe)

/-- One load: it comes to what the name stands for, and the invariant stays. -/
theorem outcome_eq_resolution (hwell : loader.table.WellFormed)
    (hsettled : Settled finder loader.table) (name : String) :
    outcome finder name loader = finder.resolution name ∧
      Settled finder (load finder name loader).2.table := by
  unfold outcome
  cases hrun : load finder name loader with
  | mk r loader' =>
    -- a load makes a class, misses the one class it asks for, or stops at the plan
    cases loads_load hrun with
    | made h =>
      have hlater := h.settled hwell hsettled
      exact ⟨(hlater.of_find? h.find?).symm, hlater⟩
    | missed hsought h =>
      obtain ⟨form, hform⟩ := exists_resolution_eq finder (ClassTable.classFor?_of_sought? hsought)
      refine ⟨?_, hsettled⟩
      rw [hform]
      cases h with
      | missing hread =>
        rw [hread]
        rfl
      | refused hread =>
        rw [hread]
        rfl
    | malformed hplan =>
      refine ⟨?_, hsettled⟩
      rw [Finder.resolution, hplan]
      rfl

/-- The loader after loads by name over one class path, by induction on the loads. -/
theorem settled_after_loads (finder : Finder) (names : List String) :
    Settled finder (after (names.map (.load finder))).table := by
  induction names using List.reverseRecOn with
  | nil => exact settled_empty finder
  | append_singleton names name ih =>
    rw [List.map_append, List.map_singleton, after_concat]
    exact (outcome_eq_resolution (wellFormed_after _) ih name).2

/-- After loads over one class path, a load comes to what the class path alone says. -/
theorem outcome_after (finder : Finder) (names : List String) (name : String) :
    outcome finder name (after (names.map (.load finder))) = finder.resolution name :=
  (outcome_eq_resolution (wellFormed_after _) (settled_after_loads finder names) name).1

/-- **Loads do not depend on the loads before them.** Over a class path that stays the same, a name
comes to the same after any two rows of loads, whatever these found, missed or failed at: to the
same failure, to nothing, or to a class that is the same but for the places in it. -/
theorem outcome_after_loads (finder : Finder) (first second : List String) (name : String) :
    outcome finder name (after (first.map (.load finder))) =
      outcome finder name (after (second.map (.load finder))) := by
  rw [outcome_after, outcome_after]

end Loader

end ClassHost
