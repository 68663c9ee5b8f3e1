import ClassHost.Proofs.Loader.Results

/-!
# Loads do not look at states

A load goes by names and adds classes at the end. So it does not matter to it which classes are
being initialised: if some classes are marked as such beforehand, the load returns the same and
leaves the same behind, with the same classes marked (`Loader.load_mark`).

`Loader.Blind` says so of a step of loading. It holds of the single steps and goes through
sequences, and so through all of loading, one lemma for each procedure.
-/

namespace ClassHost

namespace ClassTable

/-- The table with some classes being initialised. -/
def mark (table : ClassTable) (ids : List ClassId) : ClassTable :=
  ids.foldr (fun id table => table.setState id .beingInitialized) table

variable {table : ClassTable} {ids : List ClassId} {id : ClassId}

@[simp] theorem mark_nil (table : ClassTable) : table.mark [] = table := rfl

theorem mark_cons (table : ClassTable) (id : ClassId) (ids : List ClassId) :
    table.mark (id :: ids) = (table.mark ids).setState id .beingInitialized := rfl

@[simp] theorem find?_mark (table : ClassTable) (ids : List ClassId) (name : String) :
    (table.mark ids).find? name = table.find? name := by
  induction ids with
  | nil => rfl
  | cons id ids ih => rw [mark_cons, find?_setState, ih]

theorem get?_mark_of_not_mem (h : id ∉ ids) : (table.mark ids).get? id = table.get? id := by
  induction ids with
  | nil => rfl
  | cons other ids ih =>
    rw [List.mem_cons, not_or] at h
    rw [mark_cons, get?_setState_of_ne (Ne.symm h.1), ih h.2]

theorem get?_mark_of_mem (h : id ∈ ids) :
    (table.mark ids).get? id = (table.get? id).map fun c => { c with state := .beingInitialized } := by
  induction ids with
  | nil => exact absurd h List.not_mem_nil
  | cons other ids ih =>
    rw [mark_cons, setState, get?_modify]
    by_cases hmem : id ∈ ids
    · rw [ih hmem]
      split
      · rw [Option.map_map]
        rfl
      · rfl
    · obtain rfl : id = other := (List.mem_cons.mp h).resolve_right hmem
      rw [if_pos rfl, get?_mark_of_not_mem hmem]

@[simp] theorem size_mark (table : ClassTable) (ids : List ClassId) :
    (table.mark ids).classes.size = table.classes.size := by
  induction ids with
  | nil => rfl
  | cons id ids ih => exact (Array.size_modify ..).trans ih

/-- Classes that are added are not marked. -/
theorem mark_push (h : ∀ id ∈ ids, id.index < table.classes.size) (new : LoadedClass) :
    (table.push new).mark ids = (table.mark ids).push new := by
  induction ids with
  | nil => rfl
  | cons id ids ih =>
    -- every marked class stands before the new one, so the two changes touch different places
    have hlt : id.index < (table.mark ids).classes.size := by
      rw [size_mark]
      exact h id List.mem_cons_self
    rw [mark_cons, mark_cons, ih fun other hmem => h other (List.mem_cons_of_mem _ hmem)]
    show ClassTable.mk (((table.mark ids).classes.push new).modify id.index _) =
      ClassTable.mk (((table.mark ids).classes.modify id.index _).push new)
    congr 1
    refine Array.ext_getElem? fun i => ?_
    rw [Array.getElem?_modify, Array.getElem?_push, Array.getElem?_push, Array.getElem?_modify,
      Array.size_modify]
    split
    · rename_i hi
      rw [if_neg (by omega), if_neg (by omega)]
    · rfl

end ClassTable

namespace Loader

/-- The loader with some classes being initialised. -/
def mark (loader : Loader) (ids : List ClassId) : Loader :=
  { loader with table := loader.table.mark ids }

variable {α β : Type} {ids : List ClassId} {loader : Loader}

/-- The places are those of classes. -/
def Holds (loader : Loader) (ids : List ClassId) : Prop :=
  ∀ id ∈ ids, id.index < loader.table.classes.size

/-- It does not matter to a step of loading whether these classes are being initialised. -/
def Blind (ids : List ClassId) (x : Loading α) : Prop :=
  ∀ loader, loader.Holds ids →
    x (loader.mark ids) = ((x loader).1, (x loader).2.mark ids) ∧ (x loader).2.Holds ids

theorem blind_pure (a : α) : Blind ids (pure a) := fun _ hholds => ⟨rfl, hholds⟩

theorem blind_throw (error : Throwable) : Blind ids (throw error : Loading α) :=
  fun _ hholds => ⟨rfl, hholds⟩

theorem blind_bind {x : Loading α} {f : α → Loading β} (hx : Blind ids x)
    (hf : ∀ a, Blind ids (f a)) : Blind ids (x >>= f) := by
  intro loader hholds
  obtain ⟨hsame, hholds'⟩ := hx loader hholds
  rw [Effect.bind_apply, Effect.bind_apply, hsame]
  rcases hrun : x loader with ⟨error | a, middle⟩
  · rw [hrun] at hholds'
    exact ⟨rfl, hholds'⟩
  · rw [hrun] at hholds'
    exact hf a middle hholds'

theorem blind_find? (name : String) : Blind ids (find? name) := by
  intro loader hholds
  rw [find?_apply, find?_apply]
  exact ⟨by rw [mark, ClassTable.find?_mark], hholds⟩

theorem blind_search (finder : Finder) (name : String) : Blind ids (search finder name) :=
  fun _ hholds => ⟨rfl, hholds⟩

theorem blind_parse (name origin : String) (bytes : Bytes) : Blind ids (parse name origin bytes) := by
  unfold parse
  cases ClassFile.parse bytes with
  | ok file => exact blind_pure file
  | error fault => exact blind_throw _

/-- A class that is added is not one of those that are marked. -/
theorem blind_define (name : String) (kind : ClassKind) : Blind ids (define name kind) := by
  intro loader hholds
  have hmarked : (loader.mark ids).table.find? name = loader.table.find? name :=
    ClassTable.find?_mark loader.table ids name
  -- marking keeps the names, so both tables have the name or neither has
  cases hfind : loader.table.find? name with
  | some id =>
    have hdefine : ∀ other : Loader, other.table.find? name = some id →
        define name kind other = (.ok id, other) := by
      intro other hother
      change (Except.ok (other.table.define name kind).1,
        { other with table := (other.table.define name kind).2 }) = _
      rw [ClassTable.define, hother]
    rw [hdefine loader hfind, hdefine _ (hmarked.trans hfind)]
    exact ⟨rfl, hholds⟩
  | none =>
    rw [define_of_free hfind, define_of_free (hmarked.trans hfind)]
    constructor
    · simp only [next, add, mark, ClassTable.mark_push hholds, ClassTable.size_mark]
    · intro id hid
      exact Nat.lt_of_lt_of_le (hholds id hid) (by simp [add, ClassTable.push])

-- ---------------------------------------------------------------------------
-- Loading
-- ---------------------------------------------------------------------------

theorem blind_loadInstances (finder : Finder) (name : String) :
    Blind ids (loadInstances finder name) := by
  refine blind_bind (blind_search finder name) fun found => ?_
  cases found with
  | none => exact blind_pure none
  | some found =>
    refine blind_bind (blind_parse _ _ _) fun file => ?_
    split
    · exact blind_bind (blind_throw _) fun _ => blind_bind (blind_define _ _) fun _ => blind_pure _
    · exact blind_bind (blind_define _ _) fun _ => blind_pure _

/-- A step that looks a name up first. -/
theorem blind_find?_or {make : Loading (Option ClassId)} (hmake : Blind ids make) (name : String) :
    Blind ids (do match ← find? name with | some id => return some id | none => make) := by
  refine blind_bind (blind_find? name) fun found => ?_
  cases found with
  | none => exact hmake
  | some id => exact blind_pure _

/-- A step that makes a class from an element, once that has been loaded. -/
theorem blind_of_element {load : Loading (Option ClassId)} (hload : Blind ids load) (name : String)
    (kind : ClassId → ClassKind) :
    Blind ids (do
      let some id ← load | return none
      return some (← define name (kind id))) := by
  refine blind_bind hload fun found => ?_
  cases found with
  | none => exact blind_pure none
  | some id => exact blind_bind (blind_define _ _) fun _ => blind_pure _

theorem blind_loadObjectArray (finder : Finder) (plan : ArrayPlan String) :
    Blind ids (loadObjectArray finder plan) := by
  induction plan with
  | last descriptor component =>
    have hcomponent : Blind ids (loadComponent finder component) :=
      blind_find?_or (blind_loadInstances finder component) component
    exact blind_find?_or (blind_of_element hcomponent descriptor _) descriptor
  | level descriptor inner ih => exact blind_find?_or (blind_of_element ih descriptor _) descriptor

theorem blind_loadPrimitiveArray (plan : ArrayPlan BaseType) :
    Blind ids (loadPrimitiveArray plan) := by
  induction plan with
  | last descriptor component =>
    refine blind_bind (blind_find? descriptor) fun found => ?_
    cases found with
    | none => exact blind_define _ _
    | some id => exact blind_pure id
  | level descriptor inner ih =>
    refine blind_bind (blind_find? descriptor) fun found => ?_
    cases found with
    | none => exact blind_bind ih fun _ => blind_define _ _
    | some id => exact blind_pure id

theorem blind_load (finder : Finder) (name : String) : Blind ids (load finder name) := by
  refine blind_bind (blind_find? name) fun found => ?_
  cases found with
  | some id => exact blind_pure _
  | none =>
    dsimp only
    cases LoadPlan.resolve name with
    | error error => exact blind_throw _
    | ok plan =>
      cases plan with
      | instanceClass name => exact blind_loadInstances finder name
      | objectArray plan => exact blind_loadObjectArray finder plan
      | primitiveArray plan => exact blind_bind (blind_loadPrimitiveArray plan) fun _ => blind_pure _

/-- **Loads do not look at states.** -/
theorem load_mark (finder : Finder) (name : String) (hholds : loader.Holds ids) :
    load finder name (loader.mark ids) =
      ((load finder name loader).1, (load finder name loader).2.mark ids) :=
  (blind_load finder name loader hholds).1

end Loader

end ClassHost
