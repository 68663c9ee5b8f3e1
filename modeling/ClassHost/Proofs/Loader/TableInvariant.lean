import ClassHost.Proofs.Loader.History

/-!
# Places, names and elements

The class table is an arena: a class is known by its place, array classes refer to their elements by
place, and one index leads from names to places. `ClassTable.WellFormed` says that the three agree,
and that references lead downwards. From the last it follows that following the elements of a class
comes to an end (`ClassTable.WellFormed.inside_eq_none`).

A class that is added is new by name, its element has been found in the table, and a class that is
no array bears the name that its file gives (`Defines`). That is all it takes, so the invariant
holds of whatever is built from a well-formed table (`Built.wellFormed`), and so of every loader in
use (`Loader.wellFormed_after`).
-/

namespace ClassHost

/-- The class that array classes of a kind hold, if they hold classes. -/
def ClassKind.element? : ClassKind → Option ClassId
  | .objectArray ⟨_, .component type⟩ => some type
  | .objectArray ⟨_, .down array⟩ => some array
  | .primitiveArray ⟨_, .down array⟩ => some array
  | .primitiveArray ⟨_, .component _⟩ => none
  | .instances _ _ => none

namespace ClassTable

/-- The class so many levels inside another one. -/
def inside (table : ClassTable) : Nat → ClassId → Option ClassId
  | 0, id => some id
  | levels + 1, id => (table.elementClass? id).bind (table.inside levels)

/-- Places, names and elements fit together. -/
structure WellFormed (table : ClassTable) : Prop where
  /-- A class is what its own name leads to, at its own place. -/
  found : ∀ id c, table.get? id = some c → table.find? c.name = some id
  /-- The element of an array class was there before it. -/
  descends : ∀ id element, table.elementClass? id = some element → element.index < id.index
  /-- A class that is no array bears the name that its file gives. -/
  named : ∀ id c file, table.get? id = some c → c.file? = some file → file.thisClass = c.name

variable {table : ClassTable} {id element : ClassId} {c new : LoadedClass} {name : String}

theorem elementClass?_of_get? (h : table.get? id = some c) :
    table.elementClass? id = c.kind.element? := by
  obtain ⟨_, kind, _, _, _⟩ := c
  rw [elementClass?, h]
  cases kind with
  | instances file source => rfl
  | objectArray shape =>
    obtain ⟨_, _ | _⟩ := shape
    · rfl
    · rfl
  | primitiveArray shape =>
    obtain ⟨_, _ | _⟩ := shape
    · rfl
    · rfl

theorem elementClass?_of_get?_none (h : table.get? id = none) : table.elementClass? id = none := by
  rw [elementClass?, h]
  rfl

/-- The class that an array class holds stands in the table. -/
theorem WellFormed.exists_element (h : table.WellFormed)
    (helement : table.elementClass? id = some element) : ∃ c, table.get? element = some c := by
  cases hget : table.get? id with
  | none =>
    rw [elementClass?_of_get?_none hget] at helement
    cases helement
  | some c =>
    have hlt := h.descends id element helement
    exact ⟨_, Array.getElem?_eq_getElem (Nat.lt_trans hlt (index_lt_of_get? hget))⟩

/-- Names lead to the classes that bear them, and to nothing else. -/
theorem WellFormed.find?_iff (h : table.WellFormed) :
    table.find? name = some id ↔ ∃ c, table.get? id = some c ∧ c.name = name := by
  constructor
  · exact get?_of_find?
  · rintro ⟨c, hget, rfl⟩
    exact h.found id c hget

/-- No two classes bear the same name. -/
theorem WellFormed.eq_of_name_eq (h : table.WellFormed) {other : ClassId} {d : LoadedClass}
    (hget : table.get? id = some c) (hget' : table.get? other = some d) (hname : c.name = d.name) :
    id = other := by
  have hfound := h.found id c hget
  rw [hname, h.found other d hget'] at hfound
  exact (Option.some.inj hfound).symm

/-- Going inside comes to an end, as every step leads to a place further down. -/
theorem WellFormed.inside_eq_none (h : table.WellFormed) {levels : Nat} {id : ClassId}
    (hlevels : id.index < levels) : table.inside levels id = none := by
  induction levels generalizing id with
  | zero => exact absurd hlevels (Nat.not_lt_zero _)
  | succ levels ih =>
    rw [inside]
    cases helement : table.elementClass? id with
    | none => rfl
    | some element =>
      have hlt := h.descends id element helement
      exact ih (by omega)

theorem wellFormed_empty : empty.WellFormed where
  found id c hget := by simp at hget
  descends id element helement := by
    rw [elementClass?_of_get?_none (get?_empty id)] at helement
    cases helement
  named id c file hget := by simp at hget

theorem WellFormed.push (h : table.WellFormed) (hfree : table.find? new.name = none)
    (helement : ∀ element, new.kind.element? = some element →
      element.index < table.classes.size)
    (hnamed : ∀ file, new.file? = some file → file.thisClass = new.name) :
    (table.push new).WellFormed where
  found id c hget := by
    rw [get?_push] at hget
    split at hget
    · rename_i hindex
      -- the new class stands last, where nothing else has its name
      obtain rfl := Option.some.inj hget
      rw [find?_push_of_none hfree, if_pos rfl, ← hindex]
    · exact find?_push_of_some (h.found id c hget)
  descends id element hid := by
    cases hget : (table.push new).get? id with
    | none =>
      rw [elementClass?_of_get?_none hget] at hid
      cases hid
    | some c =>
      rw [elementClass?_of_get? hget] at hid
      rw [get?_push] at hget
      split at hget
      · rename_i hindex
        obtain rfl := Option.some.inj hget
        rw [hindex]
        exact helement element hid
      · exact h.descends id element ((elementClass?_of_get? hget).trans hid)
  named id c file hget hfile := by
    rw [get?_push] at hget
    split at hget
    · obtain rfl := Option.some.inj hget
      exact hnamed file hfile
    · exact h.named id c file hget hfile

/-- A change of one class that keeps its name and kind. -/
theorem WellFormed.modify (h : table.WellFormed) {change : LoadedClass → LoadedClass}
    (hname : ∀ c, (change c).name = c.name) (hkind : ∀ c, (change c).kind = c.kind) (id : ClassId) :
    (table.modify id change).WellFormed := by
  -- whatever is in a place now was there before, under the same name and of the same kind
  have hbefore : ∀ {place c'}, (table.modify id change).get? place = some c' →
      ∃ c, table.get? place = some c ∧ c'.name = c.name ∧ c'.kind = c.kind := by
    intro place c' hget
    rw [get?_modify] at hget
    split at hget
    · obtain ⟨c, hc, rfl⟩ := Option.map_eq_some_iff.mp hget
      exact ⟨c, hc, hname c, hkind c⟩
    · exact ⟨c', hget, rfl, rfl⟩
  constructor
  · intro place c' hget
    obtain ⟨c, hc, hsame, -⟩ := hbefore hget
    rw [find?_modify hname, hsame]
    exact h.found place c hc
  · intro place element helement
    cases hget : (table.modify id change).get? place with
    | none =>
      rw [elementClass?_of_get?_none hget] at helement
      cases helement
    | some c' =>
      obtain ⟨c, hc, -, hsame⟩ := hbefore hget
      rw [elementClass?_of_get? hget, hsame] at helement
      exact h.descends place element ((elementClass?_of_get? hc).trans helement)
  · intro place c' file hget hfile
    obtain ⟨c, hc, hsame, hsameKind⟩ := hbefore hget
    rw [LoadedClass.file?, hsameKind] at hfile
    rw [hsame]
    exact h.named place c file hc hfile

end ClassTable

variable {table first second : ClassTable} {name : String} {kind : ClassKind}

/-- What a new class holds is in the table. -/
theorem Defines.element_lt (h : Defines table name kind) {element : ClassId}
    (helement : kind.element? = some element) : element.index < table.classes.size := by
  -- an element was found by its name when the array was defined, so it stands in the table
  have hfound : ∃ name, table.find? name = some element := by
    cases h with
    | located _ _ => cases helement
    | handedIn _ => cases helement
    | objectArray _ htype _ =>
      obtain rfl := Option.some.inj helement
      exact ⟨_, htype⟩
    | objectArrays _ _ hdown _ =>
      obtain rfl := Option.some.inj helement
      exact ⟨_, hdown⟩
    | primitiveArray _ _ => cases helement
    | primitiveArrays _ _ hdown _ =>
      obtain rfl := Option.some.inj helement
      exact ⟨_, hdown⟩
  obtain ⟨_, hfind⟩ := hfound
  obtain ⟨_, hget, -⟩ := ClassTable.get?_of_find? hfind
  exact ClassTable.index_lt_of_get? hget

theorem Defines.thisClass_eq (h : Defines table name kind) {file : ClassFile}
    (hfile : (LoadedClass.ofKind name kind).file? = some file) : file.thisClass = name := by
  cases h with
  | located _ hname =>
    obtain rfl := Option.some.inj hfile
    exact hname
  | handedIn hname =>
    obtain rfl := Option.some.inj hfile
    exact hname
  | objectArray _ _ _ => cases hfile
  | objectArrays _ _ _ _ => cases hfile
  | primitiveArray _ _ => cases hfile
  | primitiveArrays _ _ _ _ => cases hfile

/-- Whatever is added, the table stays well-formed. -/
theorem Built.wellFormed (h : Built first second) (hfirst : first.WellFormed) :
    second.WellFormed := by
  induction h with
  | refl => exact hfirst
  | add _ hfree hkind ih =>
    exact ih.push hfree (fun _ helement => hkind.element_lt helement)
      fun _ hfile => hkind.thisClass_eq hfile

/-- The classes of before are the first ones, and they are as they were. -/
theorem Built.isPrefix (h : Built first second) :
    first.classes.toList <+: second.classes.toList := by
  induction h with
  | refl => exact List.prefix_rfl
  | add _ _ _ ih =>
    rw [ClassTable.push, Array.toList_push]
    exact ih.trans (List.prefix_append _ _)

/-- The table of a loader in use is well-formed. -/
theorem Loader.wellFormed_after (calls : List Loader.Call) : (Loader.after calls).table.WellFormed :=
  (Loader.built_after calls).wellFormed ClassTable.wellFormed_empty

theorem Loader.wellFormed_afterLoads (loads : List (Finder × String)) :
    (Loader.afterLoads loads).table.WellFormed := wellFormed_after _

end ClassHost
