import ClassHost.ClassTable

/-!
# Places and names in the class table

What `get?`, `find?` and `nameOf` see after a class has been added (`define`) or changed
(`modify`, and `setState`, `tag` and `setStatic`, which are cases of it). A change keeps every
name, so `find?` does not notice it (`find?_modify`); a new class is found under its name and hides
no other (`find?_push_of_none`, `find?_push_of_some`).
-/

namespace ClassHost.ClassTable

variable {table : ClassTable} {id other : ClassId} {c : LoadedClass} {name : String}

-- ---------------------------------------------------------------------------
-- Finding names
-- ---------------------------------------------------------------------------

@[simp] theorem get?_empty (id : ClassId) : empty.get? id = none := by
  simp [get?, empty]

theorem index_lt_of_get? (h : table.get? id = some c) : id.index < table.classes.size :=
  (Array.getElem?_eq_some_iff.mp h).1

/-- A place at which a name is found holds a class of that name. -/
theorem get?_of_find? (h : table.find? name = some id) :
    ∃ c, table.get? id = some c ∧ c.name = name := by
  obtain ⟨index, hindex, rfl⟩ := Option.map_eq_some_iff.mp h
  obtain ⟨hlt, hname, -⟩ := Array.findIdx?_eq_some_iff_getElem.mp hindex
  exact ⟨table.classes[index], Array.getElem?_eq_getElem hlt, of_decide_eq_true hname⟩

theorem nameOf_of_get? (h : table.get? id = some c) : table.nameOf id = c.name := by
  simp [nameOf, h]

theorem stateOf_of_get? (h : table.get? id = some c) : table.stateOf id = c.state := by
  simp [stateOf, h]

theorem nameOf_of_find? (h : table.find? name = some id) : table.nameOf id = name := by
  obtain ⟨c, hget, rfl⟩ := get?_of_find? h
  exact nameOf_of_get? hget

-- ---------------------------------------------------------------------------
-- Adding a class
-- ---------------------------------------------------------------------------

theorem define_of_none {kind : ClassKind} (h : table.find? name = none) :
    table.define name kind =
      (⟨table.classes.size⟩, ⟨table.classes.push (.ofKind name kind)⟩) := by
  simp [define, h]

/-- A table with one more class at the end. -/
def push (table : ClassTable) (c : LoadedClass) : ClassTable := ⟨table.classes.push c⟩

theorem get?_push (table : ClassTable) (c : LoadedClass) (id : ClassId) :
    (table.push c).get? id = if id.index = table.classes.size then some c else table.get? id :=
  Array.getElem?_push

theorem get?_push_of_some {new : LoadedClass} (h : table.get? id = some c) :
    (table.push new).get? id = some c := by
  rw [get?_push, if_neg (Nat.ne_of_lt (index_lt_of_get? h)), h]

/-- What holds of the class at a place, if there is one, and of the one that is added holds of the
class that is at the place then. -/
theorem of_get?_push {P : LoadedClass → Prop} {new : LoadedClass}
    (hold : ∀ c, table.get? id = some c → P c) (hnew : P new)
    (hget : (table.push new).get? id = some c) : P c := by
  rw [get?_push] at hget
  split at hget
  · obtain rfl := Option.some.inj hget
    exact hnew
  · exact hold c hget

theorem find?_push_of_some {new : LoadedClass} (h : table.find? name = some id) :
    (table.push new).find? name = some id := by
  obtain ⟨index, hindex, rfl⟩ := Option.map_eq_some_iff.mp h
  simp [find?, push, Array.findIdx?_push, hindex]

theorem find?_push_of_none {new : LoadedClass} (h : table.find? name = none) :
    (table.push new).find? name = if new.name = name then some ⟨table.classes.size⟩ else none := by
  have hnone : table.classes.findIdx? (fun c => decide (c.name = name)) = none :=
    Option.map_eq_none_iff.mp h
  by_cases hname : new.name = name
  · simp [find?, push, Array.findIdx?_push, hnone, hname]
  · simp [find?, push, Array.findIdx?_push, hnone, hname]

-- ---------------------------------------------------------------------------
-- Changing a class
-- ---------------------------------------------------------------------------

theorem get?_modify (table : ClassTable) (id other : ClassId) (change : LoadedClass → LoadedClass) :
    (table.modify id change).get? other =
      if id = other then (table.get? other).map change else table.get? other := by
  have hindex : id.index = other.index ↔ id = other := by
    cases id
    cases other
    simp
  simp only [get?, modify, Array.getElem?_modify, hindex]

/-- A change that keeps the name of the class is not noticed by a search for names. -/
theorem find?_modify {change : LoadedClass → LoadedClass} (hname : ∀ c, (change c).name = c.name) :
    (table.modify id change).find? name = table.find? name := by
  rw [find?, find?]
  congr 1
  apply Option.ext
  intro index
  -- both sides look for the first class of the name, and the change leaves every name
  rw [Array.findIdx?_eq_some_iff_getElem, Array.findIdx?_eq_some_iff_getElem]
  simp only [modify, Array.size_modify, Array.getElem_modify]
  constructor
  · rintro ⟨hlt, hhit, hmiss⟩
    refine ⟨hlt, ?_, fun j hj => ?_⟩
    · split at hhit
      · rwa [hname] at hhit
      · exact hhit
    · have hj' := hmiss j hj
      split at hj'
      · rwa [hname] at hj'
      · exact hj'
  · rintro ⟨hlt, hhit, hmiss⟩
    refine ⟨hlt, ?_, fun j hj => ?_⟩
    · split
      · rwa [hname]
      · exact hhit
    · split
      · rw [hname]
        exact hmiss j hj
      · exact hmiss j hj

@[simp] theorem find?_tag (table : ClassTable) (id : ClassId) (role : ClassRole) (name : String) :
    (table.tag id role).2.find? name = table.find? name := by
  unfold tag
  split
  · exact find?_modify fun _ => rfl
  · rfl

/-- The first role is given. -/
theorem get?_tag_self {role : ClassRole} (h : table.get? id = some c) (hrole : c.role = none) :
    (table.tag id role).2.get? id = some { c with role := some role } := by
  have htag : table.tag id role =
      (true, table.modify id fun c => { c with role := some role }) := by
    rw [tag, h, Option.map_some, hrole]
  rw [htag, get?_modify, if_pos rfl, h]
  rfl

@[simp] theorem find?_setStatic (table : ClassTable) (id : ClassId) (key : FieldKey)
    (value : Value) (name : String) :
    (table.setStatic id key value).find? name = table.find? name :=
  find?_modify fun _ => rfl

theorem get?_setStatic_self {key : FieldKey} {value : Value} (h : table.get? id = some c) :
    (table.setStatic id key value).get? id =
      some { c with statics := storeField c.statics key value } := by
  rw [setStatic, get?_modify, if_pos rfl, h]
  rfl

-- ---------------------------------------------------------------------------
-- Methods
-- ---------------------------------------------------------------------------

/-- A method that is found is one of the class, with the key it was looked up by. -/
theorem eq_of_method? {kind : MethodKind} {key : MethodKey} {method : MethodRef}
    (h : table.method? kind id key = some method) : method.declaring = id ∧ method.key = key := by
  simp only [method?, Option.bind_eq_bind, Option.bind_eq_some_iff] at h
  obtain ⟨c, -, flags, -, h⟩ := h
  split at h
  · obtain rfl := Option.some.inj h
    exact ⟨rfl, rfl⟩
  · exact nomatch h

/-- A class that stays of its kind keeps its methods. -/
theorem method?_of_kind {table' : ClassTable} {kind : MethodKind} {key : MethodKey}
    {method : MethodRef}
    (hkeeps : ∀ c, table.get? id = some c → ∃ c', table'.get? id = some c' ∧ c'.kind = c.kind)
    (h : table.method? kind id key = some method) : table'.method? kind id key = some method := by
  simp only [method?, Option.bind_eq_bind, Option.bind_eq_some_iff] at h ⊢
  obtain ⟨c, hget, flags, hflags, haccepts⟩ := h
  obtain ⟨c', hget', hkind⟩ := hkeeps c hget
  refine ⟨c', hget', flags, ?_, haccepts⟩
  rw [LoadedClass.methodFlags?, LoadedClass.file?, hkind]
  exact hflags

-- ---------------------------------------------------------------------------
-- States
-- ---------------------------------------------------------------------------

theorem exists_get?_of_stateOf (h : table.stateOf id ≠ .notLoaded) :
    ∃ c, table.get? id = some c := by
  cases hget : table.get? id with
  | none => simp [stateOf, hget] at h
  | some c => exact ⟨c, rfl⟩

theorem get?_setState_self {state : ClassState} (h : table.get? id = some c) :
    (table.setState id state).get? id = some { c with state } := by
  rw [setState, get?_modify, if_pos rfl, h]
  rfl

theorem get?_setState_of_ne {state : ClassState} (h : id ≠ other) :
    (table.setState id state).get? other = table.get? other := by
  rw [setState, get?_modify, if_neg h]

@[simp] theorem find?_setState (table : ClassTable) (id : ClassId) (state : ClassState)
    (name : String) : (table.setState id state).find? name = table.find? name :=
  find?_modify fun _ => rfl

theorem stateOf_setState_self {state : ClassState} (h : table.get? id = some c) :
    (table.setState id state).stateOf id = state := by
  rw [stateOf_of_get? (get?_setState_self h)]

theorem stateOf_setState_of_ne {state : ClassState} (h : id ≠ other) :
    (table.setState id state).stateOf other = table.stateOf other := by
  rw [stateOf, get?_setState_of_ne h, stateOf]

theorem transition_of_eq {source target : ClassState} (h : table.stateOf id = source) :
    table.transition id source target = (true, table.setState id target) :=
  if_pos h

end ClassHost.ClassTable
