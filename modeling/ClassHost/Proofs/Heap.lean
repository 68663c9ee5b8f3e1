import ClassHost.Object.StringPool

/-!
# Places in the heap, and canonical strings

What a heap shows after an object has been added (`get?_alloc`) or written to (`get?_setBody`), and
what the operations that may fail have done if they did not (`newInstance_ok` and so on). A string
that has been interned is found under its units from then on (`StringPool.lookup_of_intern`).
-/

namespace ClassHost

@[simp] theorem lookup_storeField (fields : List (FieldKey × Value)) (key : FieldKey)
    (value : Value) : (storeField fields key value).lookup key = some value := by
  simp [storeField]

theorem lookup_storeField_of_ne {fields : List (FieldKey × Value)} {key other : FieldKey}
    (h : other ≠ key) (value : Value) :
    (storeField fields key value).lookup other = fields.lookup other := by
  have hfilter : ∀ fields : List (FieldKey × Value),
      (fields.filter fun field => field.1 ≠ key).lookup other = fields.lookup other := by
    intro fields
    induction fields with
    | nil => rfl
    | cons field fields ih =>
      by_cases hkey : field.1 = key
      · have hother : (other == field.1) = false := by simpa [hkey] using h
        rw [List.filter_cons_of_neg (by simpa using hkey), ih, List.lookup_cons, hother]
      · rw [List.filter_cons_of_pos (by simpa using hkey), List.lookup_cons, List.lookup_cons, ih]
  have hother : (other == key) = false := by simpa using h
  rw [storeField, List.lookup_cons, hother]
  exact hfilter fields

namespace Heap

variable {heap heap' : Heap} {table : ClassTable} {id : ObjectId} {object : Object}

-- ---------------------------------------------------------------------------
-- Adding and writing
-- ---------------------------------------------------------------------------

theorem index_lt_of_get? (h : heap.get? id = some object) : id.index < heap.objects.size :=
  (Array.getElem?_eq_some_iff.mp h).1

theorem get?_alloc (heap : Heap) (object : Object) (id : ObjectId) :
    (heap.alloc object).2.get? id =
      if id.index = heap.objects.size then some object else heap.get? id :=
  Array.getElem?_push

theorem get?_alloc_of_some {new : Object} (h : heap.get? id = some object) :
    (heap.alloc new).2.get? id = some object := by
  rw [get?_alloc, if_neg (Nat.ne_of_lt (index_lt_of_get? h)), h]

/-- A new object is where the allocation says. -/
@[simp] theorem get?_alloc_self (heap : Heap) (object : Object) :
    (heap.alloc object).2.get? (heap.alloc object).1 = some object := by
  rw [get?_alloc]
  exact if_pos rfl

/-- Nothing was there before. -/
@[simp] theorem get?_alloc_fresh (heap : Heap) (object : Object) :
    heap.get? (heap.alloc object).1 = none :=
  Array.getElem?_eq_none (Nat.le_refl _)

theorem get?_setBody (heap : Heap) (id other : ObjectId) (body : ObjectBody) :
    (heap.setBody id body).get? other =
      if id = other then (heap.get? other).map fun object => { object with body }
      else heap.get? other := by
  have hindex : id.index = other.index ↔ id = other := by
    cases id
    cases other
    simp
  simp only [get?, setBody, Array.getElem?_modify, hindex]

-- ---------------------------------------------------------------------------
-- Operations that did not fail
-- ---------------------------------------------------------------------------

theorem newInstance_ok {type : ClassId} (h : heap.newInstance table type = .ok (id, heap')) :
    (id, heap') = heap.alloc ⟨type, .plain []⟩ := by
  unfold newInstance at h
  split at h
  · exact nomatch h
  · exact (Except.ok.inj h).symm

theorem newArray_ok {type : ClassId} {length : Nat}
    (h : heap.newArray table type length = .ok (id, heap')) :
    ∃ value, (id, heap') = heap.alloc ⟨type, .array (Array.replicate length value)⟩ := by
  unfold newArray at h
  split at h
  · rename_i value _
    exact ⟨value, (Except.ok.inj h).symm⟩
  · exact nomatch h

theorem setField_ok {key : FieldKey} {value : Value}
    (h : heap.setField table id key value = .ok heap') :
    ∃ fields, (heap.get? id).map Object.body = some (.plain fields) ∧
      heap' = heap.setBody id (.plain (storeField fields key value)) := by
  unfold setField at h
  split at h
  · rename_i fields hbody
    exact ⟨fields, hbody, (Except.ok.inj h).symm⟩
  · exact nomatch h

theorem setElement_ok {index : Nat} {value : Value}
    (h : heap.setElement table id index value = .ok heap') :
    ∃ elements, (heap.get? id).map Object.body = some (.array elements) ∧ index < elements.size ∧
      heap' = heap.setBody id (.array (elements.setIfInBounds index value)) := by
  unfold setElement at h
  split at h
  · rename_i elements hbody
    split at h
    · rename_i hlt
      exact ⟨elements, hbody, hlt, (Except.ok.inj h).symm⟩
    · exact nomatch h
  · exact nomatch h

end Heap

namespace StringPool

variable {pool pool' : StringPool} {heap heap' : Heap} {text : String} {id : ObjectId}

/-- A string that was interned was there before, or is new. -/
theorem intern_ok (h : pool.intern heap text = .ok (id, pool', heap')) :
    (pool.strings.lookup (Text.units text) = some id ∧ pool' = pool ∧ heap' = heap) ∨
    (pool.strings.lookup (Text.units text) = none ∧
      ∃ type, (id, heap') = heap.newString type (Text.units text) ∧
        pool' = { pool with strings := (Text.units text, id) :: pool.strings }) := by
  unfold intern at h
  split at h
  · exact nomatch h
  · rename_i type _
    dsimp only at h
    split at h
    · rename_i found hfound
      cases h
      exact .inl ⟨hfound, rfl, rfl⟩
    · rename_i hnone
      cases h
      exact .inr ⟨hnone, type, rfl, rfl⟩

theorem lookup_of_intern (h : pool.intern heap text = .ok (id, pool', heap')) :
    pool'.strings.lookup (Text.units text) = some id := by
  rcases intern_ok h with ⟨hfound, rfl, -⟩ | ⟨-, type, -, rfl⟩
  · exact hfound
  · simp

end StringPool

end ClassHost
