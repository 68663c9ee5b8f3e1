import ClassHost.Proofs.Boot.Raising
import Mathlib.Data.Finset.Card

/-!
# Arrays of strings

The arguments of a program are handed over as an array of canonical strings. Making one goes through
the texts in order and, for each, interns it and writes the array, so a text that stands in the list
twice is found in the pool the second time, as is one that was interned long before.

`StringArrayMade` says what has to come out of that, and what has to be left alone: the array is
new, its elements are the canonical strings of the texts in order, the pool has grown by the texts
that are new to it, each counted once, and nothing that was there before has changed.

* `exists_fillStrings` — the loop cannot fail on an array with room enough, and writes no other
  object. What it leaves in the array is known from `Procedure.fillStrings_ok`.
* `exists_newStringArray` — the array is made, new and with one canonical string for each text. The
  pool plays no part in it beyond being bound.
* `string_arrays_made` — at every moment of every run, and at its end, such an array can be made of
  any texts, if only the pool is bound and the class of the array can be loaded.
-/

namespace ClassHost

variable {σ α : Type} {m m' : Machine σ} {found : Interned} {type : ClassId} {array : ObjectId}

-- ---------------------------------------------------------------------------
-- Making the array
-- ---------------------------------------------------------------------------

namespace Machine

/-- An array class has arrays. -/
theorem exists_newArray {c : LoadedClass} (hget : m.table.get? type = some c)
    (harray : c.isArray = true) (length : Nat) :
    ∃ array made value, newArray type length m = (.ok array, made) ∧ m.heap.get? array = none ∧
      made.heap.get? array = some ⟨type, .array (Array.replicate length value)⟩ ∧
      made.strings = m.strings ∧
      ∀ id object, m.heap.get? id = some object → made.heap.get? id = some object := by
  -- every kind of array has an element to start with
  obtain ⟨value, hvalue⟩ : ∃ value, Heap.initialElement? c.kind = some value := by
    unfold LoadedClass.isArray at harray
    cases hkind : c.kind with
    | instances file source =>
      rw [hkind] at harray
      exact nomatch harray
    | objectArray shape => exact ⟨_, rfl⟩
    | primitiveArray shape =>
      obtain ⟨dimension, element⟩ := shape
      cases element <;> exact ⟨_, rfl⟩
  have hmake : m.heap.newArray m.table type length =
      .ok (m.heap.alloc ⟨type, .array (Array.replicate length value)⟩) := by
    rw [Heap.newArray, hget, Option.map_some, Option.bind_some, hvalue]
  rw [newArray, allocating_apply, hmake]
  exact ⟨_, _, value, rfl,
    Heap.get?_alloc_fresh m.heap ⟨type, .array (Array.replicate length value)⟩,
    Heap.get?_alloc_self m.heap _, rfl, fun id object hold => Heap.get?_alloc_of_some hold⟩

/-- The elements of an array can be written, and nothing else is. -/
theorem exists_setElement {elements : Array Value} {index : Nat}
    (hget : m.heap.get? array = some ⟨type, .array elements⟩) (hindex : index < elements.size)
    (value : Value) :
    ∃ last, setElement array index value m = (.ok (), last) ∧
      last.heap.get? array = some ⟨type, .array (elements.setIfInBounds index value)⟩ ∧
      last.strings = m.strings ∧
      ∀ id, id ≠ array → last.heap.get? id = m.heap.get? id := by
  rw [setElement, writing_apply, Heap.setElement, hget, Option.map_some]
  dsimp only
  rw [if_pos hindex]
  refine ⟨_, rfl, ?_, rfl, fun id hne => ?_⟩
  · rw [Heap.get?_setBody, if_pos rfl, hget]
    rfl
  · rw [Heap.get?_setBody, if_neg (Ne.symm hne)]

/-- **The loop.** It goes through if the array has room, and writes no other object. -/
theorem exists_fillStrings {elements : Array Value} {index : Nat} {texts : List String}
    (hbound : m.strings.stringClass.isSome)
    (hget : m.heap.get? array = some ⟨type, .array elements⟩)
    (hroom : index + texts.length ≤ elements.size) :
    ∃ last, fillStrings array index texts m = (.ok (), last) ∧
      ∀ id object, id ≠ array → m.heap.get? id = some object →
        last.heap.get? id = some object := by
  -- the pool stays bound and the array keeps its size, so no element fails
  induction texts generalizing m elements index with
  | nil => exact ⟨m, rfl, fun id object _ hold => hold⟩
  | cons text texts ih =>
    rw [List.length_cons] at hroom
    obtain ⟨string, middle, hintern⟩ := exists_intern hbound text
    have hmiddle : middle.strings.stringClass.isSome := by
      have hstill := bound_access (.intern text) hbound
      change (intern text m).2.strings.stringClass.isSome at hstill
      rwa [hintern] at hstill
    have hindex : index < elements.size := by omega
    obtain ⟨written, hwrite, helements, hstrings, hothers⟩ :=
      exists_setElement (Procedure.get?_of_intern hintern hget) hindex (.object string)
    have hroom' : index + 1 + texts.length ≤
        (elements.setIfInBounds index (.object string)).size := by
      rw [Array.size_setIfInBounds]
      omega
    obtain ⟨last, hfill, hkeeps⟩ := ih (hstrings ▸ hmiddle) helements hroom'
    refine ⟨last, ?_, fun id object hne hold => ?_⟩
    · rw [fillStrings, Effect.bind_of_ok hintern, Effect.bind_of_ok hwrite]
      exact hfill
    · have hmiddleObject := Procedure.get?_of_intern hintern hold
      exact hkeeps id object hne (by rw [hothers id hne, hmiddleObject])

/-- Loading adds classes, and nothing else happens. -/
theorem frame_of_load {name : String} {result : Except Throwable (Option ClassId)}
    (h : load name m = (result, m')) :
    (∃ loader, m' = { m with loader }) ∧
      ∀ id c, m.table.get? id = some c → m'.table.get? id = some c := by
  obtain ⟨-, rfl⟩ := Prod.mk.inj h
  have hbuilt := (Loader.spec_load m.classPath name m.loader _ _ rfl).grows.built
  exact ⟨⟨_, rfl⟩, fun id c hget => hbuilt.get?_of_some hget⟩

theorem OnlyObjects.table_eq (h : OnlyObjects m m') : m'.table = m.table := by
  obtain ⟨heap, strings, rfl⟩ := h
  rfl

/-- Values that are objects, as a list of the objects. -/
theorem exists_strings {texts : List String} {values : List Value}
    (h : List.Forall₂ (fun text value => ∃ string, value = .object string ∧ m.Canonical string text)
      texts values) :
    ∃ strings : List ObjectId, values = strings.map Value.object ∧
      strings.length = texts.length ∧ ∀ pair ∈ texts.zip strings, m.Canonical pair.2 pair.1 := by
  induction h with
  | nil => exact ⟨[], rfl, rfl, nofun⟩
  | @cons text value texts values hfirst _ ih =>
    obtain ⟨string, rfl, hcanonical⟩ := hfirst
    obtain ⟨strings, rfl, hlength, hall⟩ := ih
    refine ⟨string :: strings, rfl, congrArg (· + 1) hlength, ?_⟩
    rw [List.zip_cons_cons]
    exact List.forall_mem_cons.mpr ⟨hcanonical, hall⟩

/-- **The array.** If its class can be loaded as an array class, an array of strings is made: it is
new, and nothing else is written. -/
theorem exists_newStringArray {loaded : Machine σ} {c : LoadedClass}
    (hbound : m.strings.stringClass.isSome)
    (hload : load CoreName.stringArray m = (.ok (some type), loaded))
    (hclass : loaded.table.get? type = some c) (harray : c.isArray = true) (texts : List String) :
    ∃ m' array strings, newStringArray texts m = (.ok array, m') ∧ m.heap.get? array = none ∧
      m'.heap.get? array = some ⟨type, .array (strings.map Value.object).toArray⟩ ∧
      strings.length = texts.length ∧
      (∀ pair ∈ texts.zip strings, m'.Canonical pair.2 pair.1) ∧
      ∀ id object, m.heap.get? id = some object → m'.heap.get? id = some object := by
  obtain ⟨⟨loader, rfl⟩, -⟩ := frame_of_load hload
  obtain ⟨array, made, value, hnew, hfresh, helements, hmade, hobjects⟩ :=
    exists_newArray hclass harray texts.length
  have hmadeBound : made.strings.stringClass.isSome := by rwa [hmade]
  have hroom : 0 + texts.length ≤ (Array.replicate texts.length value).size := by simp
  obtain ⟨m', hfill, hkeeps⟩ := exists_fillStrings hmadeBound helements hroom
  have happly : newStringArray texts m = (.ok array, m') := by
    unfold newStringArray
    rw [Effect.bind_of_ok hload]
    dsimp only
    rw [Effect.bind_of_ok hnew, Effect.bind_of_ok hfill]
    rfl
  -- what the loop has written, as a list of objects
  obtain ⟨elements, values, hget, hvalues, hcanonical⟩ :=
    Procedure.fillStrings_ok helements (List.nil_append _).symm (by simp) hfill
  obtain ⟨strings, rfl, hlength, hall⟩ := exists_strings hcanonical
  obtain rfl : elements = (strings.map Value.object).toArray := by
    rw [← elements.toArray_toList, hvalues, List.nil_append]
  refine ⟨m', array, strings, happly, hfresh, hget, hlength, hall, fun id object hold => ?_⟩
  -- the array is new, so no older object is written to
  have hne : id ≠ array := by
    rintro rfl
    exact nomatch hold.symm.trans hfresh
  exact hkeeps id object hne (hobjects id object hold)

end Machine

-- ---------------------------------------------------------------------------
-- Canonical strings once more
-- ---------------------------------------------------------------------------

namespace PoolHolds

variable {text text' : String} {string string' : ObjectId}

/-- What has been interned is what the pool has. -/
theorem canonical_iff_mem (h : PoolHolds found m) :
    m.Canonical string text ↔ (text, string) ∈ found := by
  constructor
  · intro hcanonical
    obtain ⟨other, hunits, hmem⟩ := h.found (mem_of_lookup hcanonical)
    rwa [← Text.units_injective hunits]
  · exact fun hmem => h.lookup hmem

theorem same_iff_of_canonical (h : PoolHolds found m) (hstring : m.Canonical string text)
    (hstring' : m.Canonical string' text') : string = string' ↔ text = text' :=
  h.same_iff (h.canonical_iff_mem.mp hstring) (h.canonical_iff_mem.mp hstring')

/-- Interning a canonical string's text finds it and does nothing. -/
theorem intern_of_canonical (h : PoolHolds found m) (hstring : m.Canonical string text) :
    Machine.intern text m = (.ok string, m) := by
  obtain ⟨stringType, hbound, -⟩ := h.object (mem_of_lookup hstring)
  exact Machine.intern_of_canonical hstring (Option.isSome_iff_exists.mpr ⟨stringType, hbound⟩)

end PoolHolds

/-- Texts that are added to others count once each, unless they are there already. -/
theorem length_dedup_append (before texts : List String) :
    (before ++ texts).dedup.length =
      before.dedup.length + (texts.dedup.filter fun text => text ∉ before).length := by
  have hnew : (texts.toFinset \ before.toFinset).card =
      (texts.dedup.filter fun text => text ∉ before).length := by
    have hnodup := (List.nodup_dedup texts).filter fun text => decide (text ∉ before)
    rw [← List.toFinset_card_of_nodup hnodup]
    congr 1
    ext text
    simp
  have hunion := Finset.card_sdiff_add_card texts.toFinset before.toFinset
  rw [← List.card_toFinset, ← List.card_toFinset, List.toFinset_append, ← hnew, Finset.union_comm]
  omega

-- ---------------------------------------------------------------------------
-- The promise
-- ---------------------------------------------------------------------------

/-- What making an array of the strings of some texts is to do on a machine on which those in
`found` have been interned: `array` is the array and `strings` are its elements. -/
structure StringArrayMade (found : Interned) (m m' : Machine σ) (type : ClassId)
    (texts : List String) (array : ObjectId) (strings : List ObjectId) : Prop where
  made : Machine.newStringArray texts m = (.ok array, m')
  fresh : m.heap.get? array = none
  /-- The array has an element for each text. -/
  array : m'.heap.get? array = some ⟨type, .array (strings.map Value.object).toArray⟩
  length : strings.length = texts.length
  /-- The element for a text is a string object of its units. -/
  object : ∀ pair ∈ texts.zip strings, ∃ stringType, m'.strings.stringClass = some stringType ∧
    m'.heap.get? pair.2 = some ⟨stringType,
      .string (Text.units pair.1) (Text.hash (Text.units pair.1))⟩
  /-- Elements are the same exactly if their texts are. -/
  same_iff : ∀ pair ∈ texts.zip strings, ∀ pair' ∈ texts.zip strings,
    pair.2 = pair'.2 ↔ pair.1 = pair'.1
  /-- Interning the text gives the element, both when it was done before and when it is done now. -/
  before : ∀ pair ∈ texts.zip strings, ∀ string, (pair.1, string) ∈ found → string = pair.2
  after : ∀ pair ∈ texts.zip strings, Machine.intern pair.1 m' = (.ok pair.2, m')
  /-- The pool grows by the texts that were never interned before, each counted once. -/
  size : m'.strings.size = m.strings.size +
    (texts.dedup.filter fun text => text ∉ found.map Prod.fst).length
  /-- What was interned before still is. -/
  interned : ∀ text string, (text, string) ∈ found → Machine.intern text m' = (.ok string, m')
  /-- Objects and classes stand as they stood, with all their elements and fields. -/
  objects : ∀ id object, m.heap.get? id = some object → m'.heap.get? id = some object
  classes : ∀ id c, m.table.get? id = some c → m'.table.get? id = some c
  /-- Classes may have been loaded; all else is as it was. -/
  rest : ∃ loader heap strings, m' = { m with loader, heap, strings }

/-- Arrays of strings can be made of all texts, if the pool is bound and the class of the array can
be loaded as an array class. -/
def MakesStringArrays (found : Interned) (m : Machine σ) : Prop :=
  m.strings.stringClass ≠ none → ∀ type loaded c,
    Machine.load CoreName.stringArray m = (.ok (some type), loaded) →
    loaded.table.get? type = some c → c.isArray = true →
    ∀ texts, ∃ m' array strings, StringArrayMade found m m' type texts array strings

/-- **Arrays of strings.** What has been interned says what the canonical strings are. -/
theorem PoolHolds.makesStringArrays (h : PoolHolds found m) : MakesStringArrays found m := by
  intro hbound type loaded c hload hclass harray texts
  obtain ⟨m', array, strings, happly, hfresh, hget, hlength, hcanonical, hobjects⟩ :=
    Machine.exists_newStringArray (Option.isSome_iff_ne_none.mpr hbound) hload hclass harray texts
  obtain ⟨⟨loader, hloaded⟩, hclasses⟩ := Machine.frame_of_load hload
  have hrest := Machine.newStringArray_apply texts m
  rw [happly, hload] at hrest
  -- what the pool holds in the end
  have hpool := h.newStringArray texts
  rw [happly] at hpool
  have hsize : m'.strings.size = m.strings.size +
      (texts.dedup.filter fun text => text ∉ found.map Prod.fst).length := by
    have htexts := Machine.texts_of_newStringArray happly
    rw [hpool.size, h.size, List.map_append, htexts, length_dedup_append]
  -- the strings interned before are still the ones of their texts
  have hearlier : ∀ text string, (text, string) ∈ found → m'.Canonical string text := by
    intro text string hmem
    exact hpool.canonical_iff_mem.mpr (List.mem_append_left _ hmem)
  refine ⟨m', array, strings, ?_⟩
  exact {
    made := happly
    fresh := hfresh
    array := hget
    length := hlength
    object := fun pair hpair => hpool.object (mem_of_lookup (hcanonical pair hpair))
    same_iff := fun pair hpair pair' hpair' =>
      hpool.same_iff_of_canonical (hcanonical pair hpair) (hcanonical pair' hpair')
    before := fun pair hpair string hmem =>
      (hpool.same_iff_of_canonical (hearlier _ _ hmem) (hcanonical pair hpair)).mpr rfl
    after := fun pair hpair => hpool.intern_of_canonical (hcanonical pair hpair)
    size := hsize
    interned := fun text string hmem => hpool.intern_of_canonical (hearlier text string hmem)
    objects := hobjects
    classes := fun id c hold => by
      rw [hrest.table_eq]
      exact hclasses id c hold
    rest := by
      obtain ⟨heap, pool, rfl⟩ := hrest
      exact ⟨loader, heap, pool, by rw [hloaded]⟩ }

/-- **Arrays of strings hold the canonical strings.** Let a guest do whatever it likes on a new
machine, with whatever class path and engine. At every moment of the run and when it is over, if the
pool of strings is bound and the class of string arrays can be loaded as an array class, an array of
strings can be made of all texts: it has the canonical strings of the texts in their order, the pool
has grown by the texts that the run had not interned until then, and everything that was there
before is as it was. -/
theorem string_arrays_made (engine : Engine σ) (fuel : Nat) (guest : Guest σ α)
    (classPath : Finder) (delegateClass : Option String) (memory : σ) :
    (∀ before now after,
      Machine.moments engine fuel guest (.new classPath delegateClass memory) =
        before ++ now :: after → MakesStringArrays (internedAt before) now.machine) ∧
    MakesStringArrays
      (internedAt (Machine.moments engine fuel guest (.new classPath delegateClass memory)))
      (Machine.run engine fuel guest (.new classPath delegateClass memory)).2 := by
  have hnew : PoolHolds (internedAt ([] : List (Moment σ)))
      (.new classPath delegateClass memory) := .new ..
  have hall := Machine.throughout_moments invariant_poolHolds engine fuel guest hnew
  exact ⟨fun before now after hsplit => (hall.moment before now after hsplit).makesStringArrays,
    hall.last.makesStringArrays⟩

/-- Binds the pool to the class of strings and interns a text. -/
def bindingGuest : Guest Unit Unit :=
  .ask (.access (.load CoreName.string)) fun _ => .ask (.access (.bindStrings ⟨0⟩)) fun _ =>
    .ask (.access (.intern "b")) fun _ => .done ()

def bindingRun : Except Halt Unit × Machine Unit :=
  Machine.run inertEngine 1 bindingGuest (.new coreFinder none ())

/-- An array of four texts, two of which are the same and one of which was interned before, makes
two strings. -/
theorem bindingRun_array :
    ∃ m' array first third, StringArrayMade [("b", ⟨0⟩)] bindingRun.2 m' ⟨1⟩
        ["a", "b", "a", "c"] array [first, ⟨0⟩, first, third] ∧
      first ≠ third ∧ bindingRun.2.strings.size = 1 ∧ m'.strings.size = 3 := by
  obtain ⟨-, hlast⟩ := string_arrays_made inertEngine 1 bindingGuest coreFinder none ()
  have hfound : internedAt (Machine.moments inertEngine 1 bindingGuest (.new coreFinder none ())) =
      [("b", ⟨0⟩)] := by decide +kernel
  rw [hfound, ← bindingRun] at hlast
  have hbound : bindingRun.2.strings.stringClass ≠ none := by decide +kernel
  have hsize : bindingRun.2.strings.size = 1 := by decide +kernel
  have hload : (Machine.load CoreName.stringArray bindingRun.2).1 = .ok (some ⟨1⟩) := by
    decide +kernel
  have hclass : ((Machine.load CoreName.stringArray bindingRun.2).2.table.get? ⟨1⟩).map
      LoadedClass.isArray = some true := by decide +kernel
  obtain ⟨c, hget, harray⟩ := Option.map_eq_some_iff.mp hclass
  obtain ⟨m', array, strings, h⟩ :=
    hlast hbound ⟨1⟩ _ c (Prod.ext hload rfl) hget harray ["a", "b", "a", "c"]
  -- the four elements, and which of them are the same
  obtain ⟨first, second, again, third, rfl⟩ :
      ∃ first second again third, strings = [first, second, again, third] :=
    match strings, h.length with
    | [first, second, again, third], _ => ⟨first, second, again, third, rfl⟩
  have hsecond : (⟨0⟩ : ObjectId) = second := h.before ("b", second) (by simp) ⟨0⟩ (by simp)
  have hagain : first = again :=
    (h.same_iff ("a", first) (by simp) ("a", again) (by simp)).mpr rfl
  have hthird : first ≠ third := by
    intro hsame
    have htexts : "a" = "c" := (h.same_iff ("a", first) (by simp) ("c", third) (by simp)).mp hsame
    exact absurd htexts (by decide)
  subst hsecond hagain
  refine ⟨m', array, first, third, h, hthird, hsize, ?_⟩
  rw [h.size, hsize]
  decide

end ClassHost
