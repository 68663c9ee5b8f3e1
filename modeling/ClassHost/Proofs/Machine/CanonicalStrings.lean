import ClassHost.Proofs.Machine.Access
import ClassHost.Proofs.Machine.Moments
import ClassHost.Proofs.Text.Units
import Mathlib.Data.List.Dedup

/-!
# Canonical strings

Equal texts are the same string object, different texts are different ones, and what a string object
says never changes. `strings_canonical` states this for every run on a new machine, at every moment.

What a run has interned is computed from its moments (`internedAt`). Most accesses intern nothing;
those that do are `intern` itself, `newStringArray`, which interns one text after the other until
something fails, and `raise`, which interns the message. Everything the machine and the engine do
comes down to such accesses.

The invariant is `PoolHolds`. The pool has one entry for each text that was interned; the entry's
object is a string with these units, their hash and the class that the pool is bound to. It is kept
by whatever leaves the entries and the string objects as they are (`KeepsStrings`), which is
everything but interning: a write to a string object fails. From the invariant it also follows that
a pool sorted into buckets by hash, and searched by units, would give the same answers
(`PoolHolds.searchBucket`).
-/

namespace ClassHost

variable {σ α β : Type} {m m' m'' : Machine σ}

/-- Texts that were interned, in order, with the string objects that were found or made for them. -/
abbrev Interned := List (String × ObjectId)

-- ---------------------------------------------------------------------------
-- What accesses intern
-- ---------------------------------------------------------------------------

namespace Machine

/-- What a change interns and then, unless it has failed, what follows it interns. -/
def inTurn (x : Change σ Throwable α) (first : Machine σ → Interned)
    (next : α → Machine σ → Interned) (m : Machine σ) : Interned :=
  first m ++
    match x m with
    | (.ok a, m') => next a m'
    | (.error _, _) => []

def internedBy (text : String) (m : Machine σ) : Interned :=
  match intern text m with
  | (.ok id, _) => [(text, id)]
  | (.error _, _) => []

def internedByFill (array : ObjectId) : Nat → List String → Machine σ → Interned
  | _, [] => fun _ => []
  | index, text :: texts =>
    inTurn (intern text) (internedBy text) fun string =>
      inTurn (setElement array index (.object string)) (fun _ => []) fun _ =>
        internedByFill array (index + 1) texts

def internedByArray (texts : List String) : Machine σ → Interned :=
  inTurn (load CoreName.stringArray) (fun _ => []) fun found =>
    match found with
    | none => fun _ => []
    | some type => inTurn (newArray type texts.length) (fun _ => []) fun array =>
        internedByFill array 0 texts

def internedByRaise (error : RaisedError) (m : Machine σ) : Interned :=
  match m.wellKnown.bind fun known => known.exception? m.table error.className with
  | none => []
  | some type => inTurn (newInstance type) (fun _ => []) (fun _ => internedBy error.message) m

end Machine

/-- What an access interns on a machine. -/
def Access.interned (m : Machine σ) : Access σ → Interned
  | .intern text => Machine.internedBy text m
  | .newStringArray texts => Machine.internedByArray texts m
  | .raise error => Machine.internedByRaise error m
  | _ => []

/-- What was interned at some moments. -/
def internedAt (moments : List (Moment σ)) : Interned :=
  moments.flatMap fun now => now.access.interned now.machine

namespace Machine

theorem inTurn_of_ok {x : Change σ Throwable α} {first : Machine σ → Interned}
    {next : α → Machine σ → Interned} {a : α} (h : x m = (.ok a, m')) :
    inTurn x first next m = first m ++ next a m' := by
  rw [inTurn, h]

theorem texts_of_fillStrings {array : ObjectId} {index : Nat} {texts : List String}
    (h : fillStrings array index texts m = (.ok (), m')) :
    (internedByFill array index texts m).map Prod.fst = texts := by
  induction texts generalizing index m with
  | nil => rfl
  | cons text texts ih =>
    rcases Effect.bind_cases h with ⟨string, made, hintern, h⟩ | ⟨_, hr, -⟩
    · rcases Effect.bind_cases h with ⟨_, written, hwrite, h⟩ | ⟨_, hr, -⟩
      · rw [internedByFill, inTurn_of_ok hintern, inTurn_of_ok hwrite, internedBy, hintern]
        simp [ih h]
      · exact nomatch hr
    · exact nomatch hr

/-- An array of strings that was made has interned its texts, in order. -/
theorem texts_of_newStringArray {texts : List String} {array : ObjectId}
    (h : newStringArray texts m = (.ok array, m')) :
    (internedByArray texts m).map Prod.fst = texts := by
  rcases Effect.bind_cases h with ⟨_ | type, loaded, hload, h⟩ | ⟨_, hr, -⟩
  · exact nomatch h
  · rcases Effect.bind_cases h with ⟨made, allocated, hnew, h⟩ | ⟨_, hr, -⟩
    · rcases Effect.bind_cases h with ⟨_, filled, hfill, h⟩ | ⟨_, hr, -⟩
      · rw [internedByArray, inTurn_of_ok hload, List.nil_append]
        dsimp only
        rw [inTurn_of_ok hnew, List.nil_append]
        exact texts_of_fillStrings hfill
      · exact nomatch hr
    · exact nomatch hr
  · exact nomatch hr

/-- An exception that was made has interned its message. -/
theorem texts_of_raise {error : RaisedError} {exception : RuntimeException}
    (h : raise error m = (.ok exception, m')) :
    (internedByRaise error m).map Prod.fst = [error.message] := by
  unfold raise at h
  rw [Effect.get_bind] at h
  unfold internedByRaise
  cases hknown : m.wellKnown with
  | none =>
    rw [hknown] at h
    exact nomatch h
  | some known =>
    rw [hknown] at h
    dsimp only [Option.bind_some] at h ⊢
    cases htype : known.exception? m.table error.className with
    | none =>
      rw [htype] at h
      exact nomatch h
    | some type =>
      rw [htype] at h
      -- the message is interned for an object that is there, and that is all that is interned
      rcases Effect.bind_cases h with ⟨object, made, hnew, h⟩ | ⟨_, hr, -⟩
      · rcases Effect.bind_cases h with ⟨string, written, hintern, h⟩ | ⟨_, hr, -⟩
        · dsimp only
          rw [inTurn_of_ok hnew, List.nil_append, internedBy, hintern]
          rfl
        · exact nomatch hr
      · exact nomatch hr

end Machine

-- ---------------------------------------------------------------------------
-- What leaves strings alone
-- ---------------------------------------------------------------------------

/-- The entries of the pool, its class if it has one, and the string objects are the same. -/
structure KeepsStrings (m m' : Machine σ) : Prop where
  strings : m'.strings.strings = m.strings.strings
  bound : ∀ {type}, m.strings.stringClass = some type → m'.strings.stringClass = some type
  object : ∀ {id type units hash}, m.heap.get? id = some ⟨type, .string units hash⟩ →
    m'.heap.get? id = some ⟨type, .string units hash⟩

namespace KeepsStrings

theorem of_eq (hstrings : m'.strings = m.strings) (hheap : m'.heap = m.heap) :
    KeepsStrings m m' where
  strings := by rw [hstrings]
  bound h := by rw [hstrings, h]
  object h := by rw [hheap, h]

theorem refl (m : Machine σ) : KeepsStrings m m := of_eq rfl rfl

theorem trans (h : KeepsStrings m m') (h' : KeepsStrings m' m'') : KeepsStrings m m'' where
  strings := h'.strings.trans h.strings
  bound hbound := h'.bound (h.bound hbound)
  object hget := h'.object (h.object hget)

theorem bind {x : Change σ Throwable α} {f : α → Change σ Throwable β}
    (hx : KeepsStrings m (x m).2) (hf : ∀ a m, KeepsStrings m (f a m).2) :
    KeepsStrings m ((x >>= f) m).2 := by
  rw [Effect.bind_apply]
  rcases hrun : x m with ⟨e | a, middle⟩
  · rwa [hrun] at hx
  · rw [hrun] at hx
    exact hx.trans (hf a middle)

theorem load (name : String) (m : Machine σ) : KeepsStrings m (Machine.load name m).2 :=
  of_eq rfl rfl

/-- New objects go to a place of their own. -/
theorem allocating {make : Machine σ → Except Throwable (ObjectId × Heap)}
    (h : ∀ id heap, make m = .ok (id, heap) → ∃ object, (id, heap) = m.heap.alloc object) :
    KeepsStrings m (Machine.allocating make m).2 := by
  rw [Machine.allocating_apply]
  split
  · rename_i id heap hmake
    obtain ⟨object, hnew⟩ := h id heap hmake
    obtain rfl : heap = (m.heap.alloc object).2 := (Prod.mk.inj hnew).2
    exact ⟨rfl, fun h => h, fun hget => Heap.get?_alloc_of_some hget⟩
  · exact refl m

theorem newInstance (type : ClassId) (m : Machine σ) :
    KeepsStrings m (Machine.newInstance type m).2 :=
  allocating fun _ _ hmake => ⟨_, Heap.newInstance_ok hmake⟩

theorem newArray (type : ClassId) (length : Nat) (m : Machine σ) :
    KeepsStrings m (Machine.newArray type length m).2 := by
  refine allocating fun id heap hmake => ?_
  obtain ⟨value, hnew⟩ := Heap.newArray_ok hmake
  exact ⟨_, hnew⟩

/-- What is written to was no string before. -/
theorem writing {write : Machine σ → Except Throwable Heap}
    (h : ∀ heap, write m = .ok heap → ∃ id old body,
      (m.heap.get? id).map Object.body = some old ∧ (∀ units hash, old ≠ .string units hash) ∧
      heap = m.heap.setBody id body) : KeepsStrings m (Machine.writing write m).2 := by
  rw [Machine.writing_apply]
  split
  · rename_i heap hwrite
    obtain ⟨id, old, body, hold, hother, rfl⟩ := h heap hwrite
    refine ⟨rfl, fun h => h, fun {other type units hash} hget => ?_⟩
    -- string objects have other bodies, so none of them is written to
    have hne : id ≠ other := by
      rintro rfl
      rw [hget] at hold
      exact hother units hash (Option.some.inj hold).symm
    change (m.heap.setBody id body).get? other = _
    rw [Heap.get?_setBody, if_neg hne, hget]
  · exact refl m

theorem setField (object : ObjectId) (key : FieldKey) (value : Value) (m : Machine σ) :
    KeepsStrings m (Machine.setField object key value m).2 := by
  refine writing fun heap hwrite => ?_
  obtain ⟨fields, hold, hheap⟩ := Heap.setField_ok hwrite
  exact ⟨object, _, _, hold, nofun, hheap⟩

theorem setElement (object : ObjectId) (index : Nat) (value : Value) (m : Machine σ) :
    KeepsStrings m (Machine.setElement object index value m).2 := by
  refine writing fun heap hwrite => ?_
  obtain ⟨elements, hold, -, hheap⟩ := Heap.setElement_ok hwrite
  exact ⟨object, _, _, hold, nofun, hheap⟩

/-- A pool is bound only once. -/
theorem bindStrings (type : ClassId) (m : Machine σ) :
    KeepsStrings m (Machine.bindStrings type m).2 := by
  rw [Machine.bindStrings_apply]
  split
  · rename_i strings hbind
    unfold StringPool.bind at hbind
    split at hbind
    · exact nomatch hbind
    · rename_i hnone
      obtain rfl := Except.ok.inj hbind
      exact ⟨rfl, fun hsome => by simp [hnone] at hsome, fun h => h⟩
  · exact refl m

theorem attachPeer (thread : ThreadId) (peer : ObjectId) (m : Machine σ) :
    KeepsStrings m (Machine.attachPeer thread peer m).2 := by
  rw [Machine.attachPeer_apply]
  cases m.thread? thread with
  | none => exact refl m
  | some block =>
    dsimp only
    cases block.attach peer with
    | error error => exact refl m
    | ok block => exact of_eq rfl rfl

theorem upkeep (upkeep : Upkeep) (m : Machine σ) : KeepsStrings m (upkeep.apply m).2 :=
  of_eq (upkeep.keeps m).2.2.1 (upkeep.keeps m).2.1

end KeepsStrings

-- ---------------------------------------------------------------------------
-- The invariant
-- ---------------------------------------------------------------------------

/-- The pool has one entry for each text in `found`, and no other. The object of an entry is a
string of its units. -/
structure PoolHolds (found : Interned) (m : Machine σ) : Prop where
  lookup : ∀ {text id}, (text, id) ∈ found → m.strings.strings.lookup (Text.units text) = some id
  found : ∀ {units id}, (units, id) ∈ m.strings.strings →
    ∃ text, Text.units text = units ∧ (text, id) ∈ found
  distinct : (m.strings.strings.map Prod.fst).Nodup
  object : ∀ {units id}, (units, id) ∈ m.strings.strings →
    ∃ type, m.strings.stringClass = some type ∧
      m.heap.get? id = some ⟨type, .string units (Text.hash units)⟩

theorem mem_of_lookup {α β : Type} [BEq α] [LawfulBEq α] {entries : List (α × β)} {key : α}
    {value : β} (h : entries.lookup key = some value) : (key, value) ∈ entries := by
  obtain ⟨before, after, rfl, -⟩ := List.lookup_eq_some_iff.mp h
  exact List.mem_append_cons_self

namespace PoolHolds

variable {found : Interned}

/-- Nothing has been interned on a new machine. -/
theorem new (classPath : Finder) (delegateClass : Option String) (memory : σ) :
    PoolHolds [] (Machine.new classPath delegateClass memory) where
  lookup := nofun
  found := nofun
  distinct := List.nodup_nil
  object := nofun

theorem keep (h : PoolHolds found m) (hkeeps : KeepsStrings m m') : PoolHolds found m' where
  lookup hmem := by rw [hkeeps.strings, h.lookup hmem]
  found hmem := h.found (hkeeps.strings ▸ hmem)
  distinct := by
    rw [hkeeps.strings]
    exact h.distinct
  object hmem := by
    obtain ⟨type, hbound, hget⟩ := h.object (hkeeps.strings ▸ hmem)
    exact ⟨type, hkeeps.bound hbound, hkeeps.object hget⟩

/-- A text that has an entry is interned once more. -/
theorem again {text : String} {id : ObjectId} (h : PoolHolds found m)
    (hlookup : m.strings.strings.lookup (Text.units text) = some id) :
    PoolHolds (found ++ [(text, id)]) m where
  lookup {other id'} hmem := by
    rcases List.mem_append.mp hmem with hmem | hmem
    · exact h.lookup hmem
    · obtain ⟨rfl, rfl⟩ := Prod.mk.inj (List.mem_singleton.mp hmem)
      exact hlookup
  found hmem := by
    obtain ⟨other, hunits, hfound⟩ := h.found hmem
    exact ⟨other, hunits, List.mem_append_left _ hfound⟩
  distinct := h.distinct
  object := h.object

/-- A text gets its entry, whose object is new. -/
theorem fresh {text : String} {type : ClassId} (h : PoolHolds found m)
    (hbound : m.strings.stringClass = some type)
    (hlookup : m.strings.strings.lookup (Text.units text) = none) :
    PoolHolds (found ++ [(text, (m.heap.newString type (Text.units text)).1)])
      { m with
        strings := ⟨some type,
          (Text.units text, (m.heap.newString type (Text.units text)).1) :: m.strings.strings⟩
        heap := (m.heap.newString type (Text.units text)).2 } where
  lookup {other id} hmem := by
    rcases List.mem_append.mp hmem with hmem | hmem
    · have hother := h.lookup hmem
      -- texts that have entries have other units
      have hne : Text.units other ≠ Text.units text := by
        intro heq
        rw [heq, hlookup] at hother
        exact nomatch hother
      rw [List.lookup_cons, beq_eq_false_iff_ne.mpr hne]
      exact hother
    · obtain ⟨rfl, rfl⟩ := Prod.mk.inj (List.mem_singleton.mp hmem)
      exact List.lookup_cons_self
  found {units id} hmem := by
    rcases List.mem_cons.mp hmem with heq | hmem
    · obtain ⟨rfl, rfl⟩ := Prod.mk.inj heq
      exact ⟨text, rfl, List.mem_append_right _ List.mem_cons_self⟩
    · obtain ⟨other, hunits, hfound⟩ := h.found hmem
      exact ⟨other, hunits, List.mem_append_left _ hfound⟩
  distinct := by
    rw [List.map_cons, List.nodup_cons]
    refine ⟨fun hmem => ?_, h.distinct⟩
    obtain ⟨entry, hentry, hkey⟩ := List.mem_map.mp hmem
    -- the lookup has found none of the units that are there
    have hne := List.lookup_eq_none_iff.mp hlookup entry hentry
    simp [hkey] at hne
  object {units id} hmem := by
    rcases List.mem_cons.mp hmem with heq | hmem
    · obtain ⟨rfl, rfl⟩ := Prod.mk.inj heq
      exact ⟨type, rfl, Heap.get?_alloc_self _ _⟩
    · obtain ⟨type', hbound', hget⟩ := h.object hmem
      exact ⟨type', hbound.symm.trans hbound', Heap.get?_alloc_of_some hget⟩

/-- **Interning.** The text has an entry afterwards, or nothing has happened. -/
theorem intern (h : PoolHolds found m) (text : String) :
    PoolHolds (found ++ Machine.internedBy text m) (Machine.intern text m).2 := by
  unfold Machine.internedBy
  rw [Machine.intern_apply]
  unfold StringPool.intern
  cases hbound : m.strings.stringClass with
  | none => simpa using h
  | some type =>
    dsimp only
    cases hlookup : m.strings.strings.lookup (Text.units text) with
    | some id => exact h.again hlookup
    | none => exact h.fresh hbound hlookup

/-- Two changes in a row. -/
theorem inTurn {x : Change σ Throwable α} {f : α → Change σ Throwable β}
    {first : Machine σ → Interned} {next : α → Machine σ → Interned}
    (hx : PoolHolds (found ++ first m) (x m).2)
    (hf : ∀ a found m, PoolHolds found m → PoolHolds (found ++ next a m) (f a m).2) :
    PoolHolds (found ++ Machine.inTurn x first next m) ((x >>= f) m).2 := by
  rw [Effect.bind_apply, Machine.inTurn]
  rcases hrun : x m with ⟨e | a, middle⟩
  · rw [hrun] at hx
    simpa using hx
  · rw [hrun] at hx
    rw [← List.append_assoc]
    exact hf a _ middle hx

/-- A change that interns nothing, and another one. -/
theorem inTurn_keep {x : Change σ Throwable α} {f : α → Change σ Throwable β}
    {next : α → Machine σ → Interned} (h : PoolHolds found m) (hx : KeepsStrings m (x m).2)
    (hf : ∀ a found m, PoolHolds found m → PoolHolds (found ++ next a m) (f a m).2) :
    PoolHolds (found ++ Machine.inTurn x (fun _ => []) next m) ((x >>= f) m).2 := by
  refine inTurn ?_ hf
  rw [List.append_nil]
  exact h.keep hx

/-- A change, and another one that interns nothing. -/
theorem bind_keep {x : Change σ Throwable α} {f : α → Change σ Throwable β}
    (hx : PoolHolds found (x m).2) (hf : ∀ a m, KeepsStrings m (f a m).2) :
    PoolHolds found ((x >>= f) m).2 := by
  rw [Effect.bind_apply]
  rcases hrun : x m with ⟨e | a, middle⟩
  · rwa [hrun] at hx
  · rw [hrun] at hx
    exact hx.keep (hf a middle)

theorem fillStrings (h : PoolHolds found m) (array : ObjectId) (index : Nat)
    (texts : List String) :
    PoolHolds (found ++ Machine.internedByFill array index texts m)
      (Machine.fillStrings array index texts m).2 := by
  induction texts generalizing index found m with
  | nil =>
    change PoolHolds (found ++ []) m
    rwa [List.append_nil]
  | cons text texts ih =>
    exact inTurn (h.intern text) fun string _ _ h =>
      inTurn_keep h (.setElement _ _ _ _) fun _ _ _ h => ih h (index + 1)

theorem newStringArray (h : PoolHolds found m) (texts : List String) :
    PoolHolds (found ++ Machine.internedByArray texts m) (Machine.newStringArray texts m).2 := by
  refine inTurn_keep h (.load _ _) fun loaded _ middle h => ?_
  cases loaded with
  | none =>
    rw [List.append_nil]
    exact h
  | some type =>
    exact inTurn_keep h (.newArray _ _ _) fun array _ _ h =>
      bind_keep (h.fillStrings array 0 texts) fun _ _ => .refl _

theorem raise (h : PoolHolds found m) (error : RaisedError) :
    PoolHolds (found ++ Machine.internedByRaise error m) (Machine.raise error m).2 := by
  have hsilent : PoolHolds (found ++ []) m := by rwa [List.append_nil]
  unfold Machine.internedByRaise Machine.raise
  rw [Effect.get_bind]
  cases m.wellKnown with
  | none => exact hsilent
  | some known =>
    dsimp only [Option.bind_some]
    cases known.exception? m.table error.className with
    | none => exact hsilent
    | some type =>
      exact inTurn_keep h (.newInstance type m) fun object _ _ h =>
        bind_keep (h.intern error.message) fun string middle =>
          .bind (.setField object Machine.messageField (.object string) middle) fun _ _ => .refl _

/-- **Accesses.** -/
theorem access (h : PoolHolds found m) (access : Access σ) :
    PoolHolds (found ++ access.interned m) (access.apply m).2 := by
  have hsilent : KeepsStrings m (access.apply m).2 → PoolHolds (found ++ []) (access.apply m).2 :=
    fun hkeeps => by
      rw [List.append_nil]
      exact h.keep hkeeps
  -- only three accesses intern anything
  cases access with
  | intern text => exact h.intern text
  | newStringArray texts => exact h.newStringArray texts
  | raise error => exact h.raise error
  | observe => exact hsilent (.refl m)
  | remember memory => exact hsilent (.of_eq rfl rfl)
  | setClassPath classPath => exact hsilent (.of_eq rfl rfl)
  | load name => exact hsilent (.of_eq rfl rfl)
  | loadBytes bytes => exact hsilent (.of_eq rfl rfl)
  | setDelegate object => exact hsilent (.of_eq rfl rfl)
  | setState type state => exact hsilent (.of_eq rfl rfl)
  | transition type source target => exact hsilent (.of_eq rfl rfl)
  | tag type role => exact hsilent (.of_eq rfl rfl)
  | setStatic type key value => exact hsilent (.of_eq rfl rfl)
  | newInstance type => exact hsilent (.newInstance type m)
  | newArray type length => exact hsilent (.newArray type length m)
  | bindStrings type => exact hsilent (.bindStrings type m)
  | setField object key value => exact hsilent (.setField object key value m)
  | setElement object index value => exact hsilent (.setElement object index value m)
  | installOverrides => exact hsilent (.of_eq rfl rfl)
  | newThread name => exact hsilent (.of_eq rfl rfl)
  | attachPeer thread peer => exact hsilent (.attachPeer thread peer m)
  | launch worker => exact hsilent (.of_eq rfl rfl)
  | settle => exact hsilent (.of_eq rfl rfl)

end PoolHolds

/-- The invariant holds at all moments, whatever is done with a machine. -/
theorem invariant_poolHolds :
    Invariant (σ := σ) fun past m => PoolHolds (internedAt past) m where
  access {past m} access h := by
    have hinterned : internedAt (past ++ [⟨m, access⟩]) = internedAt past ++ access.interned m := by
      simp [internedAt]
    rw [hinterned]
    exact h.access access
  upkeep upkeep h := h.keep (.upkeep upkeep _)
  threads _ _ h := h.keep (.of_eq rfl rfl)

-- ---------------------------------------------------------------------------
-- Buckets
-- ---------------------------------------------------------------------------

/-- The units of a string object and the hash that it stores. -/
def Object.string? (object : Object) : Option (List UInt16 × Int32) :=
  match object.body with
  | .string units hash => some (units, hash)
  | _ => none

/-- The objects of the pool that store a hash. -/
def Machine.bucket (m : Machine σ) (hash : Int32) : List ObjectId :=
  (m.strings.strings.map Prod.snd).filter fun id =>
    ((m.heap.get? id).bind Object.string?).map Prod.snd = some hash

/-- The first object of a bucket with the units asked for. -/
def Machine.searchBucket (m : Machine σ) (units : List UInt16) : Option ObjectId :=
  (m.bucket (Text.hash units)).find? fun id =>
    ((m.heap.get? id).bind Object.string?).map Prod.fst = some units

/-- A search of the bucket finds the entry of the units, since what the objects say and store is
what the entries say. -/
theorem PoolHolds.searchBucket {found : Interned} (h : PoolHolds found m) (units : List UInt16) :
    m.searchBucket units = m.strings.strings.lookup units := by
  have hsays : ∀ entry ∈ m.strings.strings, (m.heap.get? entry.2).bind Object.string? =
      some (entry.1, Text.hash entry.1) := by
    intro entry hentry
    obtain ⟨type, -, hget⟩ := h.object hentry
    rw [hget]
    rfl
  unfold Machine.searchBucket Machine.bucket
  -- entry by entry, with no more about the machine than what the objects say
  generalize m.strings.strings = entries at hsays
  induction entries with
  | nil => rfl
  | cons entry entries ih =>
    obtain ⟨hfirst, hrest⟩ := List.forall_mem_cons.mp hsays
    rw [List.map_cons, List.filter_cons, hfirst, List.lookup_cons, ← ih hrest]
    by_cases hunits : units = entry.1
    · subst hunits
      rw [beq_self_eq_true, Option.map_some, decide_eq_true rfl, if_pos rfl,
        List.find?_cons_of_pos (by rw [hfirst]; exact decide_eq_true rfl)]
    · -- the object is of another bucket, or is passed over in this one
      rw [beq_eq_false_iff_ne.mpr hunits]
      split
      · rw [List.find?_cons_of_neg (by simpa [hfirst] using Ne.symm hunits)]
      · rfl

-- ---------------------------------------------------------------------------
-- The promise
-- ---------------------------------------------------------------------------

/-- What holds of strings when those in `found` have been interned. -/
structure CanonicalStrings (found : Interned) (m : Machine σ) : Prop where
  /-- Texts are equal exactly if their objects are the same. -/
  same_iff : ∀ {text id text' id'}, (text, id) ∈ found → (text', id') ∈ found →
    (id = id' ↔ text = text')
  /-- An object is of the class that the pool is bound to, and says what was interned. -/
  object : ∀ {text id}, (text, id) ∈ found → ∃ object, m.heap.get? id = some object ∧
    m.strings.stringClass = some object.type ∧
    object.body = .string (Text.units text) (Text.hash (Text.units text)) ∧
    object.text? = some text
  /-- Sorted into buckets by hash and searched by units, the pool gives the answer that it gives for
  its entries, also where there is none. -/
  search : ∀ units, m.searchBucket units = m.strings.strings.lookup units
  /-- Texts of the same hash are told apart by their units. -/
  bucket : ∀ {text id}, (text, id) ∈ found → m.searchBucket (Text.units text) = some id
  size : m.strings.size = (found.map Prod.fst).dedup.length
  /-- Interning fails as long as there is no class for strings, and only then. -/
  unbound : m.strings.stringClass = none →
    m.strings.size = 0 ∧ ∀ text, ∃ error, Machine.intern text m = (.error error, m)
  bound : m.strings.stringClass ≠ none → ∀ text, ∃ id, (Machine.intern text m).1 = .ok id

namespace PoolHolds

variable {found : Interned}

theorem object_of_found {text : String} {id : ObjectId} (h : PoolHolds found m)
    (hmem : (text, id) ∈ found) : ∃ type, m.strings.stringClass = some type ∧
      m.heap.get? id = some ⟨type, .string (Text.units text) (Text.hash (Text.units text))⟩ :=
  h.object (mem_of_lookup (h.lookup hmem))

/-- Objects that are the same say the same, and units say everything about a text. -/
theorem same_iff {text text' : String} {id id' : ObjectId} (h : PoolHolds found m)
    (hmem : (text, id) ∈ found) (hmem' : (text', id') ∈ found) : id = id' ↔ text = text' := by
  constructor
  · rintro rfl
    obtain ⟨type, -, hget⟩ := h.object_of_found hmem
    obtain ⟨type', -, hget'⟩ := h.object_of_found hmem'
    have hobject := Option.some.inj (hget.symm.trans hget')
    have hunits : Text.units text = Text.units text' := by
      injection hobject with _ hbody
      injection hbody
    exact Text.units_injective hunits
  · rintro rfl
    exact Option.some.inj ((h.lookup hmem).symm.trans (h.lookup hmem'))

/-- The units of the entries are those of the texts, each once. -/
theorem size (h : PoolHolds found m) :
    m.strings.size = (found.map Prod.fst).dedup.length := by
  have hdistinct : ((found.map Prod.fst).dedup.map Text.units).Nodup :=
    (List.nodup_dedup _).map Text.units_injective
  have hperm :
      (m.strings.strings.map Prod.fst).Perm ((found.map Prod.fst).dedup.map Text.units) := by
    refine (List.perm_ext_iff_of_nodup h.distinct hdistinct).mpr fun units => ?_
    simp only [List.mem_map, List.mem_dedup]
    constructor
    · rintro ⟨⟨units, id⟩, hmem, rfl⟩
      obtain ⟨text, hunits, hfound⟩ := h.found hmem
      exact ⟨text, ⟨⟨text, id⟩, hfound, rfl⟩, hunits⟩
    · rintro ⟨text, ⟨⟨text, id⟩, hmem, rfl⟩, rfl⟩
      exact ⟨⟨Text.units text, id⟩, mem_of_lookup (h.lookup hmem), rfl⟩
  -- two lists without duplicates of the same elements are of the same length
  have hlength := hperm.length_eq
  rwa [List.length_map, List.length_map] at hlength

theorem canonicalStrings (h : PoolHolds found m) : CanonicalStrings found m where
  same_iff hmem hmem' := h.same_iff hmem hmem'
  object {text id} hmem := by
    obtain ⟨type, hbound, hget⟩ := h.object_of_found hmem
    exact ⟨_, hget, hbound, rfl, Text.ofUnits?_units text⟩
  search := h.searchBucket
  bucket hmem := (h.searchBucket _).trans (h.lookup hmem)
  size := h.size
  unbound hnone := by
    -- an entry would have an object of a class that the pool is bound to
    have hempty : m.strings.strings = [] := by
      refine List.eq_nil_iff_forall_not_mem.mpr fun ⟨units, id⟩ hmem => ?_
      obtain ⟨type, hbound, -⟩ := h.object hmem
      simp [hnone] at hbound
    refine ⟨by rw [StringPool.size, hempty, List.length_nil], fun text => ?_⟩
    rw [Machine.intern_apply, StringPool.intern, hnone]
    exact ⟨_, rfl⟩
  bound hsome text := by
    obtain ⟨type, hbound⟩ := Option.ne_none_iff_exists'.mp hsome
    rw [Machine.intern_apply, StringPool.intern, hbound]
    dsimp only
    cases m.strings.strings.lookup (Text.units text) with
    | some id => exact ⟨id, rfl⟩
    | none => exact ⟨_, rfl⟩

end PoolHolds

/-- **Strings are canonical.** Let a guest do whatever it likes on a new machine, with whatever
engine. At every moment of the run, also inside the engine's calls and inside a start, and when it
is over, the strings that have been interned until then are canonical. -/
theorem strings_canonical (engine : Engine σ) (fuel : Nat) (guest : Guest σ α) (classPath : Finder)
    (delegateClass : Option String) (memory : σ) :
    (∀ before now after,
      Machine.moments engine fuel guest (.new classPath delegateClass memory) =
        before ++ now :: after → CanonicalStrings (internedAt before) now.machine) ∧
    CanonicalStrings
      (internedAt (Machine.moments engine fuel guest (.new classPath delegateClass memory)))
      (Machine.run engine fuel guest (.new classPath delegateClass memory)).2 := by
  have hnew : PoolHolds (internedAt ([] : List (Moment σ)))
      (.new classPath delegateClass memory) := .new ..
  have hall := Machine.throughout_moments invariant_poolHolds engine fuel guest hnew
  exact ⟨fun before now after hsplit => (hall.moment before now after hsplit).canonicalStrings,
    hall.last.canonicalStrings⟩

/-- Interns a text too early and then texts of the same hash, one of them twice; between them it
tries to write to the first string. -/
def collidingGuest : Guest Unit Unit :=
  .ask (.access (.intern "Aa")) fun _ => .ask (.access (.bindStrings ⟨7⟩)) fun _ =>
    .ask (.access (.intern "Aa")) fun _ =>
    .ask (.access (.setField ⟨0⟩ Machine.messageField .null)) fun _ =>
    .ask (.access (.intern "BB")) fun _ => .ask (.access (.intern "Aa")) fun _ => .done ()

/-- The engine is never called. -/
def idleEngine : Engine Unit := ⟨fun _ => .done (.ok none)⟩

def collidingStart : Machine Unit := .new (fun _ => none) none ()

/-- The two texts stay apart, and the third time finds the first object. -/
theorem collidingGuest_strings :
    Text.hash (Text.units "Aa") = Text.hash (Text.units "BB") ∧
    internedAt (Machine.moments idleEngine 1 collidingGuest collidingStart) =
      [("Aa", ⟨0⟩), ("BB", ⟨1⟩), ("Aa", ⟨0⟩)] ∧
    CanonicalStrings [("Aa", ⟨0⟩), ("BB", ⟨1⟩), ("Aa", ⟨0⟩)]
      (Machine.run idleEngine 1 collidingGuest collidingStart).2 ∧
    (Machine.run idleEngine 1 collidingGuest collidingStart).2.strings.size = 2 := by
  have hfound : internedAt (Machine.moments idleEngine 1 collidingGuest collidingStart) =
      [("Aa", ⟨0⟩), ("BB", ⟨1⟩), ("Aa", ⟨0⟩)] := by decide +kernel
  have hlast := (strings_canonical idleEngine 1 collidingGuest (fun _ => none) none ()).2
  change CanonicalStrings
    (internedAt (Machine.moments idleEngine 1 collidingGuest collidingStart)) _ at hlast
  rw [hfound] at hlast
  exact ⟨by decide +kernel, hfound, hlast, hlast.size.trans (by decide +kernel)⟩

end ClassHost
