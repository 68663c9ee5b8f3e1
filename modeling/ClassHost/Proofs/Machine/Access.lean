import ClassHost.Proofs.Effect
import ClassHost.Proofs.Machine.Frame

/-!
# What accesses touch

An access runs no code of the program, so what it can change is known in advance: `Access.touched`
lists it, and `Access.touches` is the proof. Loading, making objects and interning touch nothing,
as they only add. The message of an exception is written after it has been made, but by then nobody
else knows it.

The equations `..._apply` say what the changes behind the accesses do in full.
-/

namespace ClassHost

open Effect

theorem Loader.setDelegate_apply (object : ObjectId) (loader : Loader) :
    Loader.setDelegate object loader =
      if loader.delegate.isSome then (.error (.internal .delegateAlreadySet), loader)
      else (.ok (), { loader with delegate := some object }) := by
  unfold setDelegate
  rw [get_bind]
  by_cases h : loader.delegate.isSome
  · rw [if_pos h, if_pos h]
    rfl
  · rw [if_neg h, if_neg h]
    rfl

variable {σ α : Type} {m m' : Machine σ}

namespace Machine

-- ---------------------------------------------------------------------------
-- Changes evaluated
-- ---------------------------------------------------------------------------

theorem loading_apply (step : Finder → Loading α) (m : Machine σ) :
    loading step m =
      ((step m.classPath m.loader).1, { m with loader := (step m.classPath m.loader).2 }) := rfl

theorem allocating_apply (make : Machine σ → Except Throwable (ObjectId × Heap)) (m : Machine σ) :
    allocating make m =
      match make m with
      | .ok (id, heap) => (.ok id, { m with heap })
      | .error error => (.error error, m) := by
  unfold allocating
  rw [get_bind]
  rcases make m with _ | ⟨_, _⟩ <;> rfl

theorem writing_apply (write : Machine σ → Except Throwable Heap) (m : Machine σ) :
    writing write m =
      match write m with
      | .ok heap => (.ok (), { m with heap })
      | .error error => (.error error, m) := by
  unfold writing
  rw [get_bind]
  cases write m <;> rfl

theorem intern_apply (text : String) (m : Machine σ) :
    intern text m =
      match m.strings.intern m.heap text with
      | .ok (id, strings, heap) => (.ok id, { m with strings, heap })
      | .error error => (.error error, m) := by
  unfold intern
  rw [get_bind]
  rcases m.strings.intern m.heap text with _ | ⟨_, _, _⟩ <;> rfl

theorem bindStrings_apply (type : ClassId) (m : Machine σ) :
    bindStrings type m =
      match m.strings.bind type with
      | .ok strings => (.ok (), { m with strings })
      | .error error => (.error error, m) := by
  unfold bindStrings
  rw [get_bind]
  cases m.strings.bind type <;> rfl

theorem attachPeer_apply (thread : ThreadId) (peer : ObjectId) (m : Machine σ) :
    attachPeer thread peer m =
      match m.thread? thread with
      | none => (.ok (), m)
      | some block =>
        match block.attach peer with
        | .ok block => (.ok (), { m with threads := m.threads.setIfInBounds thread.index block })
        | .error error => (.error error, m) := by
  unfold attachPeer
  rw [get_bind]
  cases m.thread? thread with
  | none => rfl
  | some block =>
    dsimp only
    cases block.attach peer <;> rfl

-- ---------------------------------------------------------------------------
-- Single changes
-- ---------------------------------------------------------------------------

theorem touches_load (name : String) (m : Machine σ) : Touches [] m (load name m).2 := by
  have hgrows := (Loader.spec_load m.classPath name m.loader _ _ rfl).grows
  exact { Touches.refl m with
    table := .of_built hgrows.built
    delegate := fun _ => hgrows.delegate }

theorem touches_loadBytes (bytes : Bytes) (m : Machine σ) :
    Touches [] m (loadBytes bytes m).2 := by
  have hgrows := Loader.grows_loadBytes (Prod.eta (Loader.loadBytes bytes m.loader)).symm
  exact { Touches.refl m with
    table := .of_built hgrows.built
    delegate := fun _ => hgrows.delegate }

theorem touches_setDelegate (object : ObjectId) (m : Machine σ) :
    Touches [.delegate] m (setDelegate object m).2 := by
  rw [setDelegate, loading_apply, Loader.setDelegate_apply]
  split
  · exact .refl m
  · exact { Touches.refl m with delegate := by simp }

theorem touches_allocating {make : Machine σ → Except Throwable (ObjectId × Heap)}
    (h : ∀ id heap, make m = .ok (id, heap) → HeapFrame [] m.heap heap) :
    Touches [] m (allocating make m).2 := by
  rw [allocating_apply]
  split
  · rename_i id heap hmake
    exact .withHeap (h id heap hmake)
  · exact .refl m

theorem touches_newInstance (type : ClassId) (m : Machine σ) :
    Touches [] m (newInstance type m).2 := by
  refine touches_allocating fun id heap hmake => ?_
  obtain ⟨rfl, rfl⟩ := Prod.mk.inj (Heap.newInstance_ok hmake)
  exact .alloc _ _

theorem touches_newArray (type : ClassId) (length : Nat) (m : Machine σ) :
    Touches [] m (newArray type length m).2 := by
  refine touches_allocating fun id heap hmake => ?_
  obtain ⟨value, heq⟩ := Heap.newArray_ok hmake
  obtain ⟨rfl, rfl⟩ := Prod.mk.inj heq
  exact .alloc _ _

/-- An instance that was made was not there before. -/
theorem get?_of_newInstance {type : ClassId} {object : ObjectId}
    (h : newInstance type m = (.ok object, m')) : m.heap.get? object = none := by
  rw [newInstance, allocating_apply] at h
  split at h
  · rename_i id heap hmake
    obtain ⟨hid, -⟩ := Prod.mk.inj h
    obtain rfl := Except.ok.inj hid
    rw [(Prod.mk.inj (Heap.newInstance_ok hmake)).1]
    exact Heap.get?_alloc_fresh m.heap ⟨type, .plain []⟩
  · exact nomatch h

theorem touches_setField (object : ObjectId) (key : FieldKey) (value : Value) (m : Machine σ) :
    Touches [.object object] m (setField object key value m).2 := by
  rw [setField, writing_apply]
  split
  · rename_i heap hwrite
    obtain ⟨fields, -, rfl⟩ := Heap.setField_ok hwrite
    exact .withHeap (.setBody _ _ _)
  · exact .refl m

theorem touches_setElement (object : ObjectId) (index : Nat) (value : Value) (m : Machine σ) :
    Touches [] m (setElement object index value m).2 := by
  rw [setElement, writing_apply]
  split
  · rename_i heap hwrite
    obtain ⟨elements, harray, -, rfl⟩ := Heap.setElement_ok hwrite
    exact .withHeap (.setArray _ harray)
  · exact .refl m

theorem touches_intern (text : String) (m : Machine σ) : Touches [] m (intern text m).2 := by
  rw [intern_apply]
  split
  · rename_i id strings heap hintern
    rcases StringPool.intern_ok hintern with ⟨-, rfl, rfl⟩ | ⟨hnone, type, hnew, rfl⟩
    · exact .refl m
    · obtain ⟨-, rfl⟩ := Prod.mk.inj hnew
      refine { Touches.refl m with
        heap := .alloc _ _
        strings := ⟨fun hclass => hclass, fun {units found} hfound => ?_⟩ }
      -- the new entry does not get in front of an older one, as its text had none
      by_cases hunits : units = Text.units text
      · rw [hunits, hnone] at hfound
        exact nomatch hfound
      · rw [List.lookup_cons, beq_eq_false_iff_ne.mpr hunits]
        exact hfound
  · exact .refl m

theorem touches_bindStrings (type : ClassId) (m : Machine σ) :
    Touches [] m (bindStrings type m).2 := by
  rw [bindStrings_apply]
  split
  · rename_i strings hbind
    unfold StringPool.bind at hbind
    split at hbind
    · exact nomatch hbind
    · rename_i hnone
      obtain rfl := Except.ok.inj hbind
      refine { Touches.refl m with strings := ⟨fun hsome => ?_, id⟩ }
      rw [hnone] at hsome
      exact nomatch hsome
  · exact .refl m

theorem touches_attachPeer (thread : ThreadId) (peer : ObjectId) (m : Machine σ) :
    Touches [] m (attachPeer thread peer m).2 := by
  rw [attachPeer_apply]
  split
  · exact .refl m
  · rename_i block hblock
    split
    · rename_i block' hattach
      unfold ThreadBlock.attach at hattach
      split at hattach
      · exact nomatch hattach
      · rename_i hpeer
        obtain rfl := Except.ok.inj hattach
        refine { Touches.refl m with threads := ⟨fun {_ old} hold => ?_⟩ }
        rw [Array.getElem?_setIfInBounds]
        split
        · rename_i hindex
          subst hindex
          -- the thread had no peer before, so none is replaced
          have hlt := (Array.getElem?_eq_some_iff.mp hold).1
          obtain rfl := Option.some.inj (hblock.symm.trans hold)
          refine ⟨_, if_pos hlt, rfl, rfl, fun hsome => ?_⟩
          rw [hpeer] at hsome
          exact nomatch hsome
        · exact ⟨old, hold, .refl old⟩
    · exact .refl m

theorem touches_newThread (name : String) (m : Machine σ) :
    Touches [] m (newThread name m).2 :=
  { Touches.refl m with
    threads := ⟨fun {_ block} hget =>
      ⟨block, (Array.getElem?_push_lt (Array.getElem?_eq_some_iff.mp hget).1).trans
        ((Array.getElem?_eq_getElem _).symm.trans hget), .refl block⟩⟩ }

theorem touches_install (entry : OverrideModule) (m : Machine σ) :
    Touches [] m (m.install entry) :=
  { Touches.refl m with }

-- ---------------------------------------------------------------------------
-- Changes in parts
-- ---------------------------------------------------------------------------

/-- Two changes in a row, the second one of what the first one left. -/
theorem touches_bind {β : Type} {touched : List Aspect} {x : Change σ Throwable α}
    {f : α → Change σ Throwable β} (hx : Touches touched m (x m).2)
    (hf : ∀ a middle, x m = (.ok a, middle) → Touches touched middle (f a middle).2) :
    Touches touched m ((x >>= f) m).2 :=
  related_bind (Touches touched) Touches.trans_self hx hf

theorem touches_fillStrings (array : ObjectId) (index : Nat) (texts : List String)
    (m : Machine σ) : Touches [] m (fillStrings array index texts m).2 := by
  induction texts generalizing index m with
  | nil => exact .refl m
  | cons text texts ih =>
    refine touches_bind (touches_intern text m) fun string middle _ => ?_
    exact touches_bind (touches_setElement array index (.object string) middle) fun _ last _ =>
      ih (index + 1) last

theorem touches_newStringArray (texts : List String) (m : Machine σ) :
    Touches [] m (newStringArray texts m).2 := by
  refine touches_bind (touches_load CoreName.stringArray m) fun found middle _ => ?_
  cases found with
  | none => exact .refl middle
  | some type =>
    refine touches_bind (touches_newArray type texts.length middle) fun array made _ => ?_
    exact touches_bind (touches_fillStrings array 0 texts made) fun _ last _ => .refl last

theorem touches_raise (error : RaisedError) (m : Machine σ) : Touches [] m (raise error m).2 := by
  unfold raise
  rw [get_bind]
  cases m.wellKnown with
  | none => exact .refl m
  | some known =>
    dsimp only
    cases known.exception? m.table error.className with
    | none => exact .refl m
    | some type =>
      have hnew := touches_newInstance type m
      dsimp only
      rw [bind_apply]
      rcases hrun : newInstance type m with ⟨error | object, made⟩
      · rw [hrun] at hnew
        exact hnew
      · rw [hrun] at hnew
        -- the object that is written to is the new one
        refine .of_fresh (get?_of_newInstance hrun) ((hnew.mono (List.nil_subset _)).trans_self ?_)
        refine touches_bind ((touches_intern _ made).mono (List.nil_subset _))
          fun string middle _ => ?_
        exact touches_bind (touches_setField object messageField (.object string) middle)
          fun _ last _ => .refl last

end Machine

-- ---------------------------------------------------------------------------
-- Accesses
-- ---------------------------------------------------------------------------

namespace Access

/-- What an access touches on a machine. -/
def touched (m : Machine σ) : Access σ → List Aspect
  | setDelegate _ => [.delegate]
  | setState type _ | transition type _ _ => [.state (m.className type)]
  | tag type _ => [.role (m.className type)]
  | setStatic type _ _ => [.statics (m.className type)]
  | setField object _ _ => [.object object]
  | _ => []

/-- **Accesses in their frames.** Whatever an access replies, it has touched nothing but what it is
known to touch. In particular it has left the journal alone. -/
theorem touches (access : Access σ) (m : Machine σ) :
    Touches (access.touched m) m (access.apply m).2 := by
  cases access with
  | observe => exact .refl m
  | remember memory => exact { Touches.refl m with }
  | setClassPath classPath => exact { Touches.refl m with }
  | load name => exact Machine.touches_load name m
  | loadBytes bytes => exact Machine.touches_loadBytes bytes m
  | setDelegate object => exact Machine.touches_setDelegate object m
  | setState type state => exact .withTable (.setState m.table type state)
  | transition type source target => exact .withTable (.transition m.table type source target)
  | tag type role => exact .withTable (.tag m.table type role)
  | setStatic type key value => exact .withTable (.setStatic m.table type key value)
  | newInstance type => exact Machine.touches_newInstance type m
  | newArray type length => exact Machine.touches_newArray type length m
  | newStringArray texts => exact Machine.touches_newStringArray texts m
  | intern text => exact Machine.touches_intern text m
  | bindStrings type => exact Machine.touches_bindStrings type m
  | setField object key value => exact Machine.touches_setField object key value m
  | setElement object index value => exact Machine.touches_setElement object index value m
  | raise error => exact Machine.touches_raise error m
  | installOverrides => exact { Touches.refl m with }
  | newThread name => exact Machine.touches_newThread name m
  | attachPeer thread peer => exact Machine.touches_attachPeer thread peer m
  | launch worker => exact { Touches.refl m with }
  | settle => exact { Touches.refl m with }

end Access

namespace Upkeep

theorem apply_capture (known : WellKnown) (m : Machine σ) :
    (capture known).apply m =
      if m.wellKnown.isSome then (false, m) else (true, { m with wellKnown := some known }) := rfl

theorem apply_setCharset (charset : ObjectId) (m : Machine σ) :
    (setCharset charset).apply m =
      if m.charset.isSome then (false, m) else (true, { m with charset := some charset }) := rfl

/-- Upkeep is about the start and the journal. Classes, objects, strings and threads stay as they
are. -/
theorem keeps (upkeep : Upkeep) (m : Machine σ) :
    (upkeep.apply m).2.table = m.table ∧ (upkeep.apply m).2.heap = m.heap ∧
      (upkeep.apply m).2.strings = m.strings ∧ (upkeep.apply m).2.threads = m.threads ∧
      (upkeep.apply m).2.registry = m.registry := by
  cases upkeep with
  | note event => exact ⟨rfl, rfl, rfl, rfl, rfl⟩
  | setBoot state => exact ⟨rfl, rfl, rfl, rfl, rfl⟩
  | install entry => exact ⟨rfl, rfl, rfl, rfl, rfl⟩
  | capture known =>
    rw [apply_capture]
    split <;> exact ⟨rfl, rfl, rfl, rfl, rfl⟩
  | setCharset charset =>
    rw [apply_setCharset]
    split <;> exact ⟨rfl, rfl, rfl, rfl, rfl⟩

end Upkeep

end ClassHost
