import ClassHost.Proofs.Boot.Facts

/-!
# The steps of a start

One lemma for each step that a start is made of: what has happened if the step returned. Each says
how the machine evolved and which facts hold from then on. That a start has begun is assumed all
along, so that whatever runs inside calls cannot begin another one.
-/

namespace ClassHost.Procedure

variable {σ α : Type} {engine : Engine σ} {fuel : Nat} {m m' : Machine σ} {thread : ThreadId}
  {name : String} {type : ClassId}

-- ---------------------------------------------------------------------------
-- Accesses
-- ---------------------------------------------------------------------------

/-- A step whose failures are given another blame returns as it would without. -/
theorem exec_orFatal_ok {blame : Throwable → Fatal} {procedure : Procedure σ Throwable α} {a : α}
    (h : (orFatal blame procedure).exec engine fuel m = (.ok (.ok a), m')) :
    procedure.exec engine fuel m = (.ok (.ok a), m') :=
  exec_orFatal_eq_ok.mp h

theorem pure_ok {ε : Type} {a b : α}
    (h : (pure a : Procedure σ ε α).exec engine fuel m = (.ok (.ok b), m')) : b = a ∧ m' = m := by
  obtain ⟨hr, rfl⟩ := Prod.mk.inj h
  exact ⟨(Except.ok.inj (Except.ok.inj hr)).symm, rfl⟩

/-- Observing changes nothing. -/
theorem observe_bind_ok {ε β : Type} {f : Machine σ → Procedure σ ε β} {b : β}
    (h : (observe >>= f).exec engine fuel m = (.ok (.ok b), m')) :
    (f m).exec engine fuel m = (.ok (.ok b), m') := by
  obtain ⟨seen, middle, hobserve, h⟩ := exec_bind_ok h
  have happly : (m, m) = (seen, middle) := exec_access_ok hobserve
  obtain ⟨rfl, rfl⟩ := Prod.mk.inj happly
  exact h

/-- An access evolves the machine in its frame. -/
theorem evolves_of_apply {access : Access σ} {reply : access.Reply}
    (h : access.apply m = (reply, m')) : Evolves (access.touched m) [] m m' := by
  have hevolves := Evolves.access access m
  rwa [h] at hevolves

theorem find?_of_load (h : Machine.load name m = (.ok (some type), m')) :
    m'.table.find? name = some type := by
  obtain ⟨hload, rfl⟩ := Prod.mk.inj h
  exact (Loader.spec_load m.classPath name m.loader _ _ (Prod.ext hload rfl)).found type rfl

theorem load_ok {found : Option ClassId}
    (h : (load name).exec engine fuel m = (.ok (.ok found), m')) :
    Evolves [] [] m m' ∧ (∀ type, found = some type → m'.table.find? name = some type) ∧
      (found = none → m'.table.find? name = none) := by
  have happly : (Access.load name).apply m = (.ok found, m') :=
    Machine.apply_of_perform_access (perform_of_exec h)
  refine ⟨evolves_of_apply happly, fun type htype => find?_of_load (htype ▸ happly), ?_⟩
  rintro rfl
  obtain ⟨hload, rfl⟩ := Prod.mk.inj happly
  exact Loader.find?_of_load_none (Prod.ext hload rfl)

theorem loadRequired_ok (h : (loadRequired name).exec engine fuel m = (.ok (.ok type), m')) :
    Evolves [] [] m m' ∧ m'.table.find? name = some type := by
  obtain ⟨found, middle, hload, h⟩ := exec_bind_ok h
  obtain ⟨hevolves, hfound, -⟩ := load_ok (exec_orFatal_ok hload)
  cases found with
  | none => exact nomatch Except.ok.inj (Prod.mk.inj h).1
  | some found =>
    obtain ⟨rfl, rfl⟩ := pure_ok h
    exact ⟨hevolves, hfound _ rfl⟩

/-- A new object, which was not there before. -/
theorem newObject_ok {object : ObjectId}
    (h : (newObject type).exec engine fuel m = (.ok (.ok object), m')) :
    Evolves [] [] m m' ∧ m.heap.get? object = none ∧
      m'.heap.get? object = some ⟨type, .plain []⟩ := by
  replace h := observe_bind_ok h
  have happly : (Access.newInstance type).apply m = (.ok object, m') :=
    Machine.apply_of_perform_access (perform_of_exec (exec_orFatal_ok h))
  refine ⟨evolves_of_apply happly, Machine.get?_of_newInstance happly, ?_⟩
  change Machine.newInstance type m = _ at happly
  rw [Machine.newInstance, Machine.allocating_apply] at happly
  split at happly
  · rename_i id heap hmake
    obtain ⟨rfl, rfl⟩ := Effect.eq_of_ok happly
    obtain ⟨rfl, rfl⟩ := Prod.mk.inj (Heap.newInstance_ok hmake)
    exact Heap.get?_alloc_self m.heap ⟨type, .plain []⟩
  · cases (Prod.mk.inj happly).1

/-- A field of an instance. The other fields stay. -/
theorem setObjectField_ok {object : ObjectId} {key : FieldKey} {value : Value}
    {fields : List (FieldKey × Value)} (hobject : m.heap.get? object = some ⟨type, .plain fields⟩)
    (h : (setObjectField object key value).exec engine fuel m = (.ok (.ok ()), m')) :
    Evolves [.object object] [] m m' ∧
      m'.heap.get? object = some ⟨type, .plain (storeField fields key value)⟩ := by
  replace h := observe_bind_ok h
  have happly : (Access.setField object key value).apply m = (.ok (), m') :=
    Machine.apply_of_perform_access (perform_of_exec (exec_orFatal_ok h))
  refine ⟨evolves_of_apply happly, ?_⟩
  change Machine.setField object key value m = _ at happly
  rw [Machine.setField, Machine.writing_apply] at happly
  split at happly
  · rename_i heap hwrite
    obtain ⟨-, rfl⟩ := Prod.mk.inj happly
    obtain ⟨fields', hbody, rfl⟩ := Heap.setField_ok hwrite
    -- the object is plain, so the write ends in the list of its fields
    rw [hobject] at hbody
    obtain rfl := ObjectBody.plain.inj (Option.some.inj hbody)
    change (m.heap.setBody object _).get? object = _
    rw [Heap.get?_setBody, if_pos rfl, hobject]
    rfl
  · cases (Prod.mk.inj happly).1

theorem canonical_of_intern {text : String} {string : ObjectId}
    (h : Machine.intern text m = (.ok string, m')) : m'.Canonical string text := by
  rw [Machine.intern_apply] at h
  split at h
  · rename_i id strings heap hintern
    obtain ⟨rfl, rfl⟩ := Effect.eq_of_ok h
    exact StringPool.lookup_of_intern hintern
  · exact nomatch (Prod.mk.inj h).1

theorem internRequired_ok {text : String} {string : ObjectId}
    (h : (internRequired text).exec engine fuel m = (.ok (.ok string), m')) :
    Evolves [] [] m m' ∧ m'.Canonical string text := by
  have happly : (Access.intern text).apply m = (.ok string, m') :=
    Machine.apply_of_perform_access (perform_of_exec (exec_orFatal_ok h))
  exact ⟨evolves_of_apply happly, canonical_of_intern happly⟩

theorem declared_ok {kind : MethodKind} {key : MethodKey} {method : MethodRef}
    (h : (declared kind type key).exec engine fuel m = (.ok (.ok method), m')) :
    m' = m ∧ m.table.method? kind type key = some method := by
  replace h := observe_bind_ok h
  cases hmethod : m.table.method? kind type key with
  | none =>
    rw [hmethod] at h
    exact nomatch Except.ok.inj (Prod.mk.inj h).1
  | some found =>
    rw [hmethod] at h
    obtain ⟨rfl, rfl⟩ := pure_ok h
    exact ⟨rfl, rfl⟩

-- ---------------------------------------------------------------------------
-- What a start sets itself
-- ---------------------------------------------------------------------------

section Classes

variable (hfind : m.table.find? name = some type)

include hfind

theorem setState_ok {state : ClassState}
    (h : (access (.setState type state) : Procedure σ Fatal _).exec engine fuel m =
      (.ok (.ok ()), m')) :
    Evolves [.state name] [] m m' ∧ (state = .fullyInitialized → m'.Initialized name) := by
  have happly : (Access.setState type state).apply m = ((), m') := exec_access_ok h
  have hevolves := evolves_of_apply happly
  rw [Access.touched, Machine.className, ClassTable.nameOf_of_find? hfind] at hevolves
  refine ⟨hevolves, fun hstate => ?_⟩
  obtain ⟨c, hget, -⟩ := ClassTable.get?_of_find? hfind
  obtain ⟨-, rfl⟩ := Prod.mk.inj happly
  exact ⟨_, ClassTable.named?_of_find? ((ClassTable.find?_setState _ _ _ _).trans hfind)
    (ClassTable.get?_setState_self hget), hstate⟩

theorem setStatic_ok {key : FieldKey} {value : Value}
    (h : (access (.setStatic type key value) : Procedure σ Fatal _).exec engine fuel m =
      (.ok (.ok ()), m')) :
    Evolves [.statics name] [] m m' ∧ m'.HasStatic name key value := by
  have happly : (Access.setStatic type key value).apply m = ((), m') := exec_access_ok h
  have hevolves := evolves_of_apply happly
  rw [Access.touched, Machine.className, ClassTable.nameOf_of_find? hfind] at hevolves
  refine ⟨hevolves, ?_⟩
  obtain ⟨c, hget, -⟩ := ClassTable.get?_of_find? hfind
  obtain ⟨-, rfl⟩ := Prod.mk.inj happly
  exact ⟨_, ClassTable.named?_of_find? ((ClassTable.find?_setStatic _ _ _ _ _).trans hfind)
    (ClassTable.get?_setStatic_self hget), lookup_storeField _ _ _⟩

theorem tag_ok {role : ClassRole} {tagged : Bool}
    (h : (access (.tag type role) : Procedure σ Fatal _).exec engine fuel m =
      (.ok (.ok tagged), m')) :
    Evolves [.role name] [] m m' ∧ (m.Untagged name → m'.HasRole name role) := by
  have happly : (Access.tag type role).apply m = (tagged, m') := exec_access_ok h
  have hevolves := evolves_of_apply happly
  rw [Access.touched, Machine.className, ClassTable.nameOf_of_find? hfind] at hevolves
  refine ⟨hevolves, fun huntagged => ?_⟩
  obtain ⟨c, hget, hname⟩ := ClassTable.get?_of_find? hfind
  obtain ⟨-, rfl⟩ := Prod.mk.inj happly
  exact ⟨_, ClassTable.named?_of_find? ((ClassTable.find?_tag _ _ _ _).trans hfind)
    (ClassTable.get?_tag_self hget (huntagged _ c hget hname)), rfl⟩

end Classes

/-- Classes of different names are tagged one after the other. -/
theorem tagAll_ok {role : ClassRole} {names : List String} {types : List ClassId}
    (hfind : m.table.Finds names types) (hnodup : names.Nodup)
    (huntagged : ∀ name ∈ names, m.Untagged name)
    (h : (tagAll role types).exec engine fuel m = (.ok (.ok ()), m')) :
    Evolves (names.map .role) [] m m' ∧ ∀ name ∈ names, m'.HasRole name role := by
  induction types generalizing m names with
  | nil =>
    cases hfind
    obtain ⟨-, rfl⟩ := pure_ok h
    exact ⟨.refl _, nofun⟩
  | cons type types ih =>
    cases hfind with
    | @cons name _ names _ hfirst hrest =>
      obtain ⟨hname, hnodup⟩ := List.nodup_cons.mp hnodup
      obtain ⟨tagged, middle, htag, h⟩ := exec_bind_ok h
      obtain ⟨hevolves, hrole⟩ := tag_ok hfirst htag
      -- the names differ, so tagging the first leaves the others untagged
      have huntagged' : ∀ other ∈ names, middle.Untagged other := fun other hother => by
        refine hevolves.untagged ?_ (huntagged other (List.mem_cons_of_mem _ hother))
        rintro hmem
        obtain rfl := Aspect.role.inj (List.mem_singleton.mp hmem)
        exact hname hother
      obtain ⟨hevolves', hroles⟩ := ih (hevolves.finds hrest) hnodup huntagged' h
      refine ⟨hevolves.trans hevolves', List.forall_mem_cons.mpr ⟨?_, hroles⟩⟩
      exact hevolves'.hasRole (by simpa using hname) (hrole (huntagged name List.mem_cons_self))

-- ---------------------------------------------------------------------------
-- What a start keeps
-- ---------------------------------------------------------------------------

/-- The well-known classes are kept by whoever is first. -/
theorem capture_ok {known : WellKnown}
    (h : (upkeep (.capture known) : Procedure σ Fatal _).exec engine fuel m =
      (.ok (.ok true), m')) :
    Evolves [.wellKnown] [] m m' ∧ m'.wellKnown = some known := by
  have happly : (Upkeep.capture known).apply m = (true, m') := exec_upkeep_ok h
  change (if m.wellKnown.isSome then (false, m) else (true, { m with wellKnown := some known })) =
    (true, m') at happly
  split at happly
  · exact nomatch (Prod.mk.inj happly).1
  · obtain ⟨-, rfl⟩ := Prod.mk.inj happly
    exact ⟨.of_touches { Touches.refl m with wellKnown := by simp } (by simp), rfl⟩

theorem setCharset_ok {charset : ObjectId}
    (h : (upkeep (.setCharset charset) : Procedure σ Fatal _).exec engine fuel m =
      (.ok (.ok true), m')) :
    Evolves [.charset] [] m m' ∧ m'.charset = some charset := by
  have happly : (Upkeep.setCharset charset).apply m = (true, m') := exec_upkeep_ok h
  change (if m.charset.isSome then (false, m) else (true, { m with charset := some charset })) =
    (true, m') at happly
  split at happly
  · exact nomatch (Prod.mk.inj happly).1
  · obtain ⟨-, rfl⟩ := Prod.mk.inj happly
    exact ⟨.of_touches { Touches.refl m with charset := by simp } (by simp), rfl⟩

theorem setBoot_ok {state : BootState}
    (h : (upkeep (.setBoot state) : Procedure σ Fatal _).exec engine fuel m =
      (.ok (.ok ()), m')) : m' = { m with boot := state } := by
  have happly : (Upkeep.setBoot state).apply m = ((), m') := exec_upkeep_ok h
  exact (Prod.mk.inj happly).2.symm

theorem attachPeer_ok {peer : ObjectId} {block : ThreadBlock}
    (hblock : m.thread? thread = some block)
    (h : (attachPeer thread peer).exec engine fuel m = (.ok (.ok ()), m')) :
    Evolves [] [] m m' ∧ m'.HasPeer thread block.handle peer := by
  have happly : (Access.attachPeer thread peer).apply m = (.ok (), m') :=
    Machine.apply_of_perform_access (perform_of_exec h)
  refine ⟨evolves_of_apply happly, ?_⟩
  change Machine.attachPeer thread peer m = _ at happly
  rw [Machine.attachPeer_apply, hblock] at happly
  dsimp only at happly
  split at happly
  · rename_i block' hattach
    obtain ⟨-, rfl⟩ := Prod.mk.inj happly
    unfold ThreadBlock.attach at hattach
    split at hattach
    · exact nomatch hattach
    · obtain rfl := Except.ok.inj hattach
      refine ⟨{ block with peer := some peer }, ?_, rfl, rfl⟩
      have hlt : thread.index < m.threads.size := (Array.getElem?_eq_some_iff.mp hblock).1
      exact Array.getElem?_setIfInBounds_self_of_lt hlt
  · exact nomatch (Prod.mk.inj happly).1

theorem setDelegate_ok {delegate : ObjectId}
    (h : (setDelegate delegate).exec engine fuel m = (.ok (.ok ()), m')) :
    Evolves [.delegate] [] m m' ∧
      m' = { m with loader := { m.loader with delegate := some delegate } } := by
  have happly : (Access.setDelegate delegate).apply m = (.ok (), m') :=
    Machine.apply_of_perform_access (perform_of_exec h)
  refine ⟨evolves_of_apply happly, ?_⟩
  change Machine.setDelegate delegate m = _ at happly
  rw [Machine.setDelegate, Machine.loading_apply, Loader.setDelegate_apply] at happly
  split at happly
  · cases (Prod.mk.inj happly).1
  · obtain ⟨-, rfl⟩ := Prod.mk.inj happly
    rfl

-- ---------------------------------------------------------------------------
-- The program's arguments
-- ---------------------------------------------------------------------------

/-- Interning leaves every object as it is, arrays too. -/
theorem get?_of_intern {text : String} {string id : ObjectId} {object : Object}
    (h : Machine.intern text m = (.ok string, m')) (hget : m.heap.get? id = some object) :
    m'.heap.get? id = some object := by
  rw [Machine.intern_apply] at h
  split at h
  · rename_i strings heap hintern
    obtain ⟨-, rfl⟩ := Prod.mk.inj h
    rcases StringPool.intern_ok hintern with ⟨-, -, rfl⟩ | ⟨-, type', hnew, -⟩
    · exact hget
    · obtain rfl := (Prod.mk.inj hnew).2
      exact Heap.get?_alloc_of_some hget
  · exact nomatch (Prod.mk.inj h).1

theorem get?_of_newArray {length : Nat} {array : ObjectId}
    (h : Machine.newArray type length m = (.ok array, m')) :
    ∃ value, m'.heap.get? array = some ⟨type, .array (Array.replicate length value)⟩ := by
  rw [Machine.newArray, Machine.allocating_apply] at h
  split at h
  · rename_i id heap hmake
    obtain ⟨rfl, rfl⟩ := Effect.eq_of_ok h
    obtain ⟨value, hmade⟩ := Heap.newArray_ok hmake
    obtain ⟨rfl, rfl⟩ := Prod.mk.inj hmade
    exact ⟨value, Heap.get?_alloc_self m.heap _⟩
  · exact nomatch (Prod.mk.inj h).1

theorem get?_of_setElement {array : ObjectId} {elements : Array Value} {index : Nat} {value : Value}
    (h : Machine.setElement array index value m = (.ok (), m'))
    (hget : m.heap.get? array = some ⟨type, .array elements⟩) :
    m'.heap.get? array = some ⟨type, .array (elements.setIfInBounds index value)⟩ := by
  rw [Machine.setElement, Machine.writing_apply] at h
  split at h
  · rename_i heap hwrite
    obtain ⟨-, rfl⟩ := Prod.mk.inj h
    obtain ⟨elements', hbody, -, rfl⟩ := Heap.setElement_ok hwrite
    rw [hget] at hbody
    obtain rfl := ObjectBody.array.inj (Option.some.inj hbody)
    change (m.heap.setBody array _).get? array = _
    rw [Heap.get?_setBody, if_pos rfl, hget]
    rfl
  · cases (Prod.mk.inj h).1

/-- The elements of an array from `front.length` on are overwritten with canonical strings. -/
theorem fillStrings_ok {array : ObjectId} {texts : List String} {front back : List Value}
    {elements : Array Value} (hget : m.heap.get? array = some ⟨type, .array elements⟩)
    (helements : elements.toList = front ++ back) (hlength : back.length = texts.length)
    (h : Machine.fillStrings array front.length texts m = (.ok (), m')) :
    ∃ elements' filled, m'.heap.get? array = some ⟨type, .array elements'⟩ ∧
      elements'.toList = front ++ filled ∧
      List.Forall₂ (fun text value => ∃ string, value = .object string ∧ m'.Canonical string text)
        texts filled := by
  -- the elements before `front.length` have been written, those of `back` are still to come
  induction texts generalizing m front back elements with
  | nil =>
    obtain ⟨-, rfl⟩ := Prod.mk.inj h
    obtain rfl := List.length_eq_zero_iff.mp hlength
    exact ⟨elements, [], hget, helements, .nil⟩
  | cons text texts ih =>
    obtain ⟨old, back, rfl⟩ := List.exists_cons_of_length_eq_add_one hlength
    rcases Effect.bind_cases h with ⟨string, middle, hintern, h⟩ | ⟨_, hr, -⟩
    swap
    · exact nomatch hr
    rcases Effect.bind_cases h with ⟨_, last, hset, h⟩ | ⟨_, hr, -⟩
    swap
    · exact nomatch hr
    have hset' := get?_of_setElement hset (get?_of_intern hintern hget)
    have hfront : (elements.setIfInBounds front.length (.object string)).toList =
        (front ++ [.object string]) ++ back := by
      simp [helements]
    obtain ⟨elements', filled, hget', helements', hfilled⟩ :=
      ih hset' hfront (Nat.succ.inj hlength) (by simpa using h)
    refine ⟨elements', .object string :: filled, hget', by simp [helements'], .cons ?_ hfilled⟩
    -- the string is canonical from when it was interned to the end
    have htouches := Machine.touches_setElement array front.length (.object string) middle
    rw [hset] at htouches
    have htouches' := Machine.touches_fillStrings array (front.length + 1) texts last
    rw [h] at htouches'
    exact ⟨string, rfl, (htouches.trans htouches').strings.lookup (canonical_of_intern hintern)⟩

theorem newStringArray_ok {texts : List String} {array : ObjectId}
    (h : (newStringArray texts).exec engine fuel m = (.ok (.ok array), m')) :
    Evolves [] [] m m' ∧ m'.StringArray array texts := by
  have happly : (Access.newStringArray texts).apply m = (.ok array, m') :=
    Machine.apply_of_perform_access (perform_of_exec h)
  refine ⟨evolves_of_apply happly, ?_⟩
  rcases Effect.bind_cases happly with ⟨found, loaded, hload, hrest⟩ | ⟨_, hr, -⟩
  swap
  · exact nomatch hr
  cases found with
  | none => exact nomatch (Prod.mk.inj hrest).1
  | some type =>
    rcases Effect.bind_cases hrest with ⟨array', made, hnew, hrest⟩ | ⟨_, hr, -⟩
    swap
    · exact nomatch hr
    rcases Effect.bind_cases hrest with ⟨_, filled, hfill, hrest⟩ | ⟨_, hr, -⟩
    swap
    · exact nomatch hr
    obtain ⟨rfl, rfl⟩ := Effect.eq_of_ok hrest
    have hfind := find?_of_load hload
    have htouches := Machine.touches_newArray type texts.length loaded
    rw [hnew] at htouches
    have htouches' := Machine.touches_fillStrings array' 0 texts made
    rw [hfill] at htouches'
    obtain ⟨value, hget⟩ := get?_of_newArray hnew
    obtain ⟨elements, values, hget', rfl, hvalues⟩ :=
      fillStrings_ok hget (List.nil_append _).symm (by simp) hfill
    exact ⟨type, elements, (htouches.trans htouches').table.find? hfind, hget', hvalues⟩

-- ---------------------------------------------------------------------------
-- Code of the program
-- ---------------------------------------------------------------------------

theorem perform_of_invokeRequired {method : MethodRef} {arguments : List Value}
    (h : (invokeRequired thread method arguments).exec engine fuel m = (.ok (.ok ()), m')) :
    ∃ result, Machine.perform engine fuel (.request (.invoke thread method arguments)) m =
      (.ok (.ok result), m') := by
  replace h := observe_bind_ok h
  obtain ⟨result, last, hinvoke, h⟩ := exec_bind_ok h
  obtain ⟨-, rfl⟩ := pure_ok h
  exact ⟨result, perform_of_exec (exec_orFatal_ok hinvoke)⟩

section Calls

variable (hengine : ∀ call, (engine.respond call).Only Request.Restrained)
  (hboot : m.boot ≠ .notBooted)

include hengine hboot

/-- A class that was initialised is initialised now, unless it counted as being initialised. -/
theorem initialized_ok (h : (initialized thread type).exec engine fuel m = (.ok (.ok ()), m')) :
    Evolves [] [] m m' ∧ (m.table.stateOf type = .beingInitialized ∨
      m'.table.stateOf type = .fullyInitialized) := by
  replace h := observe_bind_ok h
  have hinit : Machine.perform engine fuel (.request (.initClass thread type)) m =
      (.ok (.ok ()), m') := perform_of_exec (exec_orFatal_ok h)
  match fuel with
  | 0 => exact nomatch hinit
  | 1 => exact nomatch hinit
  | fuel + 2 =>
    obtain ⟨hevolves, hstate⟩ :=
      evolves_initialization (evolves_perform hengine (fuel + 1)).1 hinit hboot
    exact ⟨hevolves, hstate rfl⟩

theorem require_ok (hidle : m.Idle name)
    (h : (require thread name).exec engine fuel m = (.ok (.ok type), m')) :
    Evolves [] [] m m' ∧ m'.table.find? name = some type ∧ m'.Initialized name := by
  obtain ⟨found, loaded, hload, h⟩ := exec_bind_ok h
  obtain ⟨hevolves, hfind⟩ := loadRequired_ok hload
  obtain ⟨_, done, hinit, h⟩ := exec_bind_ok h
  obtain ⟨rfl, rfl⟩ := pure_ok h
  obtain ⟨hevolves', hstate⟩ := initialized_ok hengine (hevolves.started hboot) hinit
  have hfind' := hevolves'.touches.table.find? hfind
  obtain ⟨c, hget, -, hname⟩ := ClassTable.exists_named? hfind
  obtain ⟨c', hget', hnamed', -⟩ := ClassTable.exists_named? hfind'
  refine ⟨hevolves.trans hevolves', hfind', c', hnamed', ?_⟩
  rw [ClassTable.stateOf_of_get? hget, ClassTable.stateOf_of_get? hget'] at hstate
  exact hstate.resolve_left (hevolves.idle List.not_mem_nil hidle _ c hget hname)

/-- A call for the start's own sake. -/
theorem invokeRequired_ok {method : MethodRef} {arguments : List Value}
    (hplain : method.key.Plain)
    (h : (invokeRequired thread method arguments).exec engine fuel m = (.ok (.ok ()), m')) :
    Evolves [] (Call.mk thread method arguments).own m m' := by
  obtain ⟨result, hinvoke⟩ := perform_of_invokeRequired h
  obtain ⟨calls, hevolves, hshows⟩ := (evolves_perform hengine fuel).1
    (.invoke thread method arguments) trivial hinvoke hboot
  exact hshows hplain ▸ hevolves

/-- A call of a declared method, once its arguments have been made. -/
theorem callDeclared_ok {kind : MethodKind} {key : MethodKey}
    {arguments : Procedure σ Fatal (List Value)} (hplain : key.Plain) (hkey : key ≠ initializerKey)
    (hmake : ∀ values middle, arguments.exec engine fuel m = (.ok (.ok values), middle) →
      Evolves [] [] m middle)
    (h : (callDeclared thread kind type key arguments).exec engine fuel m = (.ok (.ok ()), m')) :
    ∃ method values middle, m.table.method? kind type key = some method ∧
      arguments.exec engine fuel m = (.ok (.ok values), middle) ∧
      Evolves [] [⟨thread, method, values⟩] middle m' := by
  obtain ⟨method, found, hfound, hrest⟩ := exec_bind_ok h
  obtain ⟨rfl, hmethod⟩ := declared_ok hfound
  obtain ⟨values, made, hvalues, hinvoke⟩ := exec_bind_ok hrest
  have hmade := hmake values made hvalues
  obtain ⟨-, hmethodKey⟩ := ClassTable.eq_of_method? hmethod
  have hinvoked := invokeRequired_ok hengine (hmade.started hboot) (hmethodKey ▸ hplain) hinvoke
  rw [Call.own_of_ne (hmethodKey ▸ hkey)] at hinvoked
  exact ⟨method, values, made, hmethod, hvalues, hinvoked⟩

/-- A call of a declared method with given arguments. -/
theorem callDeclared_pure_ok {kind : MethodKind} {key : MethodKey} {values : List Value}
    (hplain : key.Plain) (hkey : key ≠ initializerKey)
    (h : (callDeclared thread kind type key (pure values)).exec engine fuel m =
      (.ok (.ok ()), m')) :
    ∃ method, m.table.method? kind type key = some method ∧
      Evolves [] [⟨thread, method, values⟩] m m' := by
  obtain ⟨method, values', middle, hmethod, hvalues, hevolves⟩ :=
    callDeclared_ok hengine hboot hplain hkey (fun _ _ hpure => (pure_ok hpure).2.symm ▸ .refl m) h
  obtain ⟨rfl, rfl⟩ := pure_ok hvalues
  exact ⟨method, hmethod, hevolves⟩

/-- A call of a declared method with a canonical string among its arguments. -/
theorem callDeclared_intern_ok {kind : MethodKind} {key : MethodKey} {text : String}
    {values : ObjectId → List Value} (hplain : key.Plain) (hkey : key ≠ initializerKey)
    (h : (callDeclared thread kind type key (internRequired text >>= fun string =>
      pure (values string))).exec engine fuel m = (.ok (.ok ()), m')) :
    ∃ method string, m.table.method? kind type key = some method ∧ m'.Canonical string text ∧
      Evolves [] [⟨thread, method, values string⟩] m m' := by
  -- the only thing made for the call is the canonical string of the text
  have hmake : ∀ values' middle, (internRequired text >>= fun string =>
      pure (values string)).exec engine fuel m = (.ok (.ok values'), middle) →
      ∃ string, values' = values string ∧ Evolves [] [] m middle ∧
        middle.Canonical string text := by
    intro values' middle hmade
    obtain ⟨string, interned, hintern, hpure⟩ := exec_bind_ok hmade
    obtain ⟨rfl, rfl⟩ := pure_ok hpure
    exact ⟨string, rfl, internRequired_ok hintern⟩
  obtain ⟨method, values', middle, hmethod, hvalues, hcalls⟩ :=
    callDeclared_ok hengine hboot hplain hkey
      (fun values' middle hmade => (hmake values' middle hmade).choose_spec.2.1) h
  obtain ⟨string, rfl, hinterns, hcanonical⟩ := hmake values' middle hvalues
  exact ⟨method, string, hmethod, hcalls.canonical hcanonical, hinterns.trans hcalls⟩

end Calls

-- ---------------------------------------------------------------------------
-- Several classes
-- ---------------------------------------------------------------------------

/-- Classes that were required one after the other: all of them are found and initialised. -/
structure Gathered (found : List (String × ClassId)) (m m' : Machine σ) : Prop where
  evolves : Evolves [] [] m m'
  find? : ∀ {name type}, (name, type) ∈ found → m'.table.find? name = some type
  initialized : ∀ {name type}, (name, type) ∈ found → m'.Initialized name

namespace Gathered

variable {found : List (String × ClassId)} {m'' : Machine σ}

theorem refl (m : Machine σ) : Gathered [] m m := ⟨.refl m, nofun, nofun⟩

theorem evolve (h : Gathered found m m') (h' : Evolves [] [] m' m'') : Gathered found m m'' where
  evolves := h.evolves.trans h'
  find? hmem := h'.touches.table.find? (h.find? hmem)
  initialized hmem := h'.initialized List.not_mem_nil (h.initialized hmem)

theorem initialized_of_mem (h : Gathered found m m') (hname : name ∈ found.map Prod.fst) :
    m'.Initialized name := by
  obtain ⟨⟨_, type⟩, hmem, rfl⟩ := List.mem_map.mp hname
  exact h.initialized hmem

/-- One more class. -/
theorem require (h : Gathered found m m')
    (hengine : ∀ call, (engine.respond call).Only Request.Restrained)
    (hboot : m.boot ≠ .notBooted) (hidle : m.Idle name)
    (hrun : (Procedure.require thread name).exec engine fuel m' = (.ok (.ok type), m'')) :
    Gathered ((name, type) :: found) m m'' := by
  obtain ⟨hevolves, hfind, hinit⟩ := require_ok hengine (h.evolves.started hboot)
    (h.evolves.idle List.not_mem_nil hidle) hrun
  have hlater := h.evolve hevolves
  refine ⟨hlater.evolves, fun hmem => ?_, fun hmem => ?_⟩
  · rcases List.mem_cons.mp hmem with heq | hmem
    · obtain ⟨rfl, rfl⟩ := Prod.mk.inj heq
      exact hfind
    · exact hlater.find? hmem
  · rcases List.mem_cons.mp hmem with heq | hmem
    · obtain ⟨rfl, rfl⟩ := Prod.mk.inj heq
      exact hinit
    · exact hlater.initialized hmem

end Gathered

end ClassHost.Procedure
