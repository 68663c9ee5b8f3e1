import ClassHost.Proofs.Machine.Access
import ClassHost.Proofs.Machine.Asks
import ClassHost.Proofs.Machine.Initialization
import Mathlib.Tactic.Tauto

/-!
# How a machine gets on

`Evolves` puts the frame of a machine and its journal together: what was touched, and which calls
were made for their own sake. Stretches of a run compose, touched aspects and calls both appended.

The main result is about what happens inside calls. An engine is `Restrained` if it does not set
states, roles, statics, fields or the delegate itself and runs no programs of its own. Whatever such
an engine asks for while a start is under way or over, no class, object, string or thread that was
there is touched, and no attempt is left open (`evolves_perform`). Initialising a class shows no
call of its own, and invoking a method that is not overridden shows that call and no other.
-/

namespace ClassHost

variable {σ α : Type} {m m' m'' : Machine σ} {touched touched' : List Aspect}
  {calls calls' : List Call}

-- ---------------------------------------------------------------------------
-- Evolving
-- ---------------------------------------------------------------------------

/-- What happened to a machine, and the calls that show. -/
structure Evolves (touched : List Aspect) (calls : List Call) (m m' : Machine σ) : Prop where
  touches : Touches (.journal :: touched) m m'
  journal : ∃ events, m'.events = m.events ++ events ∧ Closed calls events

namespace Evolves

theorem refl (m : Machine σ) : Evolves touched [] m m :=
  ⟨.refl m, [], by simp, .nil⟩

theorem trans (h : Evolves touched calls m m') (h' : Evolves touched' calls' m' m'') :
    Evolves (touched ++ touched') (calls ++ calls') m m'' := by
  obtain ⟨events, hevents, hclosed⟩ := h.journal
  obtain ⟨events', hevents', hclosed'⟩ := h'.journal
  refine ⟨(h.touches.trans h'.touches).mono ?_, events ++ events', ?_, hclosed.append hclosed'⟩
  · intro aspect
    simp only [List.mem_append, List.mem_cons]
    tauto
  · rw [hevents', hevents, List.append_assoc]

theorem mono (hsub : touched ⊆ touched') (h : Evolves touched calls m m') :
    Evolves touched' calls m m' :=
  ⟨h.touches.mono (List.cons_subset_cons _ hsub), h.journal⟩

/-- What leaves the journal alone shows nothing. -/
theorem of_touches (h : Touches touched m m') (hjournal : .journal ∉ touched) :
    Evolves touched [] m m' :=
  ⟨h.mono (List.subset_cons_self _ _), [],
    by rw [Machine.events, h.journal hjournal, Machine.events, List.append_nil], .nil⟩

theorem of_fresh {id : ObjectId} (hfresh : m.heap.get? id = none)
    (h : Evolves (.object id :: touched) calls m m') : Evolves touched calls m m' := by
  refine ⟨.of_fresh hfresh (h.touches.mono ?_), h.journal⟩
  intro aspect
  simp only [List.mem_cons]
  tauto

theorem access (access : Access σ) (m : Machine σ) :
    Evolves (access.touched m) [] m (access.apply m).2 :=
  of_touches (access.touches m) (by cases access <;> simp [Access.touched])

/-- A call to the engine, with all that happens until it returns. -/
theorem call {call : Call} {succeeded : Bool}
    (h : Evolves [] calls (m.note (.called call)) m') :
    Evolves [] call.own m (m'.note (.returned succeeded)) := by
  obtain ⟨events, hevents, hclosed⟩ := h.journal
  have hcalled : Touches [.journal] m (m.note (.called call)) :=
    { Touches.refl m with journal := by simp }
  have hreturned : Touches [.journal] m' (m'.note (.returned succeeded)) :=
    { Touches.refl m' with journal := by simp }
  refine ⟨(hcalled.trans_self h.touches).trans_self hreturned,
    .called call :: (events ++ [.returned succeeded]), ?_, hclosed.call succeeded⟩
  rw [Machine.events_note, hevents, Machine.events_note]
  simp

/-- A start that has begun is not undone. -/
theorem started (h : Evolves touched calls m m') (hboot : m.boot ≠ .notBooted) :
    m'.boot ≠ .notBooted :=
  h.touches.started hboot

end Evolves

-- ---------------------------------------------------------------------------
-- Attempts that are over
-- ---------------------------------------------------------------------------

/-- An attempt that is over has touched nothing that was not touched inside: the class was loaded,
and is loaded again or initialised. -/
theorem TableFrame.attempt {table table' : ClassTable} {id : ClassId} {state : ClassState}
    (hloaded : table.stateOf id = .loaded)
    (h : TableFrame touched (table.setState id .beingInitialized) table')
    (hstate : state ≠ .beingInitialized) :
    TableFrame touched table (table'.setState id state) := by
  obtain ⟨own, hown⟩ : ∃ c, table.get? id = some c :=
    ClassTable.exists_get?_of_stateOf (by rw [hloaded]; nofun)
  rw [ClassTable.stateOf_of_get? hown] at hloaded
  -- a class that was not there is another one
  have hothers : ∀ {other c}, (table'.setState id state).get? other = some c →
      table.get? other = none →
      table'.get? other = some c ∧ (table.setState id .beingInitialized).get? other = none := by
    intro other c hget hnone
    have hne : id ≠ other := by
      rintro rfl
      simp [hown] at hnone
    rw [ClassTable.get?_setState_of_ne hne] at hget ⊢
    exact ⟨hget, hnone⟩
  refine ⟨?_, ?_, ?_, ?_⟩
  · intro other c hget
    -- the own state is given back by the last store, so nothing has become of it
    by_cases hid : id = other
    · subst hid
      obtain rfl := Option.some.inj (hown.symm.trans hget)
      obtain ⟨c', hget', hframe⟩ := h.get? (ClassTable.get?_setState_self hown)
      refine ⟨{ c' with state }, ClassTable.get?_setState_self hget', hframe.name, hframe.kind,
        hframe.role, hframe.statics, fun _ => ?_, fun _ hfully => ?_⟩
      · simp [hstate, hloaded]
      · simp [hloaded] at hfully
    · obtain ⟨c', hget', hframe⟩ := h.get? ((ClassTable.get?_setState_of_ne hid).trans hget)
      exact ⟨c', (ClassTable.get?_setState_of_ne hid).trans hget', hframe⟩
  · intro name found hfind
    rw [ClassTable.find?_setState]
    exact h.find? ((ClassTable.find?_setState _ _ _ _).trans hfind)
  · intro other c hget hnone
    obtain ⟨hget', hnone'⟩ := hothers hget hnone
    exact h.fresh_role hget' hnone'
  · intro other c hget hnone
    obtain ⟨hget', hnone'⟩ := hothers hget hnone
    exact h.fresh_state hget' hnone'

/-- An array class that counts as initialised from now on, or the like. -/
theorem TableFrame.of_loaded {table : ClassTable} {id : ClassId} {state : ClassState}
    (hloaded : table.stateOf id = .loaded) (hstate : state ≠ .beingInitialized) :
    TableFrame touched table (table.setState id state) := by
  refine of_modify (fun _ => rfl) fun c hget => ?_
  rw [ClassTable.stateOf_of_get? hget] at hloaded
  exact ⟨rfl, rfl, fun _ => rfl, fun _ => rfl, fun _ => by simp [hstate, hloaded],
    fun _ hfully => by simp [hloaded] at hfully⟩

theorem Evolves.attempt {type : ClassId} (hloaded : m.table.stateOf type = .loaded)
    (h : Evolves [] [] (m.begin type) m') (succeeded : Bool) :
    Evolves [] [] m (m'.finish type succeeded) := by
  obtain ⟨events, hevents, hclosed⟩ := h.journal
  have hstate : (if succeeded then ClassState.fullyInitialized else .loaded) ≠
      .beingInitialized := by
    cases succeeded <;> nofun
  have htouches := h.touches
  -- an attempt writes to the class table only; the rest is as the initialisers have left it
  refine ⟨{
    table := .attempt hloaded htouches.table hstate
    heap := htouches.heap
    strings := htouches.strings
    threads := htouches.threads
    delegate := htouches.delegate
    boot := htouches.boot
    started := htouches.started
    wellKnown := htouches.wellKnown
    charset := htouches.charset
    journal := by simp
    delegateClass := htouches.delegateClass },
    events, hevents, hclosed⟩

-- ---------------------------------------------------------------------------
-- What happens inside calls
-- ---------------------------------------------------------------------------

/-- No module overrides methods of this key. -/
def MethodKey.Plain (key : MethodKey) : Prop :=
  ∀ entry : OverrideModule, entry.methods.lookup key = none

/-- The names of the methods that are overridden in some class. -/
def OverrideModule.methodNames : List String := ["forOutputStreamWriter", "load", "loadLibrary"]

theorem MethodKey.Plain.of_name {key : MethodKey} (h : key.name ∉ OverrideModule.methodNames) :
    key.Plain := by
  intro entry
  have hnames : ∀ method ∈ entry.methods, method.1.name ∈ OverrideModule.methodNames := by
    cases entry <;> decide
  rw [List.lookup_eq_none_iff]
  intro method hmem
  rw [bne_iff_ne]
  rintro rfl
  exact h (hnames method hmem)

theorem Overrides.find?_of_plain {key : MethodKey} (h : key.Plain) (overrides : Overrides)
    (className : String) : overrides.find? className key = none := by
  unfold find?
  split
  · exact h _
  · rfl

/-- Which calls of its own a request shows, where that is known. -/
def Request.Shows : Request σ → List Call → Prop
  | .access _, calls | .initClass _ _, calls => calls = []
  | .invoke thread method arguments, calls =>
    method.key.Plain → calls = (Call.mk thread method arguments).own
  | _, _ => True

/-- A run inside a call: it touches nothing. It is important that a start has begun, since there is
only one, and it touches much. -/
def Nested (m m' : Machine σ) : Prop := m.boot ≠ .notBooted → ∃ calls, Evolves [] calls m m'

theorem follows_nested : Follows (σ := σ) Nested fun _ _ => True where
  refl m _ := ⟨[], .refl m⟩
  trans h h' hboot := by
    obtain ⟨calls, hevolves⟩ := h hboot
    obtain ⟨calls', hevolves'⟩ := h' (hevolves.started hboot)
    exact ⟨calls ++ calls', hevolves.trans hevolves'⟩
  halt _ _ := trivial

section Nested

variable {engine : Engine σ} {fuel : Nat} {thread : ThreadId} {type : ClassId}
  (ih : ∀ request : Request σ, request.Restrained → ∀ {m a m'},
    Machine.perform engine (fuel + 1) (.request request) m = (.ok a, m') → m.boot ≠ .notBooted →
    ∃ calls, Evolves [] calls m m' ∧ request.Shows calls)

include ih

/-- A procedure that makes restrained requests only. -/
theorem nested_exec {ε : Type} {procedure : Procedure σ ε α}
    (hasks : procedure.Asks Step.Restrained) {r : Except ε α}
    (h : procedure.exec engine (fuel + 1) m = (.ok r, m')) : Nested m m' := by
  refine (leads_run follows_nested hasks fun step hstep =>
    ⟨fun hrun hboot => ?_, fun _ => trivial⟩).of_ok h
  match step with
  | .request request =>
    obtain ⟨calls, hevolves, -⟩ := ih request hstep hrun hboot
    exact ⟨calls, hevolves⟩

theorem evolves_initializeSuper {r : Except Throwable Unit}
    (h : (Procedure.initializeSuper thread type).exec engine (fuel + 1) m = (.ok r, m'))
    (hboot : m.boot ≠ .notBooted) : Evolves [] [] m m' := by
  unfold Procedure.initializeSuper at h
  rw [Procedure.exec_bind, Procedure.exec_observe] at h
  dsimp only at h
  cases hname : (m.table.get? type).bind LoadedClass.superName? with
  | none =>
    rw [hname] at h
    exact (Prod.mk.inj h).2 ▸ .refl m
  | some superName =>
    rw [hname] at h
    -- loading touches nothing, whether it succeeds or not
    rcases Procedure.exec_bind_cases h with
      ⟨found, middle, hload, h⟩ | ⟨e, -, hload⟩ | ⟨halt, hr, -⟩
    · obtain ⟨calls, hevolves, rfl⟩ := ih (.access (.load superName)) trivial
        (Procedure.perform_of_exec hload) hboot
      cases found with
      | none => exact (Prod.mk.inj h).2 ▸ hevolves
      | some superType =>
        obtain ⟨calls, hevolves', rfl⟩ := ih (.initClass thread superType) trivial
          (Procedure.perform_of_exec h) (hevolves.started hboot)
        exact hevolves.trans hevolves'
    · obtain ⟨calls, hevolves, rfl⟩ := ih (.access (.load superName)) trivial
        (Procedure.perform_of_exec hload) hboot
      exact hevolves
    · exact nomatch hr

theorem evolves_invokeInitializer {r : Except Throwable Unit}
    (h : (Procedure.invokeInitializer thread type).exec engine (fuel + 1) m = (.ok r, m'))
    (hboot : m.boot ≠ .notBooted) : Evolves [] [] m m' := by
  rw [Procedure.exec_invokeInitializer] at h
  cases hmethod : m.table.method? .static type Procedure.initializerKey with
  | none =>
    rw [hmethod] at h
    exact (Prod.mk.inj h).2 ▸ .refl m
  | some method =>
    rw [hmethod] at h
    -- a call of an initialiser does not show, whatever it returns
    have hkey : method.key = Procedure.initializerKey := (ClassTable.eq_of_method? hmethod).2
    have hplain : method.key.Plain := hkey ▸ MethodKey.Plain.of_name (by decide)
    have hinvoke : ∀ {result middle}, (Procedure.invoke thread method []).exec engine (fuel + 1) m =
        (.ok result, middle) → Evolves [] [] m middle := by
      intro result middle hrun
      obtain ⟨calls, hevolves, hshows⟩ := ih (.invoke thread method []) trivial
        (Procedure.perform_of_exec hrun) hboot
      have hown : calls = [] := by
        rw [hshows hplain, Call.own, Call.isInitializer, hkey]
        simp
      exact hown ▸ hevolves
    rcases Procedure.exec_bind_cases h with ⟨_, middle, hrun, h⟩ | ⟨e, -, hrun⟩ | ⟨halt, hr, -⟩
    · exact (Prod.mk.inj h).2 ▸ hinvoke hrun
    · exact hinvoke hrun
    · cases hr

theorem evolves_runInitializers {r : Except Throwable Unit}
    (h : (Procedure.runInitializers thread type).exec engine (fuel + 1) m = (.ok r, m'))
    (hboot : m.boot ≠ .notBooted) : Evolves [] [] m m' := by
  rcases Procedure.exec_bind_cases h with ⟨_, middle, hrun, h⟩ | ⟨e, -, hrun⟩ | ⟨halt, hr, -⟩
  · have hevolves := evolves_initializeSuper ih hrun hboot
    exact hevolves.trans (evolves_invokeInitializer ih h (hevolves.started hboot))
  · exact evolves_initializeSuper ih hrun hboot
  · exact nomatch hr

/-- Initialising a class touches nothing, shows nothing, and succeeds only with a class that is
initialised, or that was being initialised before. -/
theorem evolves_initialization {r : Except Throwable Unit}
    (h : (Procedure.initialization thread type).exec engine (fuel + 1) m = (.ok r, m'))
    (hboot : m.boot ≠ .notBooted) :
    Evolves [] [] m m' ∧ (r = .ok () → m.table.stateOf type = .beingInitialized ∨
      m'.table.stateOf type = .fullyInitialized) := by
  have hboot' : (m.begin type).boot ≠ .notBooted := hboot
  generalize hr : Except.ok r = r' at h
  -- one case for each way that a request can go
  cases Procedure.initializes_of_exec h with
  | skipped hstate => exact ⟨.refl m, fun _ => hstate.symm⟩
  | missing _ error =>
    refine ⟨.refl m, fun hok => ?_⟩
    cases hr
    exact nomatch hok
  | array hloaded =>
    obtain ⟨c, hget⟩ : ∃ c, m.table.get? type = some c :=
      ClassTable.exists_get?_of_stateOf (by rw [hloaded]; nofun)
    exact ⟨.of_touches (.withTable (.of_loaded hloaded nofun)) List.not_mem_nil,
      fun _ => .inr (ClassTable.stateOf_setState_self hget)⟩
  | succeeded hloaded hrun =>
    have hevolves := evolves_runInitializers ih hrun hboot'
    obtain ⟨c, hget⟩ : ∃ c, m.table.get? type = some c :=
      ClassTable.exists_get?_of_stateOf (by rw [hloaded]; nofun)
    obtain ⟨c', hget', -⟩ := hevolves.touches.table.get? (ClassTable.get?_setState_self hget)
    exact ⟨hevolves.attempt hloaded true, fun _ => .inr (ClassTable.stateOf_setState_self hget')⟩
  | failed hloaded hrun =>
    refine ⟨(evolves_runInitializers ih hrun hboot').attempt hloaded false, fun hok => ?_⟩
    cases hr
    exact nomatch hok
  | halted hloaded hrun => exact nomatch hr

/-- Invoking a method touches nothing. If the method is not overridden, the call shows. -/
theorem evolves_invocation {method : MethodRef} {arguments : List Value}
    (hcall : ∀ call {m : Machine σ} {r m'},
      Machine.perform engine (fuel + 1) (.callEngine call) m = (.ok r, m') → Nested m m')
    {r : Except Throwable (Option Value)}
    (h : (Procedure.invocation thread method arguments).exec engine (fuel + 1) m = (.ok r, m'))
    (hboot : m.boot ≠ .notBooted) :
    ∃ calls, Evolves [] calls m m' ∧
      (method.key.Plain → calls = (Call.mk thread method arguments).own) := by
  rw [Procedure.exec_invocation] at h
  cases hentry : m.overrides.find? (m.className method.declaring) method.key with
  | some entry =>
    rw [hentry] at h
    -- an override may call what it likes; nothing is said about its calls
    have hplain : ¬ method.key.Plain := fun hplain => by
      rw [Overrides.find?_of_plain hplain] at hentry
      exact nomatch hentry
    have hasks := (Procedure.asks_runOverride (σ := σ) thread method arguments entry).restrained
    obtain ⟨calls, hevolves⟩ := nested_exec ih hasks h hboot
    exact ⟨calls, hevolves, fun hkey => absurd hkey hplain⟩
  | none =>
    rw [hentry] at h
    dsimp only at h
    refine ⟨_, ?_, fun _ => rfl⟩
    -- the engine may have succeeded or failed
    split at h
    · rename_i hrun
      obtain ⟨calls, hevolves⟩ := hcall _ hrun hboot
      exact (Prod.mk.inj h).2 ▸ hevolves.call
    · rename_i hrun
      obtain ⟨calls, hevolves⟩ := hcall _ hrun hboot
      exact (Prod.mk.inj h).2 ▸ hevolves.call
    · exact nomatch h

end Nested

/-- A start that is asked for while there is one does nothing. -/
theorem eq_of_booting {engine : Engine σ} {fuel : Nat} {thread : ThreadId}
    {arguments : List String} {r : Except Fatal Unit}
    (h : (Procedure.booting thread arguments).exec engine fuel m = (.ok r, m'))
    (hboot : m.boot ≠ .notBooted) : m' = m := by
  cases fuel with
  | zero => exact nomatch h
  | succ fuel =>
    unfold Procedure.booting at h
    rw [Procedure.exec_bind, Procedure.exec_observe] at h
    dsimp only at h
    split at h
    · exact (Prod.mk.inj h).2.symm
    · exact (Prod.mk.inj h).2.symm
    · exact (Prod.mk.inj h).2.symm
    · rename_i hstate
      exact absurd hstate hboot

/-- **Inside calls.** What a restrained engine asks for touches nothing that was there, and shows
the calls it should. -/
theorem evolves_perform {engine : Engine σ}
    (hengine : ∀ call, (engine.respond call).Only Request.Restrained) (fuel : Nat) :
    (∀ request : Request σ, request.Restrained → ∀ {m a m'},
      Machine.perform engine fuel (.request request) m = (.ok a, m') → m.boot ≠ .notBooted →
      ∃ calls, Evolves [] calls m m' ∧ request.Shows calls) ∧
    (∀ call {m a m'}, Machine.perform engine fuel (.callEngine call) m = (.ok a, m') →
      Nested m m') := by
  induction fuel with
  | zero =>
    constructor
    · intro _ _ _ _ _ h
      exact nomatch h
    · intro _ _ _ _ h
      exact nomatch h
  | succ fuel ih =>
    constructor
    · intro request hrequest m a m' h hboot
      match request with
      | .access access =>
        -- restrained accesses touch nothing that was there
        have hevolves := Evolves.access access m
        rw [Machine.apply_of_perform_access h] at hevolves
        have htouched : access.touched m = [] := by
          cases access <;> first | rfl | exact hrequest.elim
        exact ⟨[], htouched ▸ hevolves, rfl⟩
      | .initClass thread type =>
        cases fuel with
        | zero => exact nomatch h
        | succ fuel => exact ⟨[], (evolves_initialization ih.1 h hboot).1, rfl⟩
      | .invoke thread method arguments =>
        cases fuel with
        | zero => exact nomatch h
        | succ fuel => exact evolves_invocation ih.1 ih.2 h hboot
      | .boot thread arguments =>
        -- there is no second start
        obtain rfl := eq_of_booting h hboot
        exact ⟨[], .refl _, trivial⟩
      | .panic => exact nomatch h
    · intro call m a m' h
      refine (leads_run follows_nested (hengine call) fun request hrequest =>
        ⟨fun hrun hboot => ?_, fun _ => trivial⟩).of_ok h
      obtain ⟨calls, hevolves, -⟩ := ih.1 request hrequest hrun hboot
      exact ⟨calls, hevolves⟩

end ClassHost
