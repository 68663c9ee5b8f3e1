import ClassHost.Proofs.Machine.CallStack
import ClassHost.Proofs.Machine.Initialization

/-!
# Invocations

A call of an overridden method runs the override. Any other call goes to the engine, with a note in
the journal before it and another one when the engine is back.

Nothing else writes to the journal, so the journal of a run can be read off its marks
(`Machine.events_run`): the calls that the one lists are the calls to the engine that the others are
about, and so are their returns.
-/

namespace ClassHost

variable {σ α : Type} {engine : Engine σ} {fuel : Nat} {thread : ThreadId} {method : MethodRef}
  {arguments : List Value} {entry : Override} {m m' : Machine σ} {step : Step σ}
  {marks : List (Mark σ)}

-- ---------------------------------------------------------------------------
-- Calls
-- ---------------------------------------------------------------------------

namespace Procedure

/-- A call of an overridden method runs the override. -/
theorem exec_invocation_of_find?
    (h : m.overrides.find? (m.className method.declaring) method.key = some entry) :
    exec engine (fuel + 1) (invocation thread method arguments) m =
      exec engine (fuel + 1) (runOverride thread method arguments entry) m := by
  rw [exec_invocation, h]

theorem asked_invocation_of_find?
    (h : m.overrides.find? (m.className method.declaring) method.key = some entry) :
    asked engine (fuel + 1) (invocation thread method arguments) m =
      ⟨.request (.access .observe), m⟩ ::
        asked engine (fuel + 1) (runOverride thread method arguments entry) m := by
  unfold invocation
  rw [asked_bind, asked_observe, exec_observe]
  dsimp only
  rw [h]
  rfl

/-- A call of any other method is noted, goes to the engine, and is noted again when it is back. -/
theorem asked_invocation_of_none
    (h : m.overrides.find? (m.className method.declaring) method.key = none) :
    asked engine (fuel + 1) (invocation thread method arguments) m =
      ⟨.request (.access .observe), m⟩ ::
        ⟨.upkeep (.note (.called ⟨thread, method, arguments⟩)), m⟩ ::
        ⟨.callEngine ⟨thread, method, arguments⟩, m.note (.called ⟨thread, method, arguments⟩)⟩ ::
        match Machine.perform engine (fuel + 1) (.callEngine ⟨thread, method, arguments⟩)
          (m.note (.called ⟨thread, method, arguments⟩)) with
        | (.ok reply, last) => [⟨.upkeep (.note (.returned reply.isOk)), last⟩]
        | (.error _, _) => [] := by
  unfold invocation
  rw [asked_bind, asked_observe, exec_observe]
  dsimp only
  rw [h]
  dsimp only
  rw [asked_bind, asked_upkeep, exec_upkeep, Machine.apply_note]
  dsimp only
  rw [asked_bind, asked_outcome, exec_outcome, asked_callEngine, exec_callEngine]
  -- whatever the engine returned, one note follows; nothing follows a call that was stopped
  rcases Machine.perform engine (fuel + 1) (.callEngine ⟨thread, method, arguments⟩)
    (m.note (.called ⟨thread, method, arguments⟩)) with ⟨_ | _ | _, _⟩ <;> rfl

end Procedure

-- ---------------------------------------------------------------------------
-- The journal and the marks
-- ---------------------------------------------------------------------------

/-- What a mark leaves in the journal. -/
def Mark.noted : Mark σ → List Event
  | begins (.callEngine call) _ => [.called call]
  | ends (.callEngine _) (.ok reply) _ => [.returned reply.isOk]
  | _ => []

/-- The journal gets what the marks of a stretch leave in it, and nothing else. -/
def Noted (m : Machine σ) (marks : List (Mark σ)) (m' : Machine σ) : Prop :=
  m'.events = m.events ++ marks.flatMap Mark.noted

theorem spans_noted : Spans fun _ (m : Machine σ) marks m' => Noted m marks m' where
  nil m := by simp [Noted]
  append h h' := by
    unfold Noted at h h' ⊢
    rw [h', h, List.flatMap_append, List.append_assoc]

/-- A step that leaves the journal to the steps that it asks for. -/
def Step.Silent : Step σ → Prop
  | .callEngine _ | .upkeep (.note _) => False
  | _ => True

theorem Step.silent_of_contained (h : step.Contained) : step.Silent := by
  cases step with
  | request op => exact trivial
  | _ => exact h.elim

theorem Step.silent_of_ordinary (h : step.Ordinary) : step.Silent := by
  cases step with
  | upkeep op => cases op <;> first | exact trivial | exact h.elim
  | request op => exact trivial
  | callEngine call => exact h.elim

namespace Machine

theorem events_apply (access : Access σ) (m : Machine σ) : (access.apply m).2.events = m.events :=
  congrArg Array.toList ((access.touches m).journal (by cases access <;> simp [Access.touched]))

theorem events_upkeep {upkeep : Upkeep} (h : Step.Silent (.upkeep upkeep : Step σ))
    (m : Machine σ) : (upkeep.apply m).2.events = m.events := by
  cases upkeep with
  | note event => exact h.elim
  | setBoot state => rfl
  | install entry => rfl
  | capture known =>
    rw [Upkeep.apply_capture]
    split <;> rfl
  | setCharset charset =>
    rw [Upkeep.apply_setCharset]
    split <;> rfl

/-- A silent step leaves in the journal what the steps leave that it asks for. -/
theorem noted_traceOf_succ (hsilent : step.Silent) {last : Machine σ}
    (hinner : Noted m (traceAll engine fuel (asked engine fuel step m)) last)
    (hlast : (perform engine (fuel + 1) step m).2.events = last.events) :
    Noted m (traceOf engine (fuel + 1) step m) (perform engine (fuel + 1) step m).2 := by
  have hbegins : (Mark.begins step m).noted = [] := by
    cases step <;> first | rfl | exact hsilent.elim
  have hends : ∀ result m', (Mark.ends step result m').noted = [] := by
    cases step <;> first | exact fun _ _ => rfl | exact hsilent.elim
  unfold Noted at hinner ⊢
  rw [hlast, hinner, traceOf_succ, List.flatMap_cons, List.flatMap_append, List.flatMap_singleton,
    hbegins, hends, List.nil_append, List.append_nil]

/-- An instant step that is no note leaves nothing in the journal. -/
theorem noted_instant (hstep : step.Instant) (engine : Engine σ) (fuel : Nat) (m : Machine σ) :
    (traceOf engine (fuel + 1) step m).flatMap Mark.noted = [] := by
  rw [traceOf_instant engine fuel hstep]
  cases step <;> first | rfl | exact hstep.elim

/-- A call to the engine: its marks stand around what the engine asks for in the meantime. -/
theorem noted_callEngine
    (ih : ∀ (request : Request σ) (m : Machine σ),
      Noted m (traceOf engine fuel (.request request) m)
        (perform engine fuel (.request request) m).2)
    {call : Call} {result : Except Halt (Step.callEngine (σ := σ) call).Reply}
    (hrun : perform engine (fuel + 1) (.callEngine call) m = (result, m')) :
    ∃ events, m'.events = m.events ++ events ∧
      (traceOf engine (fuel + 1) (.callEngine call) m).flatMap Mark.noted =
        .called call :: (events ++ (Mark.ends (.callEngine call) result m').noted) := by
  have hinner : Noted m (traceAll engine fuel (asked engine fuel (.callEngine call) m))
      (perform engine (fuel + 1) (.callEngine call) m).2 :=
    spans_asked spans_noted (fun request (_ : True) => ih request)
      (Program.only_true (engine.respond call)) m
  rw [hrun] at hinner
  refine ⟨_, hinner, ?_⟩
  rw [traceOf_succ, hrun, List.flatMap_cons, List.flatMap_append, List.flatMap_singleton]
  rfl

/-- From the note of a call to the note of its return. -/
theorem noted_invocation_of_none
    (ih : ∀ (request : Request σ) (m : Machine σ),
      Noted m (traceOf engine fuel (.request request) m)
        (perform engine fuel (.request request) m).2)
    (h : m.overrides.find? (m.className method.declaring) method.key = none) :
    (Procedure.invocation thread method arguments).Spanned (fun _ => Noted) engine (fuel + 1)
      m := by
  rcases hrun : perform engine (fuel + 1) (.callEngine ⟨thread, method, arguments⟩)
    (m.note (.called ⟨thread, method, arguments⟩)) with ⟨result, last⟩
  -- the events of the call itself are between the two notes
  obtain ⟨events, hevents, hmarks⟩ := noted_callEngine ih hrun
  have hobserve : ∀ m, (traceOf engine (fuel + 1) (.request (.access .observe)) m).flatMap
      Mark.noted = [] := noted_instant (Step.instant_access .observe) engine fuel
  have hnote : ∀ event m, (traceOf engine (fuel + 1) (.upkeep (.note event)) m).flatMap
      Mark.noted = [] := fun event m => by
    have hinstant : Step.Instant (.upkeep (.note event) : Step σ) := trivial
    exact noted_instant hinstant engine fuel m
  unfold Procedure.Spanned Noted
  rw [Procedure.asked_invocation_of_none h, Procedure.exec_invocation, h]
  dsimp only
  rw [hrun]
  simp only [traceAll_cons, List.flatMap_append, hobserve, hnote, hmarks, List.nil_append]
  -- a call that was stopped has no mark of a return, and no note of one either
  rcases result with halt | error | value
  · rw [hevents, events_note]
    simp [Mark.noted]
  · rw [events_note, hevents, events_note]
    simp [Mark.noted, hnote, Except.isOk, Except.toBool]
  · rw [events_note, hevents, events_note]
    simp [Mark.noted, hnote, Except.isOk, Except.toBool]

/-- **One step.** -/
theorem noted_perform (engine : Engine σ) (fuel : Nat) (step : Step σ) (hsilent : step.Silent)
    (m : Machine σ) :
    Noted m (traceOf engine fuel step m) (perform engine fuel step m).2 := by
  induction fuel using Nat.strongRecOn generalizing step m with
  | _ fuel ih =>
    -- by strong induction on the fuel: a call takes two levels, one for the invocation and one for
    -- the engine
    match fuel, step with
    | 0, _ => exact spans_noted.nil m
    | fuel + 1, .request (.access access) =>
      exact noted_traceOf_succ hsilent (spans_noted.nil m) (events_apply access m)
    | fuel + 1, .request .panic => exact noted_traceOf_succ hsilent (spans_noted.nil m) rfl
    | fuel + 1, .upkeep upkeep =>
      exact noted_traceOf_succ hsilent (spans_noted.nil m) (events_upkeep hsilent m)
    | fuel + 1, .request (.initClass thread type) =>
      have hinner := spans_asked spans_noted (ih fuel (Nat.lt_succ_self fuel))
        (Procedure.asks_initialization (fun _ => Step.silent_of_contained) (fun _ _ => trivial)
          (fun _ _ _ => trivial) thread type) m
      exact noted_traceOf_succ hsilent hinner rfl
    | fuel + 1, .request (.boot thread arguments) =>
      have hinner := spans_asked spans_noted (ih fuel (Nat.lt_succ_self fuel))
        (Procedure.asks_booting (fun _ => Step.silent_of_ordinary) (fun _ => trivial) thread
          arguments) m
      exact noted_traceOf_succ hsilent hinner rfl
    | fuel + 1, .request (.supervise entry arguments) =>
      have hinner := spans_asked spans_noted (ih fuel (Nat.lt_succ_self fuel))
        ((Procedure.asks_mainThread entry arguments).ordinary.mono fun _ => Step.silent_of_ordinary)
        m.entered
      -- ending the thread and settling the others leaves the journal as it is
      obtain ⟨registry, memory, hlast, -⟩ := supervised_cases
        ((Procedure.mainThread entry arguments).run.run (perform engine fuel)) m
      refine noted_traceOf_succ hsilent hinner ?_
      rw [perform, hlast]
      rfl
    | fuel + 1, .request (.invoke thread method arguments) =>
      refine noted_traceOf_succ hsilent ?_ rfl
      cases fuel with
      | zero => exact spans_noted.nil m
      | succ fuel =>
        -- a note is no silent step, so an invocation is taken apart here
        cases hfind : m.overrides.find? (m.className method.declaring) method.key with
        | none =>
          have hbelow : fuel < fuel + 1 + 1 := by omega
          exact noted_invocation_of_none
            (fun request m => ih fuel hbelow (.request request) trivial m) hfind
        | some entry =>
          have hinner := spans_asked spans_noted (ih (fuel + 1) (Nat.lt_succ_self _))
            ((Procedure.asks_runOverride thread method arguments entry).mono
              fun _ => Step.silent_of_contained) m
          have hobserve := noted_instant (Step.instant_access .observe) engine fuel m
          change Noted m (traceAll engine (fuel + 1)
            (Procedure.asked engine (fuel + 1) (Procedure.invocation thread method arguments) m))
            ((Procedure.invocation thread method arguments).exec engine (fuel + 1) m).2
          rw [Procedure.asked_invocation_of_find? hfind, Procedure.exec_invocation_of_find? hfind,
            traceAll_cons, Noted, List.flatMap_append, hobserve, List.nil_append]
          exact hinner

/-- **The journal of a run.** Whatever the guest and the engine do, the journal gets the calls to
the engine and their returns, as the marks of the run have them. -/
theorem events_run (engine : Engine σ) (fuel : Nat) (guest : Guest σ α) (m : Machine σ) :
    (run engine fuel guest m).2.events =
      m.events ++ (trace engine fuel guest m).flatMap Mark.noted :=
  spans_asked spans_noted
    (fun request (_ : True) => noted_perform engine fuel (.request request) trivial)
    (Program.only_true guest) m

end Machine

end ClassHost
