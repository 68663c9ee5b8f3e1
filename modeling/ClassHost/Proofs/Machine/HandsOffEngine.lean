import ClassHost.Proofs.Machine.AloofEngine
import ClassHost.Proofs.Machine.Invocation

/-!
# Engines that do not touch the machine

Calls to an engine that is `HandsOff` change nothing but the memory of the engine. What they return,
or fail with, is up to it. With such an engine, initialising a class is one attempt inside the
other, each of which ends with the initialiser of its class. So one level says it all:

* the super class comes first, if the class names one and it loads
  (`exec_initializeSuper`);
* then the initialiser of the class is invoked, if there is one, and what the engine answers is what
  becomes of the attempt (`runsOwn_invokeInitializer`);
* `perform_initClass_of_ok` and `perform_initClass_of_error` put the two together.

What the engine was asked and what it answered is read off the trace of the run (`answers`).
-/

namespace ClassHost

variable {σ ε α : Type} {engine : Engine σ} {fuel : Nat} {m m' middle : Machine σ}
  {thread : ThreadId} {type superType : ClassId} {superName : String}

/-- Calls change nothing but the memory of the engine, whatever they return. -/
def Engine.HandsOff (engine : Engine σ) : Prop :=
  ∀ call, (engine.respond call).Only Request.Private

-- ---------------------------------------------------------------------------
-- Answers
-- ---------------------------------------------------------------------------

/-- A call to the engine and what the engine returned. -/
structure Answer where
  call : Call
  result : Except Throwable (Option Value)

/-- The answer that is given at a mark. -/
def Mark.answer? : Mark σ → Option Answer
  | ends (.callEngine call) (.ok result) _ => some ⟨call, result⟩
  | _ => none

/-- What the engine answered in a run, in the order of the answers. -/
def answers (marks : List (Mark σ)) : List Answer := marks.filterMap Mark.answer?

@[simp] theorem answers_nil : answers ([] : List (Mark σ)) = [] := rfl

@[simp] theorem answers_append (marks marks' : List (Mark σ)) :
    answers (marks ++ marks') = answers marks ++ answers marks' :=
  List.filterMap_append

namespace Machine

/-- What happens inside a step that is no call to the engine is all that is answered in it. -/
theorem answers_traceOf_succ {step : Step σ} (h : ∀ call, step ≠ .callEngine call) :
    answers (traceOf engine (fuel + 1) step m) =
      answers (traceAll engine fuel (asked engine fuel step m)) := by
  have hends : ∀ result last, (Mark.ends step result last).answer? = none := by
    intro result last
    cases step with
    | callEngine call => exact absurd rfl (h call)
    | _ => rfl
  rw [traceOf_succ, answers, List.filterMap_cons_none (by rfl), List.filterMap_append]
  simp [hends, answers]

theorem answers_traceOf_instant {step : Step σ} (h : step.Instant) :
    answers (traceOf engine fuel step m) = [] := by
  cases fuel with
  | zero => rfl
  | succ fuel =>
    rw [answers_traceOf_succ (by rintro call rfl; exact h), asked_instant h]
    rfl

@[simp] theorem answers_traceOf_access (access : Access σ) (m : Machine σ) :
    answers (traceOf engine fuel (.request (.access access)) m) = [] :=
  answers_traceOf_instant trivial

@[simp] theorem answers_traceOf_upkeep (upkeep : Upkeep) (m : Machine σ) :
    answers (traceOf engine fuel (.upkeep upkeep) m) = [] :=
  answers_traceOf_instant trivial

theorem answers_traceAll_instant {steps : List (Asked σ)} (h : ∀ part ∈ steps, part.step.Instant) :
    answers (traceAll engine fuel steps) = [] := by
  induction steps with
  | nil => rfl
  | cons part steps ih =>
    rw [traceAll_cons, answers_append, answers_traceOf_instant (h part List.mem_cons_self),
      ih fun other hmem => h other (List.mem_cons_of_mem _ hmem)]
    rfl

end Machine

-- ---------------------------------------------------------------------------
-- Calls
-- ---------------------------------------------------------------------------

theorem Request.Private.instant {request : Request σ} (h : request.Private) :
    Step.Instant (.request request) := by
  cases request with
  | access access => exact trivial
  | _ => exact h.elim

namespace Machine

/-- A private call comes to an end, with fuel for its requests. -/
theorem run_of_private (engine : Engine σ) (fuel : Nat) {p : Guest σ α}
    (h : p.Only Request.Private) (m : Machine σ) :
    ∃ a memory, run engine (fuel + 1) p m = (.ok a, { m with memory }) := by
  induction p generalizing m with
  | done result => exact ⟨result, m.memory, rfl⟩
  | ask request next ih =>
    obtain ⟨hprivate, hnext⟩ := h
    match request, next, ih, hprivate, hnext with
    | .access .observe, next, ih, _, hnext => exact ih m (hnext m) m
    | .access (.remember memory), next, ih, _, hnext =>
      obtain ⟨a, last, hrun⟩ := ih () (hnext ()) { m with memory }
      exact ⟨a, last, hrun⟩

/-- A call is answered, and that is all that happens. -/
theorem perform_callEngine_of_handsOff (hengine : engine.HandsOff) (fuel : Nat) (call : Call)
    (m : Machine σ) :
    ∃ result memory,
      perform engine (fuel + 2) (.callEngine call) m = (.ok result, { m with memory }) ∧
      answers (traceOf engine (fuel + 2) (.callEngine call) m) = [⟨call, result⟩] := by
  obtain ⟨result, memory, hrun⟩ := run_of_private engine fuel (hengine call) m
  have hperform : perform engine (fuel + 2) (.callEngine call) m =
      (.ok result, { m with memory }) := hrun
  refine ⟨result, memory, hperform, ?_⟩
  -- what the engine asks for meanwhile is instant, and no call
  have hinner : answers (traceAll engine (fuel + 1) (asked engine (fuel + 1) (.callEngine call) m)) =
      [] := by
    refine answers_traceAll_instant fun part hpart => ?_
    obtain ⟨request, hprivate, hstep⟩ := (hengine call).of_mem_asked hpart
    exact hstep ▸ hprivate.instant
  rw [traceOf_succ, hperform, answers, List.filterMap_cons_none (by rfl), List.filterMap_append]
  change answers _ ++ _ = _
  rw [hinner]
  rfl

end Machine

/-- A method that is not overridden is run by the engine, and what it answers is what becomes of the
invocation. -/
theorem Machine.perform_invoke_of_handsOff (hengine : engine.HandsOff) (fuel : Nat)
    (thread : ThreadId) {method : MethodRef} (hplain : method.key.Plain) (arguments : List Value)
    (m : Machine σ) :
    ∃ result journal memory,
      perform engine (fuel + 3) (.request (.invoke thread method arguments)) m =
        (.ok result, { m with journal, memory }) ∧
      answers (traceOf engine (fuel + 3) (.request (.invoke thread method arguments)) m) =
        [⟨⟨thread, method, arguments⟩, result⟩] := by
  obtain ⟨result, memory, hcall, hanswers⟩ := perform_callEngine_of_handsOff hengine fuel
    ⟨thread, method, arguments⟩ (m.note (.called ⟨thread, method, arguments⟩))
  have hrun : perform engine (fuel + 3) (.request (.invoke thread method arguments)) m =
      (Procedure.invocation thread method arguments).exec engine (fuel + 2) m := rfl
  have hinner : answers (traceOf engine (fuel + 3) (.request (.invoke thread method arguments)) m) =
      answers (traceAll engine (fuel + 2)
        ((Procedure.invocation thread method arguments).asked engine (fuel + 2) m)) :=
    answers_traceOf_succ fun call hcall => by cases hcall
  -- the call is not overridden, so it gets to the engine
  -- the call is not overridden, so it gets to the engine
  rw [hinner, Procedure.asked_invocation_of_none (Overrides.find?_of_plain hplain _ _), hcall, hrun,
    Procedure.exec_invocation, Overrides.find?_of_plain hplain]
  dsimp only
  rw [hcall]
  cases result with
  | ok value => exact ⟨.ok value, _, _, rfl, by simp [hanswers]⟩
  | error error => exact ⟨.error error, _, _, rfl, by simp [hanswers]⟩

-- ---------------------------------------------------------------------------
-- The super class
-- ---------------------------------------------------------------------------

namespace Procedure

/-- There is nothing to do for a class that names no super class. -/
theorem exec_initializeSuper_of_root
    (h : (m.table.get? type).bind LoadedClass.superName? = none) :
    (initializeSuper thread type).exec engine (fuel + 1) m = (.ok (.ok ()), m) := by
  unfold initializeSuper
  rw [exec_bind, exec_observe]
  dsimp only
  rw [h]
  rfl

theorem asked_initializeSuper_of_root
    (h : (m.table.get? type).bind LoadedClass.superName? = none) :
    (initializeSuper thread type).asked engine (fuel + 1) m = [⟨.request (.access .observe), m⟩] := by
  unfold initializeSuper
  rw [asked_bind, asked_observe, exec_observe]
  dsimp only
  rw [h]
  rfl

/-- A super class that is named is loaded and then initialised; what becomes of that is what becomes
of it all. -/
theorem exec_initializeSuper (h : (m.table.get? type).bind LoadedClass.superName? = some superName) :
    (initializeSuper thread type).exec engine (fuel + 1) m =
      match Machine.load superName m with
      | (.error error, last) => (.ok (.error error), last)
      | (.ok none, last) =>
        (.ok (.error (.internal (.superClassNotFound superName (m.className type)))), last)
      | (.ok (some superType), last) =>
        Machine.perform engine (fuel + 1) (.request (.initClass thread superType)) last := by
  have hload : (load superName).exec engine (fuel + 1) m =
      (.ok (Machine.load superName m).1, (Machine.load superName m).2) := exec_load superName
  unfold initializeSuper
  rw [exec_bind, exec_observe]
  dsimp only
  rw [h]
  dsimp only
  rw [exec_bind, hload]
  -- what becomes of loading decides: an error, no class, or a class to initialise
  rcases Machine.load superName m with ⟨error | _ | superType, last⟩
  · rfl
  · rfl
  · exact exec_initClass thread superType

theorem asked_initializeSuper
    (h : (m.table.get? type).bind LoadedClass.superName? = some superName) :
    (initializeSuper thread type).asked engine (fuel + 1) m =
      [⟨.request (.access .observe), m⟩, ⟨.request (.access (.load superName)), m⟩] ++
        match Machine.load superName m with
        | (.ok (some superType), last) => [⟨.request (.initClass thread superType), last⟩]
        | _ => [] := by
  have hload : (load superName).exec engine (fuel + 1) m =
      (.ok (Machine.load superName m).1, (Machine.load superName m).2) := exec_load superName
  have hasked : (load superName).asked engine (fuel + 1) m =
      [⟨.request (.access (.load superName)), m⟩] := asked_call _
  unfold initializeSuper
  rw [asked_bind, asked_observe, exec_observe]
  dsimp only
  rw [h]
  dsimp only
  rw [asked_bind, hasked, hload]
  -- only a class that was found is asked for
  rcases Machine.load superName m with ⟨error | _ | superType, last⟩
  · rfl
  · rfl
  · dsimp only
    rw [asked_initClass]
    rfl

-- ---------------------------------------------------------------------------
-- The initialiser of the class
-- ---------------------------------------------------------------------------

/-- What running the initialiser of a class comes to: what was answered, what is returned, and what
is left. -/
inductive RunsOwn (thread : ThreadId) (type : ClassId) (m : Machine σ) :
    List Answer → Except Throwable Unit → Machine σ → Prop where
  | none (h : m.table.method? .static type initializerKey = none) :
      RunsOwn thread type m [] (.ok ()) m
  | returned {method : MethodRef} {value : Option Value} {journal : Array Event} {memory : σ}
      (h : m.table.method? .static type initializerKey = some method) :
      RunsOwn thread type m [⟨⟨thread, method, []⟩, .ok value⟩] (.ok ()) { m with journal, memory }
  | failed {method : MethodRef} {error : Throwable} {journal : Array Event} {memory : σ}
      (h : m.table.method? .static type initializerKey = some method) :
      RunsOwn thread type m [⟨⟨thread, method, []⟩, .error error⟩] (.error error)
        { m with journal, memory }

theorem RunsOwn.table {told : List Answer} {r : Except Throwable Unit}
    (h : RunsOwn thread type m told r m') : m'.table = m.table := by
  cases h <;> rfl

/-- **The initialiser of a class** is invoked on the thread without arguments, if there is one. -/
theorem runsOwn_invokeInitializer (hengine : engine.HandsOff) (fuel : Nat) (thread : ThreadId)
    (type : ClassId) (m : Machine σ) :
    ∃ r m', (invokeInitializer thread type).exec engine (fuel + 3) m = (.ok r, m') ∧
      RunsOwn thread type m (answers (Machine.traceAll engine (fuel + 3)
        ((invokeInitializer thread type).asked engine (fuel + 3) m))) r m' := by
  rw [exec_invokeInitializer, asked_invokeInitializer, Machine.traceAll_cons, answers_append,
    Machine.answers_traceOf_access]
  cases hmethod : m.table.method? .static type initializerKey with
  | none => exact ⟨.ok (), m, rfl, .none hmethod⟩
  | some method =>
    -- initialisers are never overridden
    have hplain : method.key.Plain :=
      (ClassTable.eq_of_method? hmethod).2 ▸ MethodKey.Plain.of_name (by decide)
    obtain ⟨result, journal, memory, hrun, hanswers⟩ := Machine.perform_invoke_of_handsOff
      hengine fuel thread hplain [] m
    dsimp only
    rw [Machine.traceAll_cons, Machine.traceAll_nil, List.append_nil, hanswers, exec_bind,
      exec_invoke, hrun]
    cases result with
    | ok value => exact ⟨.ok (), _, rfl, .returned hmethod⟩
    | error error => exact ⟨.error error, _, rfl, .failed hmethod⟩

end Procedure

-- ---------------------------------------------------------------------------
-- One level
-- ---------------------------------------------------------------------------

namespace Machine

open Procedure

/-- Opening and closing an attempt is nothing that the engine is asked for. -/
theorem answers_initClass (hloaded : m.table.stateOf type = .loaded)
    (hinstance : ((m.table.get? type).map LoadedClass.isArray).getD false = false) :
    answers (traceOf engine (fuel + 2) (.request (.initClass thread type)) m) =
      answers (traceAll engine (fuel + 1)
        ((runInitializers thread type).asked engine (fuel + 1) (m.begin type))) := by
  rw [answers_traceOf_succ (fun call hcall => by cases hcall), asked_initClass,
    asked_initialization_of_loaded hloaded hinstance,
    traceAll_append, traceAll_append, answers_append, answers_append,
    answers_traceAll_instant (instant_openingSteps type m),
    answers_traceAll_instant (instant_closing type _), List.nil_append, List.append_nil]

section Level

variable (hloaded : m.table.stateOf type = .loaded)
  (hinstance : ((m.table.get? type).map LoadedClass.isArray).getD false = false)

include hloaded hinstance

/-- **A super class that fails.** The class is given back, and its initialiser is not invoked. -/
theorem perform_initClass_of_error {error : Throwable}
    (hsuper : (initializeSuper thread type).exec engine (fuel + 1) (m.begin type) =
      (.ok (.error error), middle)) :
    perform engine (fuel + 2) (.request (.initClass thread type)) m =
      (.ok (.error error), middle.finish type false) ∧
    answers (traceOf engine (fuel + 2) (.request (.initClass thread type)) m) =
      answers (traceAll engine (fuel + 1)
        ((initializeSuper thread type).asked engine (fuel + 1) (m.begin type))) := by
  have hrun : (runInitializers thread type).exec engine (fuel + 1) (m.begin type) =
      (.ok (.error error), middle) := exec_bind_of_error hsuper
  rw [answers_initClass hloaded hinstance, perform_initClass,
    exec_initialization_of_loaded hloaded hinstance, hrun]
  refine ⟨rfl, ?_⟩
  -- the own initialiser is not asked for
  rw [runInitializers, asked_bind, hsuper]
  dsimp only
  rw [List.append_nil]

/-- **A super class that is ready.** The initialiser of the class itself decides. -/
theorem perform_initClass_of_ok (hengine : engine.HandsOff)
    (hsuper : (initializeSuper thread type).exec engine (fuel + 3) (m.begin type) =
      (.ok (.ok ()), middle)) :
    ∃ told r last, RunsOwn thread type middle told r last ∧
      perform engine (fuel + 4) (.request (.initClass thread type)) m =
        (.ok r, last.finish type r.isOk) ∧
      answers (traceOf engine (fuel + 4) (.request (.initClass thread type)) m) =
        answers (traceAll engine (fuel + 3)
          ((initializeSuper thread type).asked engine (fuel + 3) (m.begin type))) ++ told := by
  obtain ⟨r, last, hown, hruns⟩ := runsOwn_invokeInitializer hengine fuel thread type middle
  have hrun : (runInitializers thread type).exec engine (fuel + 3) (m.begin type) = (.ok r, last) :=
    (exec_bind_of_ok hsuper).trans hown
  -- what the own initialiser was told comes last
  refine ⟨_, r, last, hruns, ?_, ?_⟩
  · rw [perform_initClass, exec_initialization_of_loaded hloaded hinstance, hrun]
    cases r <;> rfl
  · rw [answers_initClass hloaded hinstance, runInitializers, asked_bind, hsuper, traceAll_append,
      answers_append]

end Level

end Machine

/-- An engine that answers and does nothing else; the initialiser of the first class fails. -/
def answeringEngine : Engine Unit where
  respond call :=
    .done (if call.method.declaring = ⟨0⟩ then .error (.internal .noDefaultCharset) else .ok none)

theorem handsOff_answeringEngine : answeringEngine.HandsOff := fun _ => trivial

/-- One of two classes that are each other's super class has been loaded. -/
def circleMachine : Machine Unit := (Machine.load "A" (.new circlePath none ())).2

end ClassHost
