import ClassHost.Proofs.Boot.Conduct
import ClassHost.Proofs.Boot.Once
import ClassHost.Proofs.Machine.InitializationSteps

/-!
# The first failure ends a start

A start runs code in two ways. It initialises classes, which runs their initialisers and those of
their super classes, and it invokes methods. Either way the engine is called, and what it is called
for may call it again. A call is the start's own if no other call is open around it.

If an own call fails, then every step around it fails with the same error, up to a step that the
start itself has asked for (`stops_perform`). The start heeds that: it fails in its turn, and the
failure names the class or the method of that step (`Asked.Blames`). Nothing is asked of the engine
any more. A required class that is not found ends the start in the same way. `first_failure` puts it
together.
-/

namespace ClassHost

variable {σ ε α : Type}

-- ---------------------------------------------------------------------------
-- Calls to the engine
-- ---------------------------------------------------------------------------

/-- The engine is about to be called. -/
def Mark.CallsEngine : Mark σ → Prop
  | begins (.callEngine _) _ => True
  | _ => False

/-- The engine is not called at any of these marks. -/
def Silent (marks : List (Mark σ)) : Prop := ∀ mark ∈ marks, ¬ mark.CallsEngine

/-- No call to the engine is open around whatever is on top. -/
def Unnested (frames : List (Asked σ)) : Prop :=
  ∀ frame ∈ frames.tail, ∀ call, frame.step ≠ .callEngine call

/-- The error that a step failed with. -/
def Step.failure : (step : Step σ) → step.Reply → Option Throwable
  | .request (.initClass _ _), .error error => some error
  | .request (.invoke _ _ _), .error error => some error
  | .callEngine _, .error error => some error
  | _, _ => none

/-- A step that an initialisation or an invocation asks for. -/
def Step.Inner : Step σ → Prop
  | .request (.access _) | .request (.initClass _ _) | .request (.invoke _ _ _) => True
  | .callEngine _ | .upkeep _ => True
  | _ => False

variable {engine : Engine σ} {fuel : Nat} {step : Step σ} {m m' : Machine σ} {thread : ThreadId}
  {frames : List (Asked σ)} {before after : List (Mark σ)}

theorem silent_nil : Silent ([] : List (Mark σ)) := fun _ hmem => absurd hmem List.not_mem_nil

theorem silent_append {marks marks' : List (Mark σ)} (h : Silent marks) (h' : Silent marks') :
    Silent (marks ++ marks') :=
  List.forall_mem_append.mpr ⟨h, h'⟩

theorem silent_ends {result : Except Halt step.Reply} : Silent [.ends step result m] := by
  intro mark hmem
  rw [List.mem_singleton.mp hmem]
  exact id

theorem silent_of_instant (hstep : step.Instant) : Silent (Machine.traceOf engine fuel step m) := by
  cases fuel with
  | zero => exact silent_nil
  | succ fuel =>
    rw [Machine.traceOf_succ, Machine.asked_instant hstep]
    refine List.forall_mem_cons.mpr ⟨?_, silent_ends⟩
    match step, hstep with
    | .request (.access _), _ | .upkeep _, _ => exact id

theorem silent_of_instants {parts : List (Asked σ)} (h : ∀ part ∈ parts, part.step.Instant) :
    Silent (Machine.traceAll engine fuel parts) := by
  induction parts with
  | nil => exact silent_nil
  | cons part parts ih =>
    exact silent_append (silent_of_instant (h part List.mem_cons_self))
      (ih fun other hmem => h other (List.mem_cons_of_mem _ hmem))

namespace Procedure

-- ---------------------------------------------------------------------------
-- How initialisations and invocations conduct themselves
-- ---------------------------------------------------------------------------

/-- A procedure that passes on what the steps it asks for fail with. -/
abbrev PassesOn (engine : Engine σ) (fuel : Nat) (procedure : Procedure σ Throwable α)
    (m : Machine σ) : Prop :=
  Conducts (fun part => part.step.Inner) (fun part => part.step.failure) engine fuel procedure m

theorem passesOn_access {access : Access σ} {procedure : Procedure σ Throwable α}
    (hasked : asked engine fuel procedure m = [⟨.request (.access access), m⟩]) :
    PassesOn engine fuel procedure m :=
  conducts_of_step hasked trivial fun _ _ error _ (hfailure : none = some error) =>
    nomatch hfailure

theorem passesOn_observe_bind {f : Machine σ → Procedure σ Throwable α}
    (hf : PassesOn engine fuel (f m) m) : PassesOn engine fuel (observe >>= f) m :=
  conducts_observe_bind trivial (fun _ => rfl) hf

theorem passesOn_note (event : Event) (m : Machine σ) :
    PassesOn engine fuel (upkeep (.note event) : Procedure σ Throwable _) m :=
  conducts_upkeep trivial fun _ => rfl

theorem passesOn_initClass (thread : ThreadId) (type : ClassId) (m : Machine σ) :
    PassesOn engine fuel (initClass thread type) m := by
  refine conducts_of_step (asked_initClass thread type) trivial fun reply m' e hrun hfailure => ?_
  match reply, hrun, hfailure with
  | .error error, hrun, hfailure =>
    obtain rfl := Option.some.inj hfailure
    exact ⟨m', (exec_initClass thread type).trans hrun⟩

theorem passesOn_invoke (thread : ThreadId) (method : MethodRef) (arguments : List Value)
    (m : Machine σ) : PassesOn engine fuel (invoke thread method arguments) m := by
  refine conducts_of_step (asked_invoke thread method arguments) trivial
    fun reply m' e hrun hfailure => ?_
  match reply, hrun, hfailure with
  | .error error, hrun, hfailure =>
    obtain rfl := Option.some.inj hfailure
    exact ⟨m', (exec_invoke thread method arguments).trans hrun⟩

theorem passesOn_callEngine (call : Call) (m : Machine σ) :
    PassesOn engine fuel (callEngine call) m := by
  refine conducts_of_step (asked_callEngine call) trivial fun reply m' e hrun hfailure => ?_
  match reply, hrun, hfailure with
  | .error error, hrun, hfailure =>
    obtain rfl := Option.some.inj hfailure
    exact ⟨m', (exec_callEngine call).trans hrun⟩

theorem passesOn_initializeSuper (thread : ThreadId) (type : ClassId) (m : Machine σ) :
    PassesOn engine fuel (initializeSuper thread type) m := by
  refine passesOn_observe_bind ?_
  cases (m.table.get? type).bind LoadedClass.superName? with
  | none => exact conducts_pure ()
  | some superName =>
    refine conducts_bind (passesOn_access (asked_call _)) fun found _ _ => ?_
    cases found with
    | none => exact conducts_throw _
    | some superType => exact passesOn_initClass thread superType _

theorem passesOn_invokeInitializer (thread : ThreadId) (type : ClassId) (m : Machine σ) :
    PassesOn engine fuel (invokeInitializer thread type) m := by
  refine passesOn_observe_bind ?_
  cases m.table.method? .static type initializerKey with
  | none => exact conducts_pure ()
  | some method =>
    exact conducts_bind (passesOn_invoke thread method [] _) fun _ _ _ => conducts_pure ()

/-- An attempt takes back what it has done to the class, and fails as its initialisers did. -/
theorem passesOn_attempt (thread : ThreadId) (type : ClassId) (m : Machine σ) :
    PassesOn engine fuel (attempt thread type) m := by
  refine conducts_outcome_bind
    (conducts_bind (passesOn_initializeSuper thread type m) fun _ middle _ =>
      passesOn_invokeInitializer thread type middle) (fun result middle _ => ?_)
    fun error middle hfuel _ => ?_
  · cases result with
    | ok _ => exact passesOn_access (asked_access _)
    | error error =>
      exact conducts_bind (passesOn_access (asked_access _)) fun _ _ _ => conducts_throw error
  · obtain ⟨fuel, rfl⟩ := Nat.exists_eq_succ_of_ne_zero (Nat.ne_of_gt hfuel)
    exact ⟨⟨_, rfl⟩, instant_closing type (.ok (.error error), middle)⟩

theorem passesOn_initialization (thread : ThreadId) (type : ClassId) (m : Machine σ) :
    PassesOn engine fuel (initialization thread type) m := by
  refine passesOn_observe_bind ?_
  cases m.table.stateOf type with
  | fullyInitialized => exact conducts_pure ()
  | beingInitialized => exact conducts_pure ()
  | notLoaded => exact conducts_throw _
  | loaded =>
    dsimp only
    split
    · exact passesOn_access (asked_access _)
    · refine conducts_bind (passesOn_access (asked_access _)) fun moved _ _ => ?_
      split
      · exact passesOn_attempt thread type _
      · exact conducts_pure ()

theorem passesOn_newStreamEncoder (thread : ThreadId) (method : MethodRef) (arguments : List Value)
    (m : Machine σ) : PassesOn engine fuel (newStreamEncoder thread method arguments) m := by
  unfold newStreamEncoder
  dsimp only
  split
  · exact conducts_bind (passesOn_access (asked_call _)) fun _ _ _ => conducts_throw _
  · refine passesOn_observe_bind ?_
    cases m.charset with
    | none => exact conducts_throw _
    | some charset =>
      dsimp only
      cases m.table.method? .nonStatic method.declaring encoderConstructor with
      | none => exact conducts_throw _
      | some constructor =>
        exact conducts_bind (passesOn_initClass thread method.declaring m) fun _ _ _ =>
          conducts_bind (passesOn_access (asked_call _)) fun _ _ _ =>
          conducts_bind (passesOn_invoke thread constructor _ _) fun _ _ _ => conducts_pure _

theorem passesOn_invocation (thread : ThreadId) (method : MethodRef) (arguments : List Value)
    (m : Machine σ) : PassesOn engine fuel (invocation thread method arguments) m := by
  refine passesOn_observe_bind ?_
  cases m.overrides.find? (m.className method.declaring) method.key with
  | some entry =>
    cases entry with
    | newStreamEncoder => exact passesOn_newStreamEncoder thread method arguments m
    | skipLibrary => exact conducts_pure none
  | none =>
    refine conducts_bind (passesOn_note _ m) fun _ called _ => conducts_outcome_bind
      (passesOn_callEngine _ called) (fun result middle _ => ?_) fun error middle hfuel _ => ?_
    · -- both outcomes are noted, and an error is thrown again
      cases result with
      | ok value => exact conducts_bind (passesOn_note _ _) fun _ _ _ => conducts_pure value
      | error error => exact conducts_bind (passesOn_note _ _) fun _ _ _ => conducts_throw error
    · -- behind a call that failed stands its note alone
      obtain ⟨fuel, rfl⟩ := Nat.exists_eq_succ_of_ne_zero (Nat.ne_of_gt hfuel)
      refine ⟨⟨_, rfl⟩, fun other hmem => ?_⟩
      obtain rfl := List.mem_singleton.mp hmem
      exact trivial

end Procedure

-- ---------------------------------------------------------------------------
-- Own calls that fail
-- ---------------------------------------------------------------------------

/-- The step fails with the error, and the engine is not called behind. -/
def Stops (engine : Engine σ) (fuel : Nat) (step : Step σ) (m : Machine σ) (error : Throwable)
    (after : List (Mark σ)) : Prop :=
  (∃ reply m', Machine.perform engine fuel step m = (.ok reply, m') ∧
    step.failure reply = some error) ∧ Silent after

/-- A procedure fails as the reply to a step of it demands, and the engine is not called behind. -/
theorem fails_of_verdict {good : Asked σ → Prop}
    {verdict : (part : Asked σ) → part.step.Reply → Option ε} {procedure : Procedure σ ε α}
    (hconducts : procedure.Conducts good verdict engine fuel m) {parts parts' : List (Asked σ)}
    {part : Asked σ} (hasked : procedure.asked engine fuel m = parts ++ part :: parts')
    {reply : part.step.Reply}
    (hrun : Machine.perform engine fuel part.step part.machine = (.ok reply, m')) {e : ε}
    (hverdict : verdict part reply = some e) {last : List (Mark σ)} (hlast : Silent last) :
    (∃ m', procedure.exec engine fuel m = (.ok (.error e), m')) ∧
      ∀ result m', Silent (last ++ (Machine.traceAll engine fuel parts' ++ [.ends step result m'])) := by
  obtain ⟨hfails, hinstant⟩ :=
    hconducts.heeds parts part parts' reply m' e hasked hrun hverdict
  exact ⟨hfails, fun _ _ => silent_append hlast (silent_append (silent_of_instants hinstant) silent_ends)⟩

/-- A step inside a call to the engine is nested. -/
theorem not_unnested {call : Call} {part : Asked σ} {mark : Mark σ} {first last : List (Mark σ)}
    (hpart : Machine.traceOf engine fuel part.step part.machine = first ++ mark :: last)
    (hfirst : first ≠ []) :
    ¬ Unnested (openFrames (⟨.callEngine call, m⟩ :: frames) first) := by
  obtain ⟨inner, hframes⟩ :
      ∃ inner, openFrames (⟨.callEngine call, m⟩ :: frames) first =
        inner ++ part :: ⟨.callEngine call, m⟩ :: frames := Machine.exists_openFrames hpart hfirst
  intro hown
  refine hown ⟨.callEngine call, m⟩ ?_ call rfl
  rw [hframes]
  cases inner <;> simp

/-- **Own calls that fail.** An own call of the engine that fails makes every step around it fail
with the same error. -/
theorem stops_perform (engine : Engine σ) (fuel : Nat) (frames : List (Asked σ)) (step : Step σ)
    (m : Machine σ) (hstep : step.Inner) {before after : List (Mark σ)} {call : Call}
    {error : Throwable} {m' : Machine σ}
    (hsplit : Machine.traceOf engine fuel step m =
      before ++ .ends (.callEngine call) (.ok (.error error)) m' :: after)
    (hown : Unnested (openFrames frames before)) : Stops engine fuel step m error after := by
  induction fuel generalizing frames step m before after with
  | zero => exact (Machine.not_traceOf_zero hsplit).elim
  | succ fuel ih =>
    -- the failing call is the step itself, or stands in one of the steps that it asked for
    cases Machine.stands_of_traceOf hsplit with
    | closes hrun => exact ⟨⟨_, m', hrun, rfl⟩, silent_nil⟩
    | @inside parts parts' part first last _ hasked hpart =>
      rw [openFrames_begins, openFrames_append, Machine.openFrames_traceAll] at hown
      have hstops : part.step.Inner → Stops engine fuel part.step part.machine error last :=
        fun hinner => ih _ part.step part.machine hinner hpart hown
      have hmem : part ∈ Machine.asked engine fuel step m := by
        rw [hasked]
        exact List.mem_append_right _ List.mem_cons_self
      -- what fails below fails here, since these procedures pass failures on
      match step, hstep with
      | .request (.initClass thread type), _ =>
        have hpasses : (Procedure.initialization thread type).PassesOn engine fuel m :=
          Procedure.passesOn_initialization thread type m
        obtain ⟨⟨reply, middle, hrun, hfailure⟩, hlast⟩ := hstops (hpasses.asks part hmem)
        obtain ⟨⟨last', hfails⟩, hsilent⟩ := fails_of_verdict hpasses hasked hrun hfailure hlast
        exact ⟨⟨_, last', hfails, rfl⟩, hsilent _ _⟩
      | .request (.invoke thread method arguments), _ =>
        have hpasses : (Procedure.invocation thread method arguments).PassesOn engine fuel m :=
          Procedure.passesOn_invocation thread method arguments m
        obtain ⟨⟨reply, middle, hrun, hfailure⟩, hlast⟩ := hstops (hpasses.asks part hmem)
        obtain ⟨⟨last', hfails⟩, hsilent⟩ := fails_of_verdict hpasses hasked hrun hfailure hlast
        exact ⟨⟨_, last', hfails, rfl⟩, hsilent _ _⟩
      | .callEngine outer, _ => exact absurd hown (not_unnested hpart (Machine.ne_nil_of_ends hpart))
      | .request (.access access), _ | .upkeep upkeep, _ => exact absurd hmem List.not_mem_nil

-- ---------------------------------------------------------------------------
-- A start
-- ---------------------------------------------------------------------------

theorem Asked.inner_of_inBoot {part : Asked σ} (h : part.InBoot) : part.step.Inner := by
  obtain ⟨step, m⟩ := part
  match step, h with
  | .request (.access _), _ | .request (.initClass _ _), _ | .request (.invoke _ _ _), _
  | .upkeep _, _ => exact trivial

/-- The failure names the class or the method of a step of the start that failed with the error. -/
inductive Asked.Blames (error : Throwable) : Asked σ → Fatal → Prop where
  | initialization (thread : ThreadId) (type : ClassId) (m : Machine σ) :
      Blames error ⟨.request (.initClass thread type), m⟩
        (.initialization (m.className type) error)
  | invocation (thread : ThreadId) (method : MethodRef) (arguments : List Value) (m : Machine σ) :
      Blames error ⟨.request (.invoke thread method arguments), m⟩
        (.invocation (m.className method.declaring) method.key error)

/-- A step of a start that failed stands for a failure that blames it. -/
theorem Asked.exists_blamed {part : Asked σ} (hpart : part.InBoot) {error : Throwable}
    (h : ∃ reply, part.step.failure reply = some error) :
    ∃ fatal, part.Blames error fatal ∧
      ∀ reply, part.step.failure reply = some error → part.verdict reply = some fatal := by
  obtain ⟨step, m⟩ := part
  -- of the steps of a start only these two can pass an error on, and each names its culprit
  match step, hpart, h with
  | .request (.initClass thread type), _, _ =>
    refine ⟨_, .initialization thread type m, fun reply hfailure => ?_⟩
    match reply, hfailure with
    | .error _, hfailure =>
      obtain rfl := Option.some.inj hfailure
      rfl
  | .request (.invoke thread method arguments), _, _ =>
    refine ⟨_, .invocation thread method arguments m, fun reply hfailure => ?_⟩
    match reply, hfailure with
    | .error _, hfailure =>
      obtain rfl := Option.some.inj hfailure
      rfl
  | .request (.access _), _, h | .upkeep _, _, h => exact nomatch h.choose_spec

/-- A start fails, and the engine is not called behind. -/
structure EndsStart (engine : Engine σ) (fuel : Nat) (thread : ThreadId) (arguments : List String)
    (m : Machine σ) (after : List (Mark σ)) (fatal : Fatal) : Prop where
  silent : Silent after
  fails : ∃ m', Machine.perform engine fuel (.request (.boot thread arguments)) m =
    (.ok (.error fatal), m') ∧ m'.boot = .failed

variable {arguments : List String}

/-- A start that has failed says so to whoever asks. -/
theorem Procedure.boot_of_booting {fatal : Fatal}
    (h : (booting thread arguments).exec engine (fuel + 1) m = (.ok (.error fatal), m')) :
    m'.boot = .failed := by
  by_cases hm : m.boot = .notBooted
  · rw [exec_booting hm] at h
    split at h
    · exact nomatch (Prod.mk.inj h).1
    · obtain ⟨-, rfl⟩ := Prod.mk.inj h
      rfl
    · exact nomatch (Prod.mk.inj h).1
  · -- with nothing to do, only an earlier failure is a failure
    rw [exec_booting_of_ne hm] at h
    obtain ⟨hreply, rfl⟩ := Prod.mk.inj h
    cases hboot : m.boot with
    | failed => rfl
    | notBooted => exact absurd hboot hm
    | booting | booted =>
      rw [hboot] at hreply
      exact nomatch hreply

/-- A step of a start whose reply stands for a failure ends the start. -/
theorem endsStart_of_verdict {parts parts' : List (Asked σ)} {part : Asked σ} {fatal : Fatal}
    (hasked : Machine.asked engine fuel (.request (.boot thread arguments)) m =
      parts ++ part :: parts') {reply : part.step.Reply}
    (hrun : Machine.perform engine fuel part.step part.machine = (.ok reply, m'))
    (hverdict : part.verdict reply = some fatal) {last : List (Mark σ)} (hlast : Silent last)
    (result : Except Halt (Except Fatal Unit)) (end' : Machine σ) :
    EndsStart engine (fuel + 1) thread arguments m (last ++ (Machine.traceAll engine fuel parts' ++
      [.ends (.request (.boot thread arguments)) result end'])) fatal := by
  cases fuel with
  | zero => exact nomatch hrun
  | succ fuel =>
    obtain ⟨⟨last', hfails⟩, hsilent⟩ := fails_of_verdict
      (Procedure.conducts_booting thread arguments m) hasked hrun hverdict hlast
    exact ⟨hsilent _ _, last', hfails, Procedure.boot_of_booting hfails⟩

/-- A step that ends when only one frame is open below it is the one that the frame has asked for. -/
theorem eq_of_ends_on_top {step' : Step σ} {result : Except Halt step'.Reply} {part frame : Asked σ}
    {first last : List (Mark σ)}
    (hpart : Machine.traceOf engine fuel part.step part.machine = first ++ .ends step' result m' :: last)
    (htail : (openFrames [frame] first).tail = [frame]) : ∃ m'', part = ⟨step', m''⟩ := by
  obtain ⟨inner, hinner⟩ : ∃ inner, openFrames [frame] first = inner ++ [part, frame] :=
    Machine.exists_openFrames hpart (Machine.ne_nil_of_ends hpart)
  obtain ⟨-, m'', rest, htop, -⟩ : ∃ fuel' m'' rest, openFrames [frame] first = ⟨step', m''⟩ :: rest ∧
      Machine.perform engine (fuel' + 1) step' m'' = (result, m') :=
    Machine.exists_frame_of_ends hpart
  rw [hinner] at htail htop
  cases inner with
  | nil => exact ⟨m'', (List.cons.inj htop).1⟩
  | cons other inner =>
    have hlength := congrArg List.length htail
    simp at hlength

/-- The trace of a load ends with what the load gave. -/
theorem perform_of_load {name : String} {reply : Except Throwable (Option ClassId)}
    {first last : List (Mark σ)}
    (h : Machine.traceOf engine fuel (.request (.access (.load name))) m =
      first ++ .ends (.request (.access (.load name))) (.ok reply) m' :: last) :
    Machine.perform engine fuel (.request (.access (.load name))) m = (.ok reply, m') ∧ last = [] := by
  cases fuel with
  | zero => exact (Machine.not_traceOf_zero h).elim
  | succ fuel =>
    cases Machine.stands_of_traceOf h with
    | closes hrun => exact ⟨hrun, rfl⟩
    | inside hasked _ => simp [Machine.asked] at hasked

/-- **The first failure.** Take any start, on any machine and with any engine. An own call of the
engine that fails ends the start: the engine is not called any more, the boot state is failed in the
end, and the failure carries the error of the call and names the class that the start was
initialising, or the method that it had invoked, when the call was made. The start ends in the same
way if it is told that a class is not there, unless it can do without, and then the failure names
that class. -/
theorem first_failure (engine : Engine σ) (fuel : Nat) (thread : ThreadId) (arguments : List String)
    (m : Machine σ) :
    (∀ before call error m' after, Machine.traceOf engine fuel (.request (.boot thread arguments)) m =
        before ++ .ends (.callEngine call) (.ok (.error error)) m' :: after →
      Unnested (openFrames [] before) →
      ∃ inner part fatal,
        openFrames [] before = inner ++ [part, ⟨.request (.boot thread arguments), m⟩] ∧
        part.Blames error fatal ∧ EndsStart engine fuel thread arguments m after fatal) ∧
    (∀ before name m' after, Machine.traceOf engine fuel (.request (.boot thread arguments)) m =
        before ++ .ends (.request (.access (.load name))) (.ok (.ok none)) m' :: after →
      (openFrames [] before).tail = [⟨.request (.boot thread arguments), m⟩] →
      (name ∈ CoreName.required ∨ m'.delegateClass ≠ some name) →
      EndsStart engine fuel thread arguments m after (.classNotFound name)) := by
  constructor
  · intro before call error m' after hsplit hown
    cases fuel with
    | zero => simp [Machine.traceOf] at hsplit
    | succ fuel =>
      cases Machine.stands_of_traceOf hsplit with
      | @inside parts parts' part first last _ hasked hpart =>
        rw [openFrames_begins, openFrames_append, Machine.openFrames_traceAll] at hown ⊢
        have hmem : part ∈ Machine.asked engine fuel (.request (.boot thread arguments)) m := by
          rw [hasked]
          exact List.mem_append_right _ List.mem_cons_self
        -- the step of the start under which the call stands
        have hboot := (Procedure.conducts_booting thread arguments m).asks part hmem
        obtain ⟨⟨reply, middle, hrun, hfailure⟩, hlast⟩ := stops_perform engine fuel _ part.step
          part.machine (Asked.inner_of_inBoot hboot) hpart hown
        -- its failure demands the failure of the start, with that step to blame
        obtain ⟨fatal, hblames, hverdict⟩ := Asked.exists_blamed hboot ⟨reply, hfailure⟩
        obtain ⟨inner, hframes⟩ := Machine.exists_openFrames hpart (Machine.ne_nil_of_ends hpart)
        exact ⟨inner, part, fatal, hframes, hblames,
          endsStart_of_verdict hasked hrun (hverdict reply hfailure) hlast _ _⟩
  · intro before name m' after hsplit hown hname
    cases fuel with
    | zero => simp [Machine.traceOf] at hsplit
    | succ fuel =>
      cases Machine.stands_of_traceOf hsplit with
      | @inside parts parts' part first last _ hasked hpart =>
        rw [openFrames_begins, openFrames_append, Machine.openFrames_traceAll] at hown
        -- the load is a step of the start itself
        obtain ⟨m'', rfl⟩ := eq_of_ends_on_top hpart hown
        obtain ⟨hrun, rfl⟩ := perform_of_load hpart
        have hdelegate : m'.delegateClass = m''.delegateClass := by
          obtain ⟨-, rfl⟩ := Prod.mk.inj (Machine.apply_of_perform_access hrun)
          rfl
        refine endsStart_of_verdict hasked hrun ?_ silent_nil _ _
        exact if_pos (hdelegate ▸ hname)

-- ---------------------------------------------------------------------------
-- Two starts that fail
-- ---------------------------------------------------------------------------

/-- The first class that a start needs, and its super class, which has an initialiser. -/
def heirPath : Finder := fun name =>
  if name = CoreName.classObject then some ⟨.memory name, heirFile name "A"⟩
  else if name = "A" then some ⟨.memory name, libraryFile name [Procedure.initializerKey]⟩
  else none

/-- An engine whose methods fail. -/
def failingEngine : Engine Unit where
  respond _ := .done (.error (.internal .noDefaultCharset))

/-- The machine on which a start fails. -/
def failingMachine (path : Finder) : Machine Unit := .new path none ()

/-- The trace of a start on these classes. -/
def failingTrace (path : Finder) : List (Mark Unit) :=
  Machine.traceOf failingEngine 9 (.request (.boot ⟨0⟩ [])) (failingMachine path)

/-- A call to the engine ends with a failure, and no other one is open. -/
def Mark.failsOwn (frames : List (Asked Unit)) : Mark Unit → Bool
  | ends (.callEngine _) (.ok (.error error)) _ =>
    error = .internal .noDefaultCharset && frames.tail.all fun frame => match frame.step with
      | .callEngine _ => false
      | _ => true
  | _ => false

/-- A load that only one frame is open around ends without a class. -/
def Mark.missesOwn (frames : List (Asked Unit)) : Mark Unit → Bool
  | ends (.request (.access (.load name))) (.ok (.ok none)) _ =>
    name = CoreName.classObject && frames.length = 2
  | _ => false

/-- The initialiser of a super class fails, and the start blames the class that it was initialising.
Without any classes it ends at the first one. -/
theorem failingTrace_ends :
    (∃ before call m' after, failingTrace heirPath =
        before ++ .ends (.callEngine call) (.ok (.error (.internal .noDefaultCharset))) m' :: after ∧
      EndsStart failingEngine 9 ⟨0⟩ [] (failingMachine heirPath) after
        (.initialization CoreName.classObject (.internal .noDefaultCharset))) ∧
    ∃ before m' after, failingTrace (fun _ => none) =
        before ++ .ends (.request (.access (.load CoreName.classObject))) (.ok (.ok none)) m' :: after ∧
      EndsStart failingEngine 9 ⟨0⟩ [] (failingMachine fun _ => none) after
        (.classNotFound CoreName.classObject) := by
  constructor
  · have hfails : ¬ Along (fun frames mark => Mark.failsOwn frames mark = false) []
        (failingTrace heirPath) := by decide +kernel
    obtain ⟨before, mark, after, hsplit, hmark⟩ := exists_of_not_along hfails
    rw [Bool.not_eq_false] at hmark
    unfold Mark.failsOwn at hmark
    split at hmark
    · rename_i call error m'
      simp only [Bool.and_eq_true, decide_eq_true_eq, List.all_eq_true] at hmark
      obtain ⟨rfl, hown⟩ := hmark
      obtain ⟨-, -, fatal, -, -, hends⟩ := (first_failure failingEngine 9 ⟨0⟩ [] _).1 before call _ m'
        after hsplit fun frame hmem call' hstep => by
          have hframe := hown frame hmem
          rw [hstep] at hframe
          exact nomatch hframe
      -- what the start replies is read off the run, and there is only one reply
      have hfatal : (Machine.perform failingEngine 9 (.request (.boot ⟨0⟩ []))
          (failingMachine heirPath)).1 = .ok (.error (.initialization CoreName.classObject
            (.internal .noDefaultCharset))) := by decide +kernel
      obtain ⟨last, hrun, -⟩ := hends.fails
      rw [hrun] at hfatal
      obtain rfl := Except.error.inj (Except.ok.inj hfatal)
      exact ⟨before, call, m', after, hsplit, hends⟩
    · exact nomatch hmark
  · have hmisses : ¬ Along (fun frames mark => Mark.missesOwn frames mark = false) []
        (failingTrace fun _ => none) := by decide +kernel
    obtain ⟨before, mark, after, hsplit, hmark⟩ := exists_of_not_along hmisses
    rw [Bool.not_eq_false] at hmark
    unfold Mark.missesOwn at hmark
    split at hmark
    · rename_i name m'
      simp only [Bool.and_eq_true, decide_eq_true_eq] at hmark
      obtain ⟨rfl, hlength⟩ := hmark
      -- the load is asked for by the start itself: there are two frames, and the start is the outer one
      obtain ⟨inner, hframes⟩ : ∃ inner, openFrames [] before =
          inner ++ [⟨.request (.boot ⟨0⟩ []), failingMachine fun _ => none⟩] :=
        Machine.exists_openFrames hsplit (Machine.ne_nil_of_ends hsplit)
      rw [hframes, List.length_append] at hlength
      obtain ⟨top, rfl⟩ := List.length_eq_one_iff.mp (Nat.succ.inj hlength)
      have htail : (openFrames [] before).tail =
          [⟨.request (.boot ⟨0⟩ []), failingMachine fun _ => none⟩] := by rw [hframes]; rfl
      exact ⟨before, m', after, hsplit, (first_failure failingEngine 9 ⟨0⟩ [] _).2 before _ m' after
        hsplit htail (.inl (by decide))⟩
    · exact nomatch hmark

end ClassHost
