import ClassHost.Proofs.Boot.Overriding
import ClassHost.Proofs.Boot.Stages
import ClassHost.Proofs.Boot.Started
import ClassHost.Proofs.Machine.Fuel
import ClassHost.Proofs.Machine.Moments
import ClassHost.Proofs.Machine.Registry

/-!
# What a supervisor promises

A main thread whose stages all went well enters the program, and one of whose stages failed ends
with that failure.

`Supervises` is what a supervisor promises: the entry method is invoked if and only if all stages
went well, and then once, by the last step that the thread takes, on the thread that was made for
it, with the array of the arguments (`Enters`). `supervises_new` proves it of every new machine, for
all engines whose calls return, from the fuel on that the thread needs.
-/

namespace ClassHost

variable {σ : Type}

-- ---------------------------------------------------------------------------
-- The promise
-- ---------------------------------------------------------------------------

/-- The step invokes a method. -/
def Step.invokes : Step σ → Bool
  | .request (.invoke _ _ _) => true
  | _ => false

namespace Machine

/-- The thread that is made next. -/
def nextThread (m : Machine σ) : ThreadId := ⟨m.threads.size⟩

/-- The machine that a main thread starts: it runs and has a control block. -/
def withMainThread (m : Machine σ) : Machine σ :=
  (newThread Procedure.mainThreadName m.entered).2

end Machine

/-- What a main thread ends with, by what the entry method ended with. -/
def EntryCall.ending (call : EntryCall) (last : Machine σ) :
    Except Throwable (Option Value) → Except Fatal Unit
  | .ok _ => .ok ()
  | .error cause => .error (.uncaughtException (last.className call.type) cause)

section

variable (engine : Engine σ) (fuel : Nat) (entry : EntryClass) (arguments : List String)
  (m : Machine σ)

/-- How a main thread that is ready enters the program. `last` is the machine that it has prepared. -/
structure Enters (call : EntryCall) (last : Machine σ) : Prop where
  /-- Of the steps of the thread, the start is the first that runs code and the call is the last. -/
  steps : ∃ between,
    Machine.asked engine fuel (.request (.supervise entry arguments)) m =
      ⟨.request (.access (.newThread Procedure.mainThreadName)), m.entered⟩ ::
        ⟨.request (.boot m.nextThread arguments), m.withMainThread⟩ :: (between ++
          [⟨.request (.invoke m.nextThread call.main [.object call.array]), last⟩])
  /-- So everything in the call comes after everything in the start. -/
  order : ∃ before between after,
    Machine.traceOf engine (fuel + 1) (.request (.supervise entry arguments)) m =
      before ++ (Machine.traceOf engine fuel (.request (.boot m.nextThread arguments))
        m.withMainThread ++ (between ++
        (Machine.traceOf engine fuel
          (.request (.invoke m.nextThread call.main [.object call.array])) last ++ after)))
  thread : ∃ block, last.thread? m.nextThread = some block ∧ block.name = Procedure.mainThreadName
  array : last.StringArray call.array arguments
  /-- The engine gets the call; no override stands in for it. -/
  called : .begins (.callEngine ⟨m.nextThread, call.main, [.object call.array]⟩)
      (last.note (.called ⟨m.nextThread, call.main, [.object call.array]⟩)) ∈
    Machine.traceOf engine fuel
      (.request (.invoke m.nextThread call.main [.object call.array])) last
  replied : ∃ reply after,
    Machine.perform engine fuel
        (.request (.invoke m.nextThread call.main [.object call.array])) last =
      (.ok reply, after) ∧
    (Machine.perform engine (fuel + 1) (.request (.supervise entry arguments)) m).1 =
      .ok (call.ending last reply)

/-- What a supervisor does for a program: it prepares the entry, enters the program if and only if
all stages of that went well, and otherwise replies the failure of the first one that did not. -/
structure Supervises : Prop where
  /-- The stages go in one of the ways listed, and in no other. -/
  prepares : ∃ outcome last,
    Prepares engine fuel m.nextThread entry arguments m.withMainThread outcome last ∧
    ∀ outcome' last',
      Prepares engine fuel m.nextThread entry arguments m.withMainThread outcome' last' →
      outcome' = outcome ∧ last' = last
  once : (Machine.asked engine fuel (.request (.supervise entry arguments)) m).countP
    (fun part => part.step.invokes) ≤ 1
  invokes_iff :
    (∃ part ∈ Machine.asked engine fuel (.request (.supervise entry arguments)) m,
      part.step.invokes = true) ↔
    ∃ call last, Prepares engine fuel m.nextThread entry arguments m.withMainThread (.ok call) last
  enters : ∀ call last,
    Prepares engine fuel m.nextThread entry arguments m.withMainThread (.ok call) last →
    Enters engine fuel entry arguments m call last
  stops : ∀ fatal last,
    Prepares engine fuel m.nextThread entry arguments m.withMainThread (.error fatal) last →
    (Machine.perform engine (fuel + 1) (.request (.supervise entry arguments)) m).1 =
      .ok (.error fatal)
  /-- A class is only initialised for its main method. -/
  declares : ∀ part ∈ Machine.asked engine fuel (.request (.supervise entry arguments)) m,
    ∀ thread type, part.step = .request (.initClass thread type) →
      ∃ main, part.machine.table.method? .static type Procedure.mainKey = some main

end

-- ---------------------------------------------------------------------------
-- Running a main thread
-- ---------------------------------------------------------------------------

variable {engine : Engine σ} {fuel : Nat} {entry : EntryClass} {arguments : List String}
  {m m' : Machine σ} {call : EntryCall} {fatal : Fatal}

namespace Procedure

theorem exec_mainThread :
    exec engine (fuel + 1) (mainThread entry arguments) m.entered =
      exec engine (fuel + 1) (preparation m.nextThread entry arguments >>= entering m.nextThread)
        m.withMainThread := by
  rw [mainThread_eq, exec_bind, exec_access]
  rfl

theorem asked_supervise :
    Machine.asked engine (fuel + 1) (.request (.supervise entry arguments)) m =
      ⟨.request (.access (.newThread mainThreadName)), m.entered⟩ ::
        asked engine (fuel + 1) (preparation m.nextThread entry arguments >>= entering m.nextThread)
          m.withMainThread := by
  have hasked : Machine.asked engine (fuel + 1) (.request (.supervise entry arguments)) m =
      asked engine (fuel + 1) (mainThread entry arguments) m.entered := rfl
  rw [hasked, mainThread_eq, asked_bind, asked_access, exec_access]
  rfl

theorem asked_supervise_of_ready
    (h : Prepares engine (fuel + 1) m.nextThread entry arguments m.withMainThread (.ok call) m') :
    Machine.asked engine (fuel + 1) (.request (.supervise entry arguments)) m =
      ⟨.request (.access (.newThread mainThreadName)), m.entered⟩ ::
        (asked engine (fuel + 1) (preparation m.nextThread entry arguments) m.withMainThread ++
          [⟨.request (.access .observe), m'⟩,
            ⟨.request (.invoke m.nextThread call.main [.object call.array]), m'⟩]) := by
  rw [asked_supervise, asked_bind, prepares_iff.mpr h]
  dsimp only
  rw [asked_entering]

theorem asked_supervise_of_stopped
    (h : Prepares engine (fuel + 1) m.nextThread entry arguments m.withMainThread (.error fatal)
      m') :
    Machine.asked engine (fuel + 1) (.request (.supervise entry arguments)) m =
      ⟨.request (.access (.newThread mainThreadName)), m.entered⟩ ::
        asked engine (fuel + 1) (preparation m.nextThread entry arguments) m.withMainThread := by
  rw [asked_supervise, asked_bind, prepares_iff.mpr h, List.append_nil]

/-- The stages before the entry start the machine first. -/
theorem asked_preparation_eq (engine : Engine σ) (fuel : Nat) (thread : ThreadId)
    (entry : EntryClass) (arguments : List String) (m : Machine σ) :
    ∃ later, asked engine fuel (preparation thread entry arguments) m =
      ⟨.request (.boot thread arguments), m⟩ :: later := by
  unfold preparation
  rw [asked_bind, asked_boot]
  exact ⟨_, rfl⟩

theorem not_invokes_preparation (thread : ThreadId) :
    ∀ part ∈ asked engine (fuel + 1) (preparation thread entry arguments) m,
      part.step.invokes = false := by
  intro part hpart
  rcases asked_preparation hpart with rfl | ⟨access, hstep⟩ | ⟨type, main, hstep, -⟩
  · rfl
  · rw [hstep]
    rfl
  · rw [hstep]
    rfl

theorem countP_invokes_preparation (thread : ThreadId) :
    (asked engine (fuel + 1) (preparation thread entry arguments) m).countP
      (fun part => part.step.invokes) = 0 := by
  refine List.countP_eq_zero.mpr fun part hpart => ?_
  simp [not_invokes_preparation thread part hpart]

end Procedure

namespace Machine

/-- Control blocks stay where they are and keep their names, whatever runs. -/
theorem invariant_threads (threads : Array ThreadBlock) :
    Invariant fun _ (m : Machine σ) => ThreadsFrame threads m.threads where
  access {_ m} access h := h.trans (access.touches m).threads
  upkeep {_ m} upkeep h := by
    rw [(upkeep.keeps m).2.2.2.1]
    exact h
  threads _ _ h := h

theorem threadsFrame_exec {ε α : Type} (procedure : Procedure σ ε α) :
    ThreadsFrame m.threads (procedure.exec engine fuel m).2.threads :=
  holds_exec (invariant_threads m.threads) engine fuel procedure (.refl m.threads)

theorem thread?_withMainThread (m : Machine σ) :
    m.withMainThread.thread? m.nextThread =
      some ⟨Procedure.mainThreadName, Int64.ofNat (m.threads.size + 1), none⟩ :=
  Array.getElem?_push_size

/-- A call of a method that nothing overrides gets to the engine. -/
theorem begins_callEngine_mem {thread : ThreadId} {method : MethodRef} {arguments : List Value}
    {reply : Except Throwable (Option Value)} (hplain : method.key.Plain)
    (h : perform engine fuel (.request (.invoke thread method arguments)) m = (.ok reply, m')) :
    .begins (.callEngine ⟨thread, method, arguments⟩)
        (m.note (.called ⟨thread, method, arguments⟩)) ∈
      traceOf engine fuel (.request (.invoke thread method arguments)) m := by
  match fuel with
  | 0 => exact nomatch h
  | 1 => exact nomatch h
  | fuel + 2 =>
    -- a plain method is never an override's, so its invocation goes on to the engine
    have hasked : ⟨.callEngine ⟨thread, method, arguments⟩,
        m.note (.called ⟨thread, method, arguments⟩)⟩ ∈
        Procedure.asked engine (fuel + 1) (Procedure.invocation thread method arguments) m := by
      rw [Procedure.asked_invocation_of_none
        (Overrides.find?_of_plain hplain m.overrides (m.className method.declaring))]
      exact List.mem_cons_of_mem _ (List.mem_cons_of_mem _ List.mem_cons_self)
    refine mem_traceOf_of_asked hasked ?_
    rw [traceOf_succ]
    exact List.mem_cons_self

/-- On a machine where nothing else waits, a supervisor replies what its thread ended with. -/
theorem perform_supervise (hbusy : m.Busy 0) :
    (perform engine (fuel + 1) (.request (.supervise entry arguments)) m).1 =
      threadReply
        ((Procedure.mainThread entry arguments).exec engine fuel m.entered).1 := by
  refine supervised_of_busy ?_
  have hleads : Leads KeepsBusy KeepsBusy
      ((Procedure.mainThread entry arguments).exec engine fuel) :=
    leads_run follows_keepsBusy (Program.only_true _) fun step _ =>
      keepsBusy_perform engine fuel step
  exact leads_iff.mp hleads m.entered 1 hbusy.enter

end Machine

/-- The thread is still there under its name once the stages are done. -/
theorem Prepares.exists_block {outcome : Except Fatal EntryCall} {last : Machine σ}
    (h : Prepares engine (fuel + 1) m.nextThread entry arguments m.withMainThread outcome last) :
    ∃ block, last.thread? m.nextThread = some block ∧
      block.name = Procedure.mainThreadName := by
  have hframe : ThreadsFrame m.withMainThread.threads
      ((Procedure.preparation m.nextThread entry arguments).exec engine (fuel + 1)
        m.withMainThread).2.threads := Machine.threadsFrame_exec _
  rw [Procedure.prepares_iff.mpr h] at hframe
  obtain ⟨block, hget, hblock⟩ := hframe.get? (Machine.thread?_withMainThread m)
  exact ⟨block, hget, hblock.name⟩

section

open Procedure

/-- A main thread only initialises a class that is seen to have a static main method. -/
theorem main_of_asked_initClass {part : Asked σ} {thread : ThreadId} {type : ClassId}
    (hpart : part ∈ Machine.asked engine (fuel + 1) (.request (.supervise entry arguments)) m)
    (hstep : part.step = .request (.initClass thread type)) :
    ∃ main, part.machine.table.method? .static type mainKey = some main := by
  rw [asked_supervise] at hpart
  rcases List.mem_cons.mp hpart with rfl | hpart
  · exact nomatch hstep
  rcases mem_asked_bind.mp hpart with hpart | ⟨call, last, -, hpart⟩
  · -- the entry class is initialised by the preparation alone, after `main` was found in it
    rcases asked_preparation hpart with rfl | ⟨access, haccess⟩ | ⟨type', main, hinit, hmain⟩
    · exact nomatch hstep
    · exact nomatch hstep.symm.trans haccess
    · cases hstep.symm.trans hinit
      exact ⟨main, hmain⟩
  · rw [asked_entering] at hpart
    rcases List.mem_cons.mp hpart with rfl | hpart
    · exact nomatch hstep
    · obtain rfl := List.mem_singleton.mp hpart
      exact nomatch hstep

theorem exists_prepares_of_returned {reply : Except Fatal Unit} {ended : Machine σ}
    (hreturned : exec engine (fuel + 1) (mainThread entry arguments) m.entered =
      (.ok reply, ended)) :
    ∃ outcome last,
      Prepares engine (fuel + 1) m.nextThread entry arguments m.withMainThread outcome last := by
  rw [exec_mainThread] at hreturned
  rcases exec_bind_eq_ok.mp hreturned with ⟨call, last, hstages, -⟩ | ⟨fatal, -, hstages⟩
  · exact ⟨.ok call, last, prepares_iff.mp hstages⟩
  · exact ⟨.error fatal, ended, prepares_iff.mp hstages⟩

variable {reply : Except Fatal Unit} {ended last : Machine σ} (hbusy : m.Busy 0)
  (hreturned : exec engine (fuel + 1) (mainThread entry arguments) m.entered = (.ok reply, ended))

include hbusy hreturned

theorem perform_supervise_of_returned :
    (Machine.perform engine (fuel + 2) (.request (.supervise entry arguments)) m).1 = .ok reply := by
  rw [Machine.perform_supervise hbusy, hreturned]
  rfl

/-- **The entry.** A main thread that is ready, and returns, enters the program as it should. -/
theorem enters_of_ready
    (hready : Prepares engine (fuel + 1) m.nextThread entry arguments m.withMainThread (.ok call)
      last) : Enters engine (fuel + 1) entry arguments m call last := by
  have hsupervise := perform_supervise_of_returned hbusy hreturned
  rw [exec_mainThread, exec_bind_of_ok (prepares_iff.mpr hready), exec_entering] at hreturned
  obtain ⟨later, hlater⟩ :=
    asked_preparation_eq engine (fuel + 1) m.nextThread entry arguments m.withMainThread
  have hsteps : ∃ between,
      Machine.asked engine (fuel + 1) (.request (.supervise entry arguments)) m =
        ⟨.request (.access (.newThread mainThreadName)), m.entered⟩ ::
          ⟨.request (.boot m.nextThread arguments), m.withMainThread⟩ :: (between ++
            [⟨.request (.invoke m.nextThread call.main [.object call.array]), last⟩]) := by
    refine ⟨later ++ [⟨.request (.access .observe), last⟩], ?_⟩
    rw [asked_supervise_of_ready hready, hlater]
    simp
  -- `main` itself may return or throw; a machine that stops in it is excluded by `hreturned`
  obtain ⟨replied, after, hinvoke, hreply⟩ : ∃ replied after,
      Machine.perform engine (fuel + 1)
        (.request (.invoke m.nextThread call.main [.object call.array])) last =
          (.ok replied, after) ∧ reply = call.ending last replied := by
    rcases hinvoke : Machine.perform engine (fuel + 1)
      (.request (.invoke m.nextThread call.main [.object call.array])) last with
      ⟨halt | cause | value, after⟩
    · rw [hinvoke] at hreturned
      exact nomatch (Prod.mk.inj hreturned).1
    · rw [hinvoke] at hreturned
      exact ⟨.error cause, after, rfl, (Except.ok.inj (Prod.mk.inj hreturned).1).symm⟩
    · rw [hinvoke] at hreturned
      exact ⟨.ok value, after, rfl, (Except.ok.inj (Prod.mk.inj hreturned).1).symm⟩
  exact {
    steps := hsteps
    order := by
      obtain ⟨between, hbetween⟩ := hsteps
      have htrace := Machine.traceOf_succ engine (fuel + 1) (.request (.supervise entry arguments)) m
      rw [hbetween] at htrace
      simp only [Machine.traceAll_cons, Machine.traceAll_append, Machine.traceAll_nil,
        List.append_nil, List.append_assoc] at htrace
      rw [← List.cons_append] at htrace
      exact ⟨_, _, _, htrace⟩
    thread := hready.exists_block
    array := hready.stringArray
    called := Machine.begins_callEngine_mem hready.plain_main hinvoke
    replied := ⟨replied, after, hinvoke, hreply ▸ hsupervise⟩ }

/-- A main thread that returned has done what its supervisor promises. -/
theorem supervises_of_returned : Supervises engine (fuel + 1) entry arguments m := by
  have hprepares := exists_prepares_of_returned hreturned
  exact {
    prepares := by
      obtain ⟨outcome, last, hprepares⟩ := hprepares
      exact ⟨outcome, last, hprepares, fun outcome' last' h => h.unique hprepares⟩
    once := by
      obtain ⟨outcome, last, hprepares⟩ := hprepares
      cases outcome with
      | ok call =>
        rw [asked_supervise_of_ready hprepares, List.countP_cons, List.countP_append,
          countP_invokes_preparation]
        simp [Step.invokes]
      | error fatal =>
        rw [asked_supervise_of_stopped hprepares, List.countP_cons, countP_invokes_preparation]
        simp [Step.invokes]
    invokes_iff := by
      constructor
      · rintro ⟨part, hpart, hinvokes⟩
        obtain ⟨outcome, last, hprepares⟩ := hprepares
        cases outcome with
        | ok call => exact ⟨call, last, hprepares⟩
        | error fatal =>
          rw [asked_supervise_of_stopped hprepares] at hpart
          -- a stopped preparation asks for the boot, for lookups and for one initialisation at most
          rcases List.mem_cons.mp hpart with rfl | hpart
          · exact nomatch hinvokes
          · exact nomatch hinvokes.symm.trans (not_invokes_preparation _ part hpart)
      · rintro ⟨call, last, hready⟩
        refine ⟨⟨.request (.invoke m.nextThread call.main [.object call.array]), last⟩, ?_, rfl⟩
        rw [asked_supervise_of_ready hready]
        simp
    enters := fun call last hready => enters_of_ready hbusy hreturned hready
    stops := by
      -- the supervision answers what its preparation fails with
      intro fatal last hstopped
      have hsupervise := perform_supervise_of_returned hbusy hreturned
      rw [exec_mainThread, exec_bind_of_error (prepares_iff.mpr hstopped)] at hreturned
      obtain rfl := Except.ok.inj (Prod.mk.inj hreturned).1
      exact hsupervise
    declares := fun part hpart thread type hstep => main_of_asked_initClass hpart hstep }

end

/-- Every call to the engine in the trace of the step has returned, with a value or an error. -/
def Machine.CallsReturn (engine : Engine σ) (fuel : Nat) (step : Step σ) (m : Machine σ) : Prop :=
  ∀ call result last, .ends (.callEngine call) result last ∈ Machine.traceOf engine fuel step m →
    ∃ reply, result = .ok reply

/-- A main thread returns if the calls to the engine do and it has fuel for what it does: a panic
would come out of a call to the engine. -/
theorem returned_of_callsReturn
    (hcalls : Machine.CallsReturn engine (fuel + 1) (.request (.supervise entry arguments)) m)
    (hfuel : ((Procedure.mainThread entry arguments).exec engine fuel m.entered).1 ≠
      .error .exhausted) :
    ∃ reply ended,
      (Procedure.mainThread entry arguments).exec engine fuel m.entered = (.ok reply, ended) := by
  rcases hrun : (Procedure.mainThread entry arguments).exec engine fuel m.entered with
    ⟨(_ | _) | reply, ended⟩
  · exfalso
    -- a panic comes from a step asked for, and of those only an engine call can start one
    obtain ⟨step, middle, hasked, hpanicked⟩ : ∃ step middle,
        ⟨step, middle⟩ ∈ Machine.asked engine fuel (.request (.supervise entry arguments)) m ∧
        (Machine.perform engine fuel step middle).1 = .error .panicked :=
      Program.exists_asked_of_halted (congrArg Prod.fst hrun)
    obtain ⟨step', hordinary, hstep⟩ :=
      (Procedure.asks_mainThread entry arguments).ordinary.of_mem_asked hasked
    obtain rfl : step = step' := hstep
    have hne : step ≠ .request .panic := by
      intro hpanic
      rwa [hpanic] at hordinary
    obtain ⟨call, last, hmark⟩ := Machine.exists_panicked_call hne hpanicked
    obtain ⟨reply, hreply⟩ := hcalls _ _ _ (Machine.mem_traceOf_of_asked hasked hmark)
    exact nomatch hreply
  · rw [hrun] at hfuel
    exact absurd rfl hfuel
  · exact ⟨reply, ended, rfl⟩

/-- **What a supervisor does on a new machine.** For every class path, engine, entry and arguments:
if the calls to the engine return, then from the fuel on that the thread needs, the program is
prepared and entered as promised. In the end the supervisor waits for the workers that were left
behind, and for nobody else. -/
theorem supervises_new {classPath : Finder} {delegateClass : Option String} {memory : σ}
    (hcalls : Machine.CallsReturn engine (fuel + 1) (.request (.supervise entry arguments))
      (.new classPath delegateClass memory))
    (hfuel : ((Procedure.mainThread entry arguments).exec engine fuel
      (Machine.new classPath delegateClass memory).entered).1 ≠ .error .exhausted)
    {fuel' : Nat} (hle : fuel ≤ fuel') :
    Supervises engine fuel' entry arguments (.new classPath delegateClass memory) := by
  obtain ⟨reply, ended, hrun⟩ := returned_of_callsReturn hcalls hfuel
  have hrun' := (Procedure.exec_of_le hle (Procedure.mainThread entry arguments)) _ hfuel
  rw [hrun] at hrun'
  cases fuel' with
  | zero => exact nomatch (Prod.mk.inj hrun').1
  | succ fuel' =>
    exact supervises_of_returned (Machine.busy_new classPath delegateClass memory) hrun'

/-- A class path with the library and a program. -/
def programFinder : Finder := fun name =>
  if name = "app/Main" then
    some ⟨.memory name, libraryFile name [Procedure.initializerKey, Procedure.mainKey]⟩
  else libraryFinder name

/-- A new machine with that class path. -/
def programMachine : Machine Unit := .new programFinder none ()

/-- Running the program on it. -/
def programRun : Except Halt (Except Fatal Unit) × Machine Unit :=
  Machine.perform inertEngine 4 (.request (.supervise (.named "app/Main") ["first", "second"]))
    programMachine

/-- All stages go well, and the program is entered. -/
theorem programRun_entered :
    returns programRun = true ∧
    Supervises inertEngine 3 (.named "app/Main") ["first", "second"] programMachine ∧
    ∃ call last, Enters inertEngine 3 (.named "app/Main") ["first", "second"] programMachine call
      last := by
  have hreturns : returns programRun = true := by decide +kernel
  have hresult : programRun.1 = .ok (.ok ()) := congrArg Prod.fst (eq_of_returns hreturns)
  have hcalls : Machine.CallsReturn inertEngine 4
      (.request (.supervise (.named "app/Main") ["first", "second"])) programMachine := by
    intro call result last hmark
    obtain ⟨fuel, m, hrun⟩ := Machine.exists_perform_of_ends hmark
    exact ⟨.ok none, (congrArg Prod.fst hrun).symm⟩
  have hfuel : ((Procedure.mainThread (.named "app/Main") ["first", "second"]).exec inertEngine 3
      programMachine.entered).1 ≠ .error .exhausted := by
    intro hspent
    have hreply : programRun.1 = _ := Machine.perform_supervise rfl
    rw [hspent, hresult] at hreply
    exact nomatch hreply
  have hsupervises := supervises_new hcalls hfuel (Nat.le_refl 3)
  obtain ⟨outcome, last, hprepares, -⟩ := hsupervises.prepares
  refine ⟨hreturns, hsupervises, ?_⟩
  -- the program returns without a fatal, so its preparation was not stopped
  cases outcome with
  | ok call => exact ⟨call, last, hsupervises.enters call last hprepares⟩
  | error fatal =>
    have hstopped : programRun.1 = .ok (.error fatal) := hsupervises.stops fatal last hprepares
    rw [hresult] at hstopped
    exact nomatch Except.ok.inj hstopped

end ClassHost
