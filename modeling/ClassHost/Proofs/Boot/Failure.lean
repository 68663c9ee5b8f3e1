import ClassHost.Proofs.Boot.Once
import Mathlib.Data.List.Infix

/-!
# After a start that failed

A start that failed leaves a machine behind whose library is half set up, and nothing should run on
it. What makes sure of that is the boot state: once it is failed, every later start replies a
failure and every later main thread ends at its own start (`FailureLasts`).

The boot state becomes failed when the sequence of the start returns a failure. A panic in the
middle of the sequence unwinds the start as well, but nothing settles the state on that way, and it
stays booting for good. Later starts take that for a start under way and succeed.

`after_failed_start` states both: a start that returned a failure is final, and one that was unwound
is forgotten. `not_failureLasts_abandoned` is a run in which a main method is invoked on a machine
whose only start was unwound.
-/

namespace ClassHost

variable {σ α : Type}

-- ---------------------------------------------------------------------------
-- Stretches of a trace behind a start
-- ---------------------------------------------------------------------------

/-- Every start in these marks replies the same, unless it is out of fuel. -/
def StartsReply (engine : Engine σ) (reply : Except Fatal Unit) (marks : List (Mark σ)) : Prop :=
  ∀ before thread arguments m fuel later,
    marks = before ++
      (Machine.traceOf engine (fuel + 1) (.request (.boot thread arguments)) m ++ later) →
    (Machine.perform engine (fuel + 1) (.request (.boot thread arguments)) m).1 = .ok reply ∨
      (Machine.perform engine (fuel + 1) (.request (.boot thread arguments)) m).1 =
        .error .exhausted

/-- A method is invoked, or the engine called. -/
def Mark.RunsCode : Mark σ → Prop
  | .begins (.request (.invoke _ _ _)) _ | .begins (.callEngine _) _ => True
  | _ => False

/-- No main thread that begins in these marks invokes anything, from its beginning to its end. -/
def MainsIdle (engine : Engine σ) (marks : List (Mark σ)) : Prop :=
  ∀ before entry arguments m fuel later,
    marks = before ++
      (Machine.traceOf engine (fuel + 1) (.request (.supervise entry arguments)) m ++ later) →
    ∀ mark ∈ Machine.traceOf engine (fuel + 1) (.request (.supervise entry arguments)) m,
      ¬ mark.RunsCode

/-- A start that ended without success is never taken for one that succeeded: behind it no start
succeeds and no main thread invokes anything. -/
def FailureLasts (engine : Engine σ) (marks : List (Mark σ)) : Prop :=
  ∀ before thread arguments result m after,
    marks = before ++ .ends (.request (.boot thread arguments)) result m :: after →
    result ≠ .ok (.ok ()) → result ≠ .error .exhausted →
    StartsReply engine (.error (.internal .earlierBootFailed)) after ∧ MainsIdle engine after

-- ---------------------------------------------------------------------------
-- The boot state behind a start
-- ---------------------------------------------------------------------------

/-- In an attempt no start ends without success but the attempt itself. -/
theorem Attempt.last_of_failure {marks before after : List (Mark σ)} {state : BootState}
    {thread : ThreadId} {arguments : List String} {result result' : Except Halt (Except Fatal Unit)}
    {m : Machine σ} (h : Attempt marks result' state)
    (hsplit : marks = before ++ .ends (.request (.boot thread arguments)) result m :: after)
    (hresult : result ≠ .ok (.ok ())) (hcarried : result ≠ .error .exhausted) :
    after = [] ∧ result = result' ∧ m.boot = state := by
  obtain ⟨thread', arguments', first, inner, last, rfl, hlast, hinside⟩ := h.shape
  rw [← List.cons_append] at hsplit
  rcases split_of_append hsplit with ⟨rest, hinner, -⟩ | ⟨_, hend, -⟩
  · -- inside an attempt, starts that end have succeeded or were out of fuel
    have hmem : Mark.ends (.request (.boot thread arguments)) result m ∈ inner := by
      rcases List.cons_eq_append_iff.mp hinner with ⟨-, hhead⟩ | ⟨_, -, hinner⟩
      · simp at hhead
      · rw [hinner]
        simp
    rcases (hinside _ hmem).replied thread arguments result m rfl with hok | hspent
    · exact absurd hok hresult
    · exact absurd hspent hcarried
  · rcases List.singleton_eq_append_iff.mp hend with ⟨-, hmark⟩ | ⟨-, hnil⟩
    · obtain ⟨hmark, rfl⟩ := List.cons.inj hmark
      cases hmark
      exact ⟨rfl, rfl, hlast⟩
    · exact nomatch hnil

/-- The state that a start without success has left behind stays. -/
theorem Life.after_failure {cut : Prop} {a b : BootState} {marks before after : List (Mark σ)}
    {thread : ThreadId} {arguments : List String} {result : Except Halt (Except Fatal Unit)}
    {m : Machine σ} (h : Life cut a marks b)
    (hsplit : marks = before ++ .ends (.request (.boot thread arguments)) result m :: after)
    (hresult : result ≠ .ok (.ok ())) (hcarried : result ≠ .error .exhausted) :
    m.boot = .after result ∧ ∀ mark ∈ after, mark.Quiet m.boot := by
  -- a start with nothing to do fails only if an earlier one has failed
  have hidle : ∀ {state : BootState} {front back : List (Mark σ)}, (∀ mark ∈ front ++
      .ends (.request (.boot thread arguments)) result m :: back, mark.Quiet state) →
      m.boot = .after result ∧ ∀ mark ∈ back, mark.Quiet m.boot := by
    intro state front back hquiet
    have hmark := hquiet (.ends (.request (.boot thread arguments)) result m) (by simp)
    have hstate : m.boot = state := hmark.boot
    obtain ⟨-, rfl | hspent⟩ := hmark.replied thread arguments result m rfl
    · refine ⟨?_, fun mark hback => ?_⟩
      · cases state with
        | failed => exact hstate
        | _ => exact absurd rfl hresult
      · rw [hstate]
        exact hquiet mark (by simp [hback])
    · exact absurd hspent hcarried
  cases h with
  | quiet hquiet =>
    rw [hsplit] at hquiet
    exact hidle hquiet
  | @started front attempt back result' _ hbefore hattempt _ hafter =>
    rcases split_of_append hsplit with ⟨last, hfront, rfl⟩ | ⟨first, hback, -⟩
    · rcases split_of_append hfront with ⟨last', hfront', -⟩ | ⟨first, hin, -⟩
      · -- before the attempt no start ends
        have hmark := hbefore (.ends (.request (.boot thread arguments)) result m)
          (by rw [hfront']; simp)
        exact absurd rfl (hmark.replied thread arguments result m rfl).1
      · obtain ⟨rfl, rfl, rfl⟩ := hattempt.last_of_failure hin hresult hcarried
        exact ⟨hattempt.last hcarried, hafter⟩
    · -- after the attempt the state is that of its end, and starts reply accordingly
      rw [hback] at hafter
      exact hidle hafter

-- ---------------------------------------------------------------------------
-- Later starts and main threads
-- ---------------------------------------------------------------------------

theorem startsReply_of_quiet (engine : Engine σ) {state : BootState} {marks : List (Mark σ)}
    (hstate : state ≠ .notBooted) (h : ∀ mark ∈ marks, mark.Quiet state) :
    StartsReply engine state.reply marks := by
  intro before thread arguments m fuel later hsplit
  have hmark := h (.begins (.request (.boot thread arguments)) m) (by
    rw [hsplit, Machine.traceOf_succ]
    simp)
  have hm : m.boot = state := hmark.boot
  rcases Machine.perform_boot_of_ne engine (fuel + 1) thread arguments (hm ▸ hstate) with hrun | hrun
  · rw [hrun, hm]
    exact .inl rfl
  · rw [hrun]
    exact .inr rfl

namespace Procedure

variable {engine : Engine σ} {fuel : Nat} {m : Machine σ}

/-- On a machine whose start failed, a main thread ends at its own start. -/
theorem asked_mainThread_of_failed (entry : EntryClass) (arguments : List String)
    (hm : m.boot = .failed) :
    ∀ part ∈ asked engine fuel (mainThread entry arguments) m,
      (∃ name, part.step = .request (.access (.newThread name))) ∨
      (∃ thread, part.step = .request (.boot thread arguments)) ∧ part.machine.boot = .failed := by
  intro part hpart
  rw [mainThread] at hpart
  -- a main thread makes its thread and starts the library before anything else
  rcases mem_asked_bind.mp hpart with hpart | ⟨thread, m', hnew, hpart⟩
  · rw [asked_access] at hpart
    obtain rfl := List.mem_singleton.mp hpart
    exact .inl ⟨_, rfl⟩
  have hm' : m'.boot = .failed := by
    have hboot := Access.boot_apply (.newThread mainThreadName) m
    rwa [exec_access_ok hnew, hm] at hboot
  rcases mem_asked_bind.mp hpart with hpart | ⟨_, booted, hbooted, -⟩
  · rw [asked_boot] at hpart
    obtain rfl := List.mem_singleton.mp hpart
    exact .inr ⟨⟨thread, rfl⟩, hm'⟩
  · -- the start replies that an earlier one failed, or is out of fuel
    have hne : m'.boot ≠ .notBooted := by simp [hm']
    rw [exec_boot] at hbooted
    rcases Machine.perform_boot_of_ne engine fuel thread arguments hne with hrun | hrun
    · rw [hrun, hm'] at hbooted
      exact nomatch Except.ok.inj (Prod.mk.inj hbooted).1
    · rw [hrun] at hbooted
      exact nomatch (Prod.mk.inj hbooted).1

end Procedure

namespace Machine

variable {engine : Engine σ} {fuel : Nat} {m : Machine σ}

/-- A start that has nothing to do runs no code. -/
theorem not_runsCode_boot {thread : ThreadId} {arguments : List String} (hm : m.boot ≠ .notBooted) :
    ∀ mark ∈ traceOf engine fuel (.request (.boot thread arguments)) m, ¬ mark.RunsCode := by
  match fuel with
  | 0 => exact fun _ hmark => absurd hmark List.not_mem_nil
  | 1 =>
    rw [(traceOf_boot_one engine thread arguments m).2]
    simp [Mark.RunsCode]
  | fuel + 2 =>
    rw [(traceOf_boot_of_ne engine fuel thread arguments hm).2]
    simp [idleStart, Mark.RunsCode]

theorem not_runsCode_access {access : Access σ} :
    ∀ mark ∈ traceOf engine fuel (.request (.access access)) m, ¬ mark.RunsCode := by
  cases fuel with
  | zero => exact fun _ hmark => absurd hmark List.not_mem_nil
  | succ fuel => simp [traceOf_succ, asked, Mark.RunsCode]

theorem not_runsCode_supervise {entry : EntryClass} {arguments : List String}
    (hm : m.boot = .failed) :
    ∀ mark ∈ traceOf engine (fuel + 1) (.request (.supervise entry arguments)) m,
      ¬ mark.RunsCode := by
  intro mark hmark
  rw [traceOf_succ] at hmark
  rcases List.mem_cons.mp hmark with rfl | hmark
  · exact id
  · rcases List.mem_append.mp hmark with hmark | hmark
    · obtain ⟨part, hpart, hmark⟩ := List.mem_flatMap.mp hmark
      -- neither of the two things that a main thread still asks for runs code
      have hentered : ({ m with registry := m.registry.enter } : Machine σ).boot = .failed := hm
      rcases Procedure.asked_mainThread_of_failed entry arguments hentered part hpart with
        ⟨name, hstep⟩ | ⟨⟨thread, hstep⟩, hboot⟩
      · rw [hstep] at hmark
        exact not_runsCode_access mark hmark
      · rw [hstep] at hmark
        exact not_runsCode_boot (by simp [hboot]) mark hmark
    · obtain rfl := List.mem_singleton.mp hmark
      exact id

end Machine

theorem mainsIdle_of_quiet (engine : Engine σ) {marks : List (Mark σ)}
    (h : ∀ mark ∈ marks, mark.Quiet .failed) : MainsIdle engine marks := by
  intro before entry arguments m fuel later hsplit
  have hmark := h (.begins (.request (.supervise entry arguments)) m) (by
    rw [hsplit, Machine.traceOf_succ]
    simp)
  exact Machine.not_runsCode_supervise hmark.boot

/-- **What becomes of a machine whose start did not succeed.** If the start returned a failure,
every later start replies that an earlier one failed, and no later main thread invokes anything. If
the start was unwound by a panic, every later start replies success. -/
theorem after_failed_start {engine : Engine σ} {fuel : Nat} {guest : Guest σ α} {m m' : Machine σ}
    {before after : List (Mark σ)} {thread : ThreadId} {arguments : List String}
    {result : Except Halt (Except Fatal Unit)}
    (hsplit : Machine.trace engine fuel guest m =
      before ++ .ends (.request (.boot thread arguments)) result m' :: after)
    (hresult : result ≠ .ok (.ok ())) (hcarried : result ≠ .error .exhausted) :
    (result ≠ .error .panicked →
      StartsReply engine (.error (.internal .earlierBootFailed)) after ∧ MainsIdle engine after) ∧
    (result = .error .panicked → StartsReply engine (.ok ()) after) := by
  obtain ⟨hboot, hquiet⟩ :=
    (Machine.life_trace engine fuel guest m).after_failure hsplit hresult hcarried
  rw [hboot] at hquiet
  -- a start that was unwound leaves the state of a start under way, so later ones do nothing and
  -- succeed
  match result with
  | .ok (.ok ()) => exact absurd rfl hresult
  | .error .exhausted => exact absurd rfl hcarried
  | .ok (.error fatal) =>
    have hstarts : StartsReply engine BootState.failed.reply after :=
      startsReply_of_quiet engine (by decide) hquiet
    exact ⟨fun _ => ⟨hstarts, mainsIdle_of_quiet engine hquiet⟩, nofun⟩
  | .error .panicked =>
    have hstarts : StartsReply engine BootState.booting.reply after :=
      startsReply_of_quiet engine (by decide) hquiet
    exact ⟨fun hreturned => absurd rfl hreturned, fun _ => hstarts⟩

/-- The mark of a start that begins. -/
def Mark.beginsStart : Mark σ → Bool
  | .begins (.request (.boot _ _)) _ => true
  | _ => false

/-- The first mark is the end of a start, with this result, and another start begins behind it. -/
def startsAgainAfter (result : Except Halt (Except Fatal Unit)) : List (Mark σ) → Bool
  | .ends (.request (.boot _ _)) ended _ :: after => ended = result && after.any Mark.beginsStart
  | _ => false

/-- Where a test finds that a start ended and another one begins behind it, it is so. -/
theorem exists_start_of_tails {result : Except Halt (Except Fatal Unit)} {marks : List (Mark σ)}
    (h : marks.tails.any (startsAgainAfter result) = true) :
    ∃ before thread arguments m after thread' arguments' m',
      marks = before ++ .ends (.request (.boot thread arguments)) result m :: after ∧
      .begins (.request (.boot thread' arguments')) m' ∈ after := by
  obtain ⟨tail, hsuffix, htest⟩ := List.any_eq_true.mp h
  obtain ⟨before, hsplit⟩ := (List.mem_tails _ _).mp hsuffix
  -- the test has picked the rest of the trace that begins where the start ends
  unfold startsAgainAfter at htest
  split at htest
  · rename_i thread arguments ended m after
    obtain ⟨hended, hafter⟩ := Bool.and_eq_true_iff.mp htest
    obtain rfl := of_decide_eq_true hended
    obtain ⟨mark, hmark, hbegins⟩ := List.any_eq_true.mp hafter
    unfold Mark.beginsStart at hbegins
    split at hbegins
    · rename_i thread' arguments' m'
      exact ⟨before, thread, arguments, m, after, thread', arguments', m', hsplit.symm, hmark⟩
    · cases hbegins
  · cases htest

/-- In the run with two starts, the first one is final, and there is another one behind it. -/
theorem startTwice_final :
    ∃ before thread arguments fatal m after,
      Machine.trace reentrantEngine 7 startTwice (.new sparseFinder none ()) =
        before ++ .ends (.request (.boot thread arguments)) (.ok (.error fatal)) m :: after ∧
      StartsReply reentrantEngine (.error (.internal .earlierBootFailed)) after ∧
      MainsIdle reentrantEngine after ∧
      (after.any fun | .begins (.request (.boot _ _)) _ => true | _ => false) = true := by
  have hmarks : (Machine.trace reentrantEngine 7 startTwice (.new sparseFinder none ())).tails.any
      (startsAgainAfter (.ok (.error (.classNotFound "java/lang/Object")))) = true := by
    decide +kernel
  obtain ⟨before, thread, arguments, m, after, _, _, _, hsplit, hagain⟩ :=
    exists_start_of_tails hmarks
  obtain ⟨hlasts, -⟩ := after_failed_start hsplit (by simp) (by simp)
  obtain ⟨hstarts, hmains⟩ := hlasts (by simp)
  exact ⟨before, thread, arguments, _, m, after, hsplit, hstarts, hmains,
    List.any_eq_true.mpr ⟨_, hagain, rfl⟩⟩

/-- Where a start begins in a run that has fuel, there is only one thing that starts reply. -/
theorem eq_of_startsReply {engine : Engine σ} {fuel : Nat} {guest : Guest σ α} {m m' : Machine σ}
    {before after : List (Mark σ)} {thread : ThreadId} {arguments : List String}
    {reply reply' : Except Fatal Unit}
    (htrace : Machine.trace engine fuel guest m = before ++ after)
    (hrun : (Machine.run engine fuel guest m).1 ≠ .error .exhausted)
    (hbegins : .begins (.request (.boot thread arguments)) m' ∈ after)
    (h : StartsReply engine reply after) (h' : StartsReply engine reply' after) :
    reply = reply' := by
  obtain ⟨front, back, rfl⟩ := List.append_of_mem hbegins
  rw [← List.append_assoc] at htrace
  obtain ⟨fuel', later, hspan⟩ := Machine.exists_traceOf htrace
  -- the start that begins has one reply, which both say
  rcases h front thread arguments m' fuel' later (by rw [hspan]) with hreply | hspent
  · rcases h' front thread arguments m' fuel' later (by rw [hspan]) with hreply' | hspent
    · rw [hreply] at hreply'
      exact Except.ok.inj hreply'
    · rw [hreply] at hspent
      exact nomatch hspent
  · -- its last mark would tell that it was out of fuel
    refine absurd (Machine.exhausted_of_spent ⟨.ends (.request (.boot thread arguments))
      (.error .exhausted) (Machine.perform engine (fuel' + 1)
        (.request (.boot thread arguments)) m').2, ?_, rfl⟩) hrun
    rw [htrace, hspan, Machine.traceOf_succ, hspent]
    simp

/-- A program is run, a start asked for, and the program run again. -/
def mainBootMain : Guest Unit (Except Fatal Unit × Except Fatal Unit × Except Fatal Unit) :=
  .ask (.supervise (.named "app/Main") []) fun first =>
    .ask (.boot ⟨5⟩ []) fun second =>
      .ask (.supervise (.named "app/Main") []) fun third => .done (first, second, third)

/-- An engine that panics in initialisers. -/
def panickingEngine : Engine Unit where
  respond call :=
    if call.method.key = Procedure.initializerKey then .ask .panic nofun else .done (.ok none)

/-- **A start that was unwound is forgotten.** The first program ends with the panic of an
initialiser in the middle of its start, and its supervisor says so. The start that is asked for then
replies success, and the second program's main method is invoked on a machine that was never set up. -/
theorem not_failureLasts_abandoned :
    ¬ FailureLasts panickingEngine
        (Machine.trace panickingEngine 8 mainBootMain (.new sparseFinder none ())) ∧
    (Machine.run panickingEngine 8 mainBootMain (.new sparseFinder none ())).1 =
      .ok (.error (.internal (.threadPanicked Procedure.mainThreadName)), .ok (), .ok ()) ∧
    ((Machine.run panickingEngine 8 mainBootMain (.new sparseFinder none ())).2.events.any fun
      | .called call => call.method.key = Procedure.mainKey
      | _ => false) = true := by
  have hreplies : (Machine.run panickingEngine 8 mainBootMain (.new sparseFinder none ())).1 =
      .ok (.error (.internal (.threadPanicked Procedure.mainThreadName)), .ok (), .ok ()) := by
    decide +kernel
  have hmain : ((Machine.run panickingEngine 8 mainBootMain
      (.new sparseFinder none ())).2.events.any fun
        | .called call => call.method.key = Procedure.mainKey
        | _ => false) = true := by decide +kernel
  have hmarks : (Machine.trace panickingEngine 8 mainBootMain (.new sparseFinder none ())).tails.any
      (startsAgainAfter (.error .panicked)) = true := by decide +kernel
  refine ⟨fun hlasts => ?_, hreplies, hmain⟩
  -- the run has a start behind the one that was unwound
  obtain ⟨before, thread, arguments, m, after, _, _, _, hsplit, hagain⟩ :=
    exists_start_of_tails hmarks
  have hrun : (Machine.run panickingEngine 8 mainBootMain (.new sparseFinder none ())).1 ≠
      .error .exhausted := by
    rw [hreplies]
    simp
  obtain ⟨hstarts, -⟩ := hlasts before thread arguments (.error .panicked) m after hsplit
    (by simp) (by simp)
  obtain ⟨hboot, hquiet⟩ := (Machine.life_trace panickingEngine 8 mainBootMain
    (.new sparseFinder none ())).after_failure hsplit (by simp) (by simp)
  rw [hboot] at hquiet
  have hsucceed : StartsReply panickingEngine BootState.booting.reply after :=
    startsReply_of_quiet panickingEngine (by decide) hquiet
  rw [List.append_cons] at hsplit
  -- the start behind it would have to reply both
  have hboth := eq_of_startsReply hsplit hrun hagain hstarts hsucceed
  cases hboth

end ClassHost
