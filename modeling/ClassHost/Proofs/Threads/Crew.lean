import ClassHost.Threads
import Mathlib.Data.List.Infix

/-!
# Threads that launch threads

A registry counts a thread before it is spawned, and the count goes down when the thread ends: when
its body returned or was unwound, or when it could not be spawned in the first place. In between,
running threads launch others, and nobody decides in which order all this happens.

A `Crew` is a registry together with everything that was launched through it. `Crew.Move` says what
can happen next, one change of the count at a time, so a `Crew.Run` is any interleaving of the
threads. What carries all results is one invariant: the count is exact, it is the number of threads
that have not ended (`Exact.move`). Since only a running thread or the supervisor outside launches,
an exact count of zero is final: nobody is left who could raise it (`Exact.eq_of_run`). So whoever
waits for a zero has waited for everything that was launched before, by whomever (`running_exact`).
-/

namespace ClassHost

-- ---------------------------------------------------------------------------
-- Crews
-- ---------------------------------------------------------------------------

/-- How a launched thread ended. -/
inductive Ending where
  /-- It could not be spawned. -/
  | refused
  | returned
  | unwound
  deriving Repr, DecidableEq

/-- Where a launched thread is. -/
inductive Phase where
  /-- It is counted, and still to be spawned. -/
  | counted
  | running
  | ended (ending : Ending)
  deriving Repr, DecidableEq

namespace Phase

def isEnded : Phase → Bool
  | ended _ => true
  | _ => false

/-- A thread that is still to be spawned can be refused, and a running one can return or be
unwound. -/
def Ends : Phase → Ending → Prop
  | counted, ending => ending = .refused
  | running, ending => ending ≠ .refused
  | ended _, _ => False

theorem Ends.isEnded {phase : Phase} {ending : Ending} (h : phase.Ends ending) :
    phase.isEnded = false := by
  cases phase with
  | counted => rfl
  | running => rfl
  | ended => exact h.elim

end Phase

/-- A launched thread, and the place of the thread that launched it. Without one, it was launched by
the supervisor. -/
structure Launched where
  launcher : Option Nat
  phase : Phase
  deriving Repr, DecidableEq

/-- A registry, and all threads launched through it, in the order in which they were counted. -/
structure Crew (σ : Type) where
  registry : Registry σ
  launched : List Launched

/-- What can happen in a crew. -/
inductive Act where
  /-- A launch begins: a thread is counted. -/
  | count (launcher : Option Nat)
  /-- The launch succeeds: the thread is spawned. -/
  | spawn (thread : Nat)
  /-- The thread has ended, and gives its place in the count back. -/
  | finish (thread : Nat) (ending : Ending)
  deriving Repr, DecidableEq

namespace Crew

variable {σ : Type}

/-- Nothing was launched yet. -/
def new : Crew σ := ⟨.empty, []⟩

/-- The thread is in the middle of launching another one. -/
def Launching (crew : Crew σ) (thread : Nat) : Prop :=
  ∃ t ∈ crew.launched, t.launcher = some thread ∧ t.phase = .counted

instance (crew : Crew σ) (thread : Nat) : Decidable (crew.Launching thread) :=
  inferInstanceAs (Decidable (∃ t ∈ crew.launched, t.launcher = some thread ∧ t.phase = .counted))

/-- The thread was spawned and has not ended. -/
def Working (crew : Crew σ) (thread : Nat) : Prop :=
  ∃ launcher, crew.launched[thread]? = some ⟨launcher, .running⟩

/-- The supervisor can launch at any time, and a thread while it runs and launches no other. -/
def CanLaunch (crew : Crew σ) : Option Nat → Prop
  | none => True
  | some thread => crew.Working thread ∧ ¬ crew.Launching thread

/-- The crew with another thread that is counted. -/
def count (crew : Crew σ) (launcher : Option Nat) : Crew σ :=
  ⟨crew.registry.enter, crew.launched ++ [⟨launcher, .counted⟩]⟩

/-- The crew with a thread that was spawned. -/
def spawn (crew : Crew σ) (thread : Nat) (launcher : Option Nat) : Crew σ :=
  ⟨crew.registry, crew.launched.set thread ⟨launcher, .running⟩⟩

/-- The crew with a thread that ended. -/
def finish (crew : Crew σ) (thread : Nat) (launcher : Option Nat) (ending : Ending) : Crew σ :=
  ⟨crew.registry.leave, crew.launched.set thread ⟨launcher, .ended ending⟩⟩

/-- One thing that happens. It changes the count at most once, and the lock of the count keeps such
changes apart. -/
inductive Move (crew : Crew σ) : Act → Crew σ → Prop where
  | count {launcher : Option Nat} (hcan : crew.CanLaunch launcher) :
      Move crew (.count launcher) (crew.count launcher)
  | spawn {thread : Nat} {launcher : Option Nat}
      (hplace : crew.launched[thread]? = some ⟨launcher, .counted⟩) :
      Move crew (.spawn thread) (crew.spawn thread launcher)
  | finish {thread : Nat} {launcher : Option Nat} {phase : Phase} {ending : Ending}
      (hplace : crew.launched[thread]? = some ⟨launcher, phase⟩) (hends : phase.Ends ending)
      (hfree : ¬ crew.Launching thread) :
      Move crew (.finish thread ending) (crew.finish thread launcher ending)

/-- Any number of things that happen one after the other, in any order that is possible. -/
inductive Run : Crew σ → List Act → Crew σ → Prop where
  | nil (crew : Crew σ) : Run crew [] crew
  | cons {crew next last : Crew σ} {act : Act} {acts : List Act} (hmove : crew.Move act next)
      (hrun : Run next acts last) : Run crew (act :: acts) last

/-- The crew can come about from one without threads. -/
def Reachable (crew : Crew σ) : Prop := ∃ acts, Run .new acts crew

/-- Waiting for all threads: the count is read over and over until it is zero, and anything may
happen between two reads. -/
inductive Waits : Crew σ → Crew σ → Prop where
  | done {crew : Crew σ} (hzero : crew.registry.running = 0) : Waits crew crew
  | again {crew later last : Crew σ} {acts : List Act} (hcount : crew.registry.running ≠ 0)
      (hbetween : Run crew acts later) (hwaits : Waits later last) : Waits crew last

/-- How many threads have not ended. -/
def unended (crew : Crew σ) : Nat := crew.launched.countP fun t => !t.phase.isEnded

/-- The count is exact. -/
def Exact (crew : Crew σ) : Prop := crew.registry.running = crew.unended

variable {crew next last : Crew σ} {act : Act} {acts : List Act} {thread : Nat}
  {launcher : Option Nat} {phase : Phase} {ending : Ending} {t : Launched}

-- ---------------------------------------------------------------------------
-- The count
-- ---------------------------------------------------------------------------

theorem unended_count (crew : Crew σ) (launcher : Option Nat) :
    (crew.count launcher).unended = crew.unended + 1 := by
  simp [unended, count, Phase.isEnded]

/-- A thread that moves on is one less if it ends, and otherwise as many as before. -/
theorem unended_set (hplace : crew.launched[thread]? = some ⟨launcher, phase⟩)
    (hphase : phase.isEnded = false) (registry : Registry σ) (later : Phase) :
    (Crew.mk registry (crew.launched.set thread ⟨launcher, later⟩)).unended +
      (if later.isEnded then 1 else 0) = crew.unended := by
  obtain ⟨hlt, hthread⟩ := List.getElem?_eq_some_iff.mp hplace
  have hpos : 0 < crew.unended :=
    List.countP_pos_iff.mpr ⟨_, List.mem_of_getElem? hplace, by simp [hphase]⟩
  simp only [unended, List.countP_set hlt, hthread, hphase] at hpos ⊢
  cases later.isEnded
  · simp
    omega
  · simp
    omega

theorem unended_spawn (hplace : crew.launched[thread]? = some ⟨launcher, .counted⟩) :
    (crew.spawn thread launcher).unended = crew.unended :=
  unended_set hplace rfl crew.registry .running

theorem unended_finish (hplace : crew.launched[thread]? = some ⟨launcher, phase⟩)
    (hends : phase.Ends ending) :
    (crew.finish thread launcher ending).unended + 1 = crew.unended :=
  unended_set hplace hends.isEnded crew.registry.leave (.ended ending)

theorem exact_new : (new : Crew σ).Exact := rfl

/-- Where the count is exact, it is not zero before it goes down. -/
theorem Exact.running_finish (h : crew.Exact)
    (hplace : crew.launched[thread]? = some ⟨launcher, phase⟩) (hends : phase.Ends ending) :
    crew.registry.running = (crew.finish thread launcher ending).registry.running + 1 := by
  have hrunning : (crew.finish thread launcher ending).registry.running =
      crew.registry.running - 1 := rfl
  rw [hrunning, h, ← unended_finish hplace hends, Nat.add_sub_cancel]

/-- **Whatever happens next**, an exact count stays exact. -/
theorem Exact.move (h : crew.Exact) (hmove : crew.Move act next) : next.Exact := by
  cases hmove with
  | @count launcher hcan =>
    have hrunning : (crew.count launcher).registry.running = crew.registry.running + 1 := rfl
    rw [Exact, hrunning, h, unended_count]
  | @spawn thread launcher hplace => exact h.trans (unended_spawn hplace).symm
  | @finish thread launcher phase ending hplace hends hfree =>
    have hrunning := h.running_finish hplace hends
    rw [h, ← unended_finish hplace hends] at hrunning
    exact (Nat.succ.inj hrunning).symm

theorem Exact.run (h : crew.Exact) (hrun : Run crew acts last) : last.Exact := by
  induction hrun with
  | nil crew => exact h
  | cons hmove hrun ih => exact ih (h.move hmove)

theorem Reachable.exact (h : crew.Reachable) : crew.Exact := by
  obtain ⟨acts, hrun⟩ := h
  exact exact_new.run hrun

-- ---------------------------------------------------------------------------
-- Zero
-- ---------------------------------------------------------------------------

/-- An exact count of zero says that every thread has ended. -/
theorem Exact.isEnded_of_zero (h : crew.Exact) (hzero : crew.registry.running = 0)
    (ht : t ∈ crew.launched) : t.phase.isEnded = true := by
  have hnone := List.countP_eq_zero.mp (h.symm.trans hzero) t ht
  simpa using hnone

/-- Where every thread has ended, only the supervisor can do anything, and that is to launch. -/
theorem Move.eq_count (hended : ∀ t ∈ crew.launched, t.phase.isEnded = true)
    (hmove : crew.Move act next) : act = .count none := by
  cases hmove with
  | @count launcher hcan =>
    cases launcher with
    | none => rfl
    | some thread =>
      obtain ⟨⟨launcher, hplace⟩, -⟩ := hcan
      exact nomatch hended _ (List.mem_of_getElem? hplace)
  | spawn hplace => exact nomatch hended _ (List.mem_of_getElem? hplace)
  | finish hplace hends hfree =>
    have hphase := hended _ (List.mem_of_getElem? hplace)
    rw [hends.isEnded] at hphase
    exact nomatch hphase

/-- **Zero is final.** As long as the supervisor launches nothing, nothing happens any more. -/
theorem Exact.eq_of_run (h : crew.Exact) (hzero : crew.registry.running = 0)
    (hrun : Run crew acts last) (hquiet : .count none ∉ acts) : last = crew := by
  cases hrun with
  | nil => rfl
  | cons hmove hrun =>
    obtain rfl := hmove.eq_count fun t ht => h.isEnded_of_zero hzero ht
    exact absurd List.mem_cons_self hquiet

-- ---------------------------------------------------------------------------
-- Waiting
-- ---------------------------------------------------------------------------

/-- Who launched each thread. -/
def launchers (crew : Crew σ) : List (Option Nat) := crew.launched.map Launched.launcher

theorem launchers_set (hplace : crew.launched[thread]? = some ⟨launcher, phase⟩) (later : Phase) :
    (crew.launched.set thread ⟨launcher, later⟩).map Launched.launcher = crew.launchers := by
  obtain ⟨hlt, hthread⟩ := List.getElem?_eq_some_iff.mp hplace
  have hsame : crew.launched.set thread ⟨launcher, phase⟩ = crew.launched := by
    rw [← hthread]
    exact List.set_getElem_self hlt
  calc (crew.launched.set thread ⟨launcher, later⟩).map Launched.launcher
    _ = (crew.launched.map Launched.launcher).set thread launcher := List.map_set
    _ = (crew.launched.set thread ⟨launcher, phase⟩).map Launched.launcher := by rw [List.map_set]
    _ = crew.launchers := by rw [hsame, launchers]

/-- What was launched stays in its place, and more may follow. -/
theorem Move.launchers_prefix (hmove : crew.Move act next) :
    crew.launchers <+: next.launchers := by
  cases hmove with
  | @count launcher hcan => exact ⟨[launcher], by simp [launchers, Crew.count]⟩
  | spawn hplace => exact (launchers_set hplace _).symm ▸ List.prefix_rfl
  | finish hplace hends hfree => exact (launchers_set hplace _).symm ▸ List.prefix_rfl

theorem Run.launchers_prefix (hrun : Run crew acts last) : crew.launchers <+: last.launchers := by
  induction hrun with
  | nil crew => exact List.prefix_rfl
  | cons hmove hrun ih => exact hmove.launchers_prefix.trans ih

theorem Run.append {acts' : List Act} (hrun : Run crew acts next) (hrest : Run next acts' last) :
    Run crew (acts ++ acts') last := by
  induction hrun with
  | nil crew => exact hrest
  | cons hmove hrun ih => exact .cons hmove (ih hrest)

/-- Whoever waits comes back to a crew that the threads got to meanwhile, and its count is zero. -/
theorem Waits.exists_run (hwaits : Waits crew last) :
    (∃ acts, Run crew acts last) ∧ last.registry.running = 0 := by
  induction hwaits with
  | done hzero => exact ⟨⟨[], .nil _⟩, hzero⟩
  | again hcount hbetween hwaits ih =>
    obtain ⟨⟨acts, hrun⟩, hzero⟩ := ih
    exact ⟨⟨_, hbetween.append hrun⟩, hzero⟩

/-- **The count of running threads is exact, and its zero is final.** In every crew that can come
about, whatever the order in which its threads launch others, fail to, return and are unwound:

* the count is the number of threads that have not ended;
* it is not zero before it goes down, so it never goes below zero;
* from zero on nothing happens any more, unless the supervisor launches;
* whoever waits comes back to a count of zero, and every thread that was launched before, or by now,
  has ended. -/
theorem running_exact (h : crew.Reachable) :
    crew.registry.running = crew.unended ∧
    (∀ thread ending next, crew.Move (.finish thread ending) next →
      crew.registry.running = next.registry.running + 1) ∧
    (crew.registry.running = 0 → ∀ acts last, Run crew acts last → .count none ∉ acts →
      last = crew) ∧
    (∀ last, Waits crew last → last.registry.running = 0 ∧ crew.launchers <+: last.launchers ∧
      ∀ t ∈ last.launched, t.phase.isEnded = true) := by
  have hexact := h.exact
  refine ⟨hexact, fun thread ending next hmove => ?_, fun hzero acts last hrun hquiet => ?_,
    fun last hwaits => ?_⟩
  · cases hmove with
    | finish hplace hends hfree => exact hexact.running_finish hplace hends
  · exact hexact.eq_of_run hzero hrun hquiet
  · obtain ⟨⟨acts, hrun⟩, hzero⟩ := hwaits.exists_run
    exact ⟨hzero, hrun.launchers_prefix, fun t => (hexact.run hrun).isEnded_of_zero hzero⟩

/-- A main thread was unwound after it had launched a worker, which runs and could not launch
another. -/
def outlived : Crew Unit where
  registry := ⟨1, []⟩
  launched := [⟨none, .ended .unwound⟩, ⟨some 0, .running⟩, ⟨some 1, .ended .refused⟩]

/-- Since then, the worker has launched another one, and both have returned. -/
def settled : Crew Unit where
  registry := ⟨0, []⟩
  launched := [⟨none, .ended .unwound⟩, ⟨some 0, .ended .returned⟩, ⟨some 1, .ended .refused⟩,
    ⟨some 1, .ended .returned⟩]

theorem reachable_outlived : outlived.Reachable := by
  refine ⟨[.count none, .spawn 0, .count (some 0), .spawn 1, .finish 0 .unwound, .count (some 1),
    .finish 2 .refused], ?_⟩
  refine .cons (.count trivial) (.cons (.spawn rfl) ?_)
  refine .cons (.count ⟨⟨none, rfl⟩, by decide⟩) (.cons (.spawn rfl) ?_)
  refine .cons (.finish rfl Ending.noConfusion (by decide)) ?_
  refine .cons (.count ⟨⟨some 0, rfl⟩, by decide⟩) (.cons (.finish rfl rfl (by decide)) ?_)
  exact .nil outlived

theorem waits_outlived : Waits outlived settled := by
  have hrun : Run outlived [.count (some 1), .spawn 3, .finish 1 .returned, .finish 3 .returned]
      settled := by
    refine .cons (.count ⟨⟨some 0, rfl⟩, by decide⟩) (.cons (.spawn rfl) ?_)
    refine .cons (.finish rfl Ending.noConfusion (by decide)) ?_
    refine .cons (.finish rfl Ending.noConfusion (by decide)) ?_
    exact .nil settled
  exact .again (by decide) hrun (.done rfl)

theorem outlived_running_exact :
    outlived.registry.running = outlived.unended ∧ outlived.unended = 1 ∧
    Waits outlived settled ∧ settled.registry.running = 0 ∧
    outlived.launchers <+: settled.launchers ∧ ∀ t ∈ settled.launched, t.phase.isEnded = true := by
  obtain ⟨hcount, -, -, hwaits⟩ := running_exact reachable_outlived
  exact ⟨hcount, rfl, waits_outlived, hwaits settled waits_outlived⟩

end Crew

end ClassHost
