import ClassHost.Proofs.Boot.MainThread
import ClassHost.Proofs.Boot.Once
import ClassHost.Proofs.Threads.Schedules

/-!
# What a supervisor leaves running

A supervisor is the gate through which a program ends: it should come back when every thread has
ended, whatever the main thread came to. It does so only if the main thread returned. A main thread
that failed or was unwound is told of at once, and the workers that it launched run on.

`start_returns` says both of every schedule, and `not_startsSettle` has the engines that show the
difference.
-/

namespace ClassHost

variable {σ : Type} {engine : Engine σ} {fuel : Nat} {entry : EntryClass} {arguments : List String}
  {m m' : Machine σ} {others : Nat}

/-- No thread is left: the count is zero, and no worker runs. -/
def Machine.AllEnded (m : Machine σ) : Prop := m.registry.running = 0 ∧ m.registry.workers = []

/-- Whatever the program, its arguments and the schedule: when the start of a main thread comes
back, every thread has ended. -/
def StartsSettle (engine : Engine σ) (m : Machine σ) : Prop :=
  ∀ fuel entry arguments result m',
    (Scheduled.perform engine fuel (.request (.supervise entry arguments))).CanEnd m
      (.ok result) m' → m'.AllEnded

/-- How many threads run besides the workers is the same under every schedule. -/
theorem kept_keepsBusy : Scheduled.Kept (σ := σ) Machine.KeepsBusy where
  trans h h' := Machine.follows_keepsBusy.trans h h'
  same hregistry _ hm := hm.of_registry hregistry
  launch _ worker _ hm := hm.launch worker
  worker hmove others hm := by
    cases hmove with
    | ends hworkers =>
      simp only [Machine.Busy, hworkers, Registry.leave, List.length_append, List.length_cons]
        at hm ⊢
      omega
    | launches hruns worker => exact hm.launch worker
    | works hruns hregistry => exact hm.of_registry hregistry
  thread hlast others hm := (hlast (others + 1) hm.enter).leave

namespace Machine

/-- If nobody else runs, zero says that no worker does. -/
theorem Busy.allEnded_iff (hm : m.Busy others) :
    m.AllEnded ↔ m.registry.workers = [] ∧ others = 0 := by
  rw [Busy] at hm
  constructor
  · rintro ⟨hzero, hworkers⟩
    rw [hzero, hworkers, List.length_nil] at hm
    exact ⟨hworkers, by omega⟩
  · rintro ⟨hworkers, rfl⟩
    rw [hworkers, List.length_nil] at hm
    exact ⟨hm, hworkers⟩

theorem Busy.allEnded_of_zero (hm : m.Busy others) (hzero : m.registry.running = 0) :
    m.AllEnded := by
  rw [Busy, hzero] at hm
  exact ⟨hzero, List.length_eq_zero_iff.mp (by omega)⟩

end Machine

/-- **What a start leaves running**, under every schedule. If it returns success, every thread has
ended. If it returns a failure, it has not waited: it may come back as soon as its main thread is
gone, and then or at any later time with the workers that have not ended of their own accord. So all
have ended exactly if no worker is left and nobody else runs. -/
theorem start_returns {result : Except Fatal Unit} (hm : m.Busy others)
    (h : (Scheduled.perform engine fuel (.request (.supervise entry arguments))).CanEnd m
      (.ok result) m') :
    (result = .ok () → m'.AllEnded) ∧
    ∀ fatal, result = .error fatal →
      (m'.AllEnded ↔ m'.registry.workers = [] ∧ others = 0) ∧
      ∃ left, Relation.ReflTransGen Scheduled.WorkerMoves left m' ∧
        ∀ m'', Relation.ReflTransGen Scheduled.WorkerMoves left m'' →
          (Scheduled.perform engine fuel (.request (.supervise entry arguments))).CanEnd m
            (.ok (.error fatal)) m'' := by
  have hkeeps := Scheduled.along_perform kept_keepsBusy engine fuel _ m _ m' h
  have hm' : m'.Busy others := hkeeps others hm
  cases fuel with
  | zero => exact nomatch (Scheduled.canEnd_throw.mp h).1
  | succ fuel =>
    obtain ⟨before, ended, last, hbefore, hbody, hreturns⟩ := Scheduled.canEnd_supervise.mp h
    cases hreturns with
    | waited hreply hmoves hzero =>
      exact ⟨fun _ => hm'.allEnded_of_zero hzero, fun _ hresult => nomatch hresult⟩
    | @failed fatal _ hreply hmoves =>
      -- having failed, the thread has left without waiting, so the workers may stop anywhere
      refine ⟨nofun, fun fatal' hresult => ?_⟩
      obtain rfl := Except.error.inj hresult
      refine ⟨hm'.allEnded_iff, last.left, hmoves, fun m'' hmoves' => ?_⟩
      exact Scheduled.canEnd_supervise.mpr ⟨before, ended, last, hbefore, hbody,
        .failed hreply hmoves'⟩

/-- An engine whose methods of this key launch a worker, and then end like this. -/
def launchingEngine (key : MethodKey) (ending : Guest Unit (Except Throwable (Option Value))) :
    Engine Unit where
  respond call :=
    if call.method.key = key then .ask (.access (.launch ⟨"worker", id⟩)) fun _ => ending
    else .done (.ok none)

/-- Starting a program with such an engine. -/
def launchingRun (key : MethodKey) (ending : Guest Unit (Except Throwable (Option Value)))
    (m : Machine Unit) : Except Halt (Except Fatal Unit) × Machine Unit :=
  Machine.perform (launchingEngine key ending) 6 (.request (.supervise (.named "app/Main") [])) m

section

variable {key : MethodKey} {ending : Guest Unit (Except Throwable (Option Value))}
  {m : Machine Unit}

theorem canEnd_launchingRun {result : Except Halt (Except Fatal Unit)}
    (h : (launchingRun key ending m).1 = result) :
    (Scheduled.perform (launchingEngine key ending) 6
      (.request (.supervise (.named "app/Main") []))).CanEnd m result
        (launchingRun key ending m).2 :=
  Scheduled.canEnd_of_perform h

/-- The start came back with a failure, and a thread was running. -/
def failsEarly : Except Halt (Except Fatal Unit) × Machine Unit → Bool
  | (.ok (.error _), m) => m.registry.running ≠ 0
  | _ => false

theorem not_startsSettle_of_failsEarly (h : failsEarly (launchingRun key ending m) = true) :
    ¬ StartsSettle (launchingEngine key ending) m := by
  intro hsettles
  rcases hrun : launchingRun key ending m with ⟨halt | fatal | done, m'⟩
  · rw [hrun] at h
    exact nomatch h
  · have hends := canEnd_launchingRun (congrArg Prod.fst hrun)
    rw [hrun] at h hends
    exact of_decide_eq_true h (hsettles _ _ _ _ _ hends).1
  · rw [hrun] at h
    exact nomatch h

end

/-- A machine that is up already. -/
def bootedMachine : Machine Unit := { programMachine with boot := .booted }

/-- There, a main method launches a worker and returns. -/
def waitingRun : Except Halt (Except Fatal Unit) × Machine Unit :=
  launchingRun Procedure.mainKey (.done (.ok none)) bootedMachine

/-- The start waits for that worker. -/
theorem waitingRun_allEnded : returns waitingRun = true ∧ waitingRun.2.AllEnded := by
  have hreturns : returns waitingRun = true := by decide +kernel
  have hresult : waitingRun.1 = .ok (.ok ()) := congrArg Prod.fst (eq_of_returns hreturns)
  have hbusy : bootedMachine.Busy 0 := rfl
  exact ⟨hreturns, (start_returns hbusy (canEnd_launchingRun hresult)).1 rfl⟩

/-- A call that panics. -/
def panicking : Guest Unit (Except Throwable (Option Value)) := .ask .panic nofun

/-- **Workers outlive the start.** A main method launches a worker and throws; an initialiser
launches one and panics. Both starts come back while the worker is still running. -/
theorem not_startsSettle :
    ¬ StartsSettle (launchingEngine Procedure.mainKey
        (.done (.error (.internal (.other "out of luck"))))) programMachine ∧
    ¬ StartsSettle (launchingEngine Procedure.initializerKey panicking)
        (.new sparseFinder none ()) :=
  ⟨not_startsSettle_of_failsEarly (by decide +kernel),
    not_startsSettle_of_failsEarly (by decide +kernel)⟩

end ClassHost
