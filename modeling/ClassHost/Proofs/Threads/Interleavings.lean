import ClassHost.Proofs.Threads.Crew
import ClassHost.Proofs.Threads.Schedules

/-!
# Machines and their crews

Whatever a machine does to its registry, under whatever schedule, a crew can do
(`exists_run_of_canEnd`). So what holds of all crews holds of the registries of machines: after a
start that succeeded, every thread has ended that was ever launched, by the main thread or by a
worker (`exists_settled_of_start`).

`Crew.Explains` relates the two. The crew knows all threads, also those that have ended. The machine
lists the workers that have not; `staff` has their places in the crew. Main threads and whatever
else is counted are in the crew, but not on its staff, and no step does anything to them
(`Crew.Spares`). The code that is carried out is on one of these, or on the supervisor's own thread.
-/

namespace ClassHost

variable {σ : Type}

namespace Crew

/-- The crew with another thread, which runs. -/
def launch (crew : Crew σ) (launcher : Option Nat) : Crew σ :=
  ⟨crew.registry.enter, crew.launched ++ [⟨launcher, .running⟩]⟩

/-- The crew's count is that of the machine, and its staff are the machine's workers. The code that
the machine carries out is on the thread `own`, or the supervisor's. -/
structure Explains (crew : Crew σ) (own : Option Nat) (staff : List Nat) (m : Machine σ) :
    Prop where
  running : crew.registry.running = m.registry.running
  length : staff.length = m.registry.workers.length
  nodup : staff.Nodup
  working : ∀ thread ∈ staff, crew.Working thread
  own : ∀ thread ∈ own, crew.Working thread ∧ thread ∉ staff
  /-- No launch is under way. -/
  spawned : ∀ t ∈ crew.launched, t.phase ≠ .counted

/-- Nothing has happened to threads that are not on the staff, and they are still not. -/
def Spares (crew : Crew σ) (staff : List Nat) (later : Crew σ) (staff' : List Nat) : Prop :=
  ∀ thread t, crew.launched[thread]? = some t → thread ∉ staff →
    later.launched[thread]? = some t ∧ thread ∉ staff'

variable {crew later last : Crew σ} {own launcher : Option Nat} {staff staff' staff'' : List Nat}
  {thread : Nat} {m m' : Machine σ} {t : Launched}

theorem Spares.trans (h : crew.Spares staff later staff') (h' : later.Spares staff' last staff'') :
    crew.Spares staff last staff'' := by
  intro thread t hplace hstaff
  obtain ⟨hlater, hstaff'⟩ := h thread t hplace hstaff
  exact h' thread t hlater hstaff'

theorem Spares.working (h : crew.Spares staff later staff') (hworking : crew.Working thread)
    (hstaff : thread ∉ staff) : later.Working thread ∧ thread ∉ staff' := by
  obtain ⟨launcher, hplace⟩ := hworking
  obtain ⟨hlater, hstaff'⟩ := h thread _ hplace hstaff
  exact ⟨⟨launcher, hlater⟩, hstaff'⟩

-- ---------------------------------------------------------------------------
-- Launching
-- ---------------------------------------------------------------------------

/-- A launch that succeeds takes two moves. -/
theorem run_launch (hcan : crew.CanLaunch launcher) :
    Run crew [.count launcher, .spawn crew.launched.length] (crew.launch launcher) := by
  have hplace : (crew.count launcher).launched[crew.launched.length]? =
      some ⟨launcher, .counted⟩ := List.getElem?_concat_length
  have hlaunch : (crew.count launcher).spawn crew.launched.length launcher =
      crew.launch launcher := by
    simp [Crew.count, Crew.spawn, Crew.launch]
  exact .cons (.count hcan) (.cons (.spawn hplace) (hlaunch ▸ .nil _))

theorem getElem?_launch (hplace : crew.launched[thread]? = some t) (launcher : Option Nat) :
    (crew.launch launcher).launched[thread]? = some t := by
  obtain ⟨hlt, -⟩ := List.getElem?_eq_some_iff.mp hplace
  exact (List.getElem?_append_left hlt).trans hplace

theorem working_launch (crew : Crew σ) (launcher : Option Nat) :
    (crew.launch launcher).Working crew.launched.length :=
  ⟨launcher, List.getElem?_concat_length⟩

theorem Working.launch (h : crew.Working thread) (launcher : Option Nat) :
    (crew.launch launcher).Working thread := by
  obtain ⟨launcher', hplace⟩ := h
  exact ⟨launcher', getElem?_launch hplace launcher⟩

theorem Working.lt (h : crew.Working thread) : thread < crew.launched.length := by
  obtain ⟨launcher, hplace⟩ := h
  exact (List.getElem?_eq_some_iff.mp hplace).1

theorem spares_launch (crew : Crew σ) (launcher : Option Nat) (staff : List Nat) :
    crew.Spares staff (crew.launch launcher) (staff ++ [crew.launched.length]) := by
  intro thread t hplace hstaff
  obtain ⟨hlt, -⟩ := List.getElem?_eq_some_iff.mp hplace
  exact ⟨getElem?_launch hplace launcher, by simp [hstaff, hlt.ne]⟩

namespace Explains

variable (h : crew.Explains own staff m)

include h

theorem not_launching (thread : Nat) : ¬ crew.Launching thread := by
  rintro ⟨t, ht, -, hphase⟩
  exact h.spawned t ht hphase

theorem canLaunch (hworking : crew.Working thread) : crew.CanLaunch (some thread) :=
  ⟨hworking, h.not_launching thread⟩

theorem canLaunch_own : crew.CanLaunch own := by
  cases own with
  | none => trivial
  | some thread => exact h.canLaunch (h.own thread rfl).1

theorem length_notMem : crew.launched.length ∉ staff := fun hmem =>
  Nat.lt_irrefl _ (h.working _ hmem).lt

theorem spawned_launch (launcher : Option Nat) :
    ∀ t ∈ (crew.launch launcher).launched, t.phase ≠ .counted := by
  intro t ht
  rcases List.mem_append.mp ht with ht | ht
  · exact h.spawned t ht
  · obtain rfl := List.mem_singleton.mp ht
    exact Phase.noConfusion

/-- A thread that is launched as a worker joins the staff. -/
theorem launch (launcher : Option Nat) (worker : Worker σ) :
    (crew.launch launcher).Explains own (staff ++ [crew.launched.length])
      { m with registry := m.registry.launch worker } where
  running := congrArg (· + 1) h.running
  length := by
    simp only [Registry.launch, Registry.enter, List.length_append, List.length_singleton, h.length]
  nodup := by
    refine List.nodup_append.mpr ⟨h.nodup, List.pairwise_singleton _ _, ?_⟩
    rintro thread hthread _ hother rfl
    exact h.length_notMem (List.mem_singleton.mp hother ▸ hthread)
  working thread hthread := by
    rcases List.mem_append.mp hthread with hthread | hthread
    · exact (h.working thread hthread).launch launcher
    · exact List.mem_singleton.mp hthread ▸ working_launch crew launcher
  own thread hthread := by
    obtain ⟨hworking, hstaff⟩ := h.own thread hthread
    exact ⟨hworking.launch launcher, by simp [hstaff, hworking.lt.ne]⟩
  spawned := h.spawned_launch launcher

/-- A main thread is launched, and goes on with the code that is carried out. -/
theorem enter : (crew.launch own).Explains (some crew.launched.length) staff m.entered where
  running := congrArg (· + 1) h.running
  length := h.length
  nodup := h.nodup
  working thread hthread := (h.working thread hthread).launch own
  own thread hthread := by
    obtain rfl := Option.some.inj hthread
    exact ⟨working_launch crew own, h.length_notMem⟩
  spawned := h.spawned_launch own

end Explains

-- ---------------------------------------------------------------------------
-- Ending
-- ---------------------------------------------------------------------------

variable {ending : Ending}

theorem getElem?_finish (hplace : crew.launched[thread]? = some t) {ended : Nat}
    (hne : thread ≠ ended) : (crew.finish ended launcher ending).launched[thread]? = some t :=
  (List.getElem?_set_ne hne.symm).trans hplace

theorem Working.finish (h : crew.Working thread) {ended : Nat} (hne : thread ≠ ended) :
    (crew.finish ended launcher ending).Working thread := by
  obtain ⟨launcher', hplace⟩ := h
  exact ⟨launcher', getElem?_finish hplace hne⟩

theorem spawned_finish (h : ∀ t ∈ crew.launched, t.phase ≠ .counted) :
    ∀ t ∈ (crew.finish thread launcher ending).launched, t.phase ≠ .counted := by
  intro t ht
  rcases List.mem_or_eq_of_mem_set ht with ht | rfl
  · exact h t ht
  · exact Phase.noConfusion

namespace Explains

/-- A thread that runs can return. -/
theorem run_finish (h : crew.Explains own staff m)
    (hplace : crew.launched[thread]? = some ⟨launcher, .running⟩) :
    Run crew [.finish thread .returned] (crew.finish thread launcher .returned) :=
  .cons (.finish hplace Ending.noConfusion (h.not_launching thread)) (.nil _)

/-- A worker that ends leaves the staff, and nothing happens to anybody else. -/
theorem ends (h : crew.Explains own staff m) {before after : List (Worker σ)} {worker : Worker σ}
    (hworkers : m.registry.workers = before ++ worker :: after)
    (hrunning : m'.registry.running = m.registry.running - 1)
    (hleft : m'.registry.workers = before ++ after) :
    ∃ acts later staff', Run crew acts later ∧ later.Explains own staff' m' ∧
      crew.Spares staff later staff' := by
  have hlength := h.length
  rw [hworkers, List.length_append, List.length_cons] at hlength
  -- the staff stands in the order of the workers, so the one that ends has a place in it
  obtain ⟨front, thread, back, rfl, hfront⟩ : ∃ front thread back,
      staff = front ++ thread :: back ∧ front.length = before.length := by
    refine ⟨staff.take before.length, staff[before.length], staff.drop (before.length + 1), ?_, ?_⟩
    · rw [List.getElem_cons_drop, List.take_append_drop]
    · rw [List.length_take]
      omega
  -- no thread is on the staff twice, so the others are still working after it
  have hperm : (front ++ thread :: back).Perm (thread :: (front ++ back)) := List.perm_middle
  obtain ⟨hthread, hnodup⟩ := List.nodup_cons.mp (hperm.nodup_iff.mp h.nodup)
  have hout : ∀ other, other ∉ front ++ thread :: back →
      other ≠ thread ∧ other ∉ front ++ back := by
    intro other hother
    rwa [hperm.mem_iff, List.mem_cons, not_or] at hother
  obtain ⟨launcher, hplace⟩ := h.working thread (by simp)
  refine ⟨_, crew.finish thread launcher .returned, front ++ back, h.run_finish hplace, ?_, ?_⟩
  · exact
    { running := (congrArg (· - 1) h.running).trans hrunning.symm
      length := by
        simp only [List.length_append, List.length_cons, hleft] at hlength ⊢
        omega
      nodup := hnodup
      working := by
        intro other hother
        have hworking := h.working other (hperm.mem_iff.mpr (List.mem_cons_of_mem thread hother))
        exact hworking.finish fun heq => hthread (heq ▸ hother)
      own := by
        intro other hown
        obtain ⟨hworking, hstaff⟩ := h.own other hown
        exact ⟨hworking.finish (hout other hstaff).1, (hout other hstaff).2⟩
      spawned := spawned_finish h.spawned }
  · intro other t ht hstaff
    exact ⟨getElem?_finish ht (hout other hstaff).1, (hout other hstaff).2⟩

/-- A main thread leaves the crew. Whoever had the code before has it again. -/
theorem leave {thread : Nat} (h : later.Explains (some thread) staff m)
    (hown : ∀ other ∈ own, later.Working other ∧ other ∉ staff ∧ other ≠ thread) :
    ∃ acts last, Run later acts last ∧ last.Explains own staff m.left ∧
      ∀ other t, later.launched[other]? = some t → other ≠ thread →
        last.launched[other]? = some t := by
  -- the thread that leaves works for no one, so the staff stays as it is
  obtain ⟨⟨launcher, hplace⟩, hthread⟩ := h.own thread rfl
  refine ⟨_, later.finish thread launcher .returned, h.run_finish hplace, ?_,
    fun other t ht hne => getElem?_finish ht hne⟩
  exact
    { running := congrArg (· - 1) h.running
      length := h.length
      nodup := h.nodup
      working := fun other hother =>
        (h.working other hother).finish fun heq => hthread (heq ▸ hother)
      own := by
        intro other hother
        obtain ⟨hworking, hstaff, hne⟩ := hown other hother
        exact ⟨hworking.finish hne, hstaff⟩
      spawned := spawned_finish h.spawned }

end Explains

-- ---------------------------------------------------------------------------
-- Runs
-- ---------------------------------------------------------------------------

/-- Whichever crew explains the first machine, it can go on until it explains the second one. -/
def Follows (m m' : Machine σ) : Prop :=
  ∀ crew own staff, crew.Explains own staff m →
    ∃ acts later staff', Run crew acts later ∧ later.Explains own staff' m' ∧
      crew.Spares staff later staff'

theorem Explains.of_registry (h : crew.Explains own staff m)
    (hregistry : m'.registry = m.registry) : crew.Explains own staff m' where
  running := hregistry ▸ h.running
  length := hregistry ▸ h.length
  nodup := h.nodup
  working := h.working
  own := h.own
  spawned := h.spawned

theorem follows_of_registry (hregistry : m'.registry = m.registry) : Follows m m' :=
  fun crew _ staff h => ⟨[], crew, staff, .nil crew, h.of_registry hregistry,
    fun _ _ hplace hstaff => ⟨hplace, hstaff⟩⟩

theorem follows_trans {m'' : Machine σ} (h : Follows m m') (h' : Follows m' m'') :
    Follows m m'' := by
  intro crew own staff hcrew
  obtain ⟨acts, later, staff', hrun, hlater, hspares⟩ := h crew own staff hcrew
  obtain ⟨acts', last, staff'', hrun', hlast, hspares'⟩ := h' later own staff' hlater
  exact ⟨_, last, staff'', hrun.append hrun', hlast, hspares.trans hspares'⟩

theorem follows_worker (hmove : Scheduled.WorkerMoves m m') : Follows m m' := by
  intro crew own staff h
  cases hmove with
  | ends hworkers => exact h.ends hworkers rfl rfl
  | launches hruns worker =>
    obtain ⟨index, hindex, -⟩ := List.mem_iff_getElem.mp hruns
    have hworking := h.working _ (List.getElem_mem (h.length ▸ hindex))
    exact ⟨_, _, _, run_launch (h.canLaunch hworking), h.launch _ worker, spares_launch _ _ _⟩
  | works hruns hregistry => exact follows_of_registry hregistry crew own staff h

/-- A thread that is run to its end is launched, works, and returns. -/
theorem follows_thread {last : Machine σ} (hbody : Follows m.entered last) :
    Follows m last.left := by
  intro crew own staff h
  obtain ⟨acts, later, staff', hrun, hlater, hspares⟩ := hbody _ _ _ h.enter
  have hown : ∀ other ∈ own, later.Working other ∧ other ∉ staff' ∧
      other ≠ crew.launched.length := by
    intro other hother
    obtain ⟨hworking, hstaff⟩ := h.own other hother
    obtain ⟨hlater, hstaff'⟩ := hspares.working (hworking.launch own) hstaff
    exact ⟨hlater, hstaff', hworking.lt.ne⟩
  obtain ⟨acts', last', hrun', hlast, hkept⟩ := hlater.leave hown
  refine ⟨_, last', staff', (run_launch h.canLaunch_own).append (hrun.append hrun'), hlast, ?_⟩
  intro other t hplace hstaff
  obtain ⟨hlt, -⟩ := List.getElem?_eq_some_iff.mp hplace
  obtain ⟨hplace', hstaff'⟩ := hspares other t (getElem?_launch hplace own) hstaff
  exact ⟨hkept other t hplace' hlt.ne, hstaff'⟩

theorem kept_follows : Scheduled.Kept (σ := σ) Follows where
  trans h h' := follows_trans h h'
  same hregistry := follows_of_registry hregistry
  launch _ worker _ own _ h :=
    ⟨_, _, _, run_launch h.canLaunch_own, h.launch own worker, spares_launch _ _ _⟩
  worker hmove := follows_worker hmove
  thread hbody := follows_thread hbody

theorem explains_new (classPath : Finder) (delegateClass : Option String) (memory : σ) :
    (new : Crew σ).Explains none [] (.new classPath delegateClass memory) where
  running := rfl
  length := rfl
  nodup := List.nodup_nil
  working := nofun
  own := nofun
  spawned := nofun

variable {engine : Engine σ} {fuel : Nat} {step : Step σ} {result : Except Halt step.Reply}

/-- **What a machine does, a crew can do**: under every schedule, a step takes the machine to where
a run of the crew leads. -/
theorem exists_run_of_canEnd (h : (Scheduled.perform engine fuel step).CanEnd m result m')
    (hcrew : crew.Explains own staff m) :
    ∃ acts later staff', Run crew acts later ∧ later.Explains own staff' m' := by
  have hfollows := Scheduled.along_perform kept_follows engine fuel step m result m' h
  obtain ⟨acts, later, staff', hrun, hlater, -⟩ := hfollows crew own staff hcrew
  exact ⟨acts, later, staff', hrun, hlater⟩

/-- **After a start that succeeded**, every thread has ended that was ever launched, whoever
launched it and whatever the schedule. -/
theorem exists_settled_of_start {entry : EntryClass} {arguments : List String}
    (h : (Scheduled.perform engine fuel (.request (.supervise entry arguments))).CanEnd m
      (.ok (.ok ())) m') (hcrew : crew.Explains own staff m) (hexact : crew.Exact) :
    ∃ acts later, Run crew acts later ∧ later.registry.running = m'.registry.running ∧
      ∀ t ∈ later.launched, t.phase.isEnded = true := by
  obtain ⟨acts, later, staff', hrun, hlater⟩ := exists_run_of_canEnd h hcrew
  have hzero := hlater.running.trans (Scheduled.running_of_success h)
  exact ⟨acts, later, hrun, hlater.running, fun t => (hexact.run hrun).isEnded_of_zero hzero⟩

end Crew

end ClassHost
