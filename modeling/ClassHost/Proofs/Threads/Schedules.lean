import ClassHost.Proofs.Machine.Registry
import Mathlib.Data.Set.Functor
import Mathlib.Logic.Relation

/-!
# Every schedule

`Machine.perform` lets workers end where somebody waits for them, and in the order of their launch.
On threads of their own they end whenever they like, and meanwhile they work and launch others.

`Scheduled.perform` carries the same steps out for every schedule: it is `Machine.perform` in a
monad of sets, with an interlude before each step in which the workers get as far as they like
(`WorkerMoves`). What holds of all its ends holds under every schedule, and what `Machine.perform`
comes to is one of them (`covers_perform`).

A relation that keeps up with everything that is done to a registry (`Kept`) is followed by every
step under every schedule (`along_perform`).
-/

namespace ClassHost

variable {σ α β : Type}

-- ---------------------------------------------------------------------------
-- Sets of ends
-- ---------------------------------------------------------------------------

/-- A run whose schedule is left open: the set of all its ends. -/
abbrev Scheduled (σ α : Type) := ExceptT Halt (StateT (Machine σ) SetM) α

namespace Scheduled

/-- Some schedule takes the run from this machine to this end. -/
def CanEnd (x : Scheduled σ α) (m : Machine σ) (result : Except Halt α) (m' : Machine σ) : Prop :=
  (result, m') ∈ (x m).run

/-- The run with these ends. -/
def ofEnds (ends : Machine σ → Except Halt α → Machine σ → Prop) : Scheduled σ α := fun m =>
  ({last | ends m last.1 last.2} : Set (Except Halt α × Machine σ))

/-- A change in which no schedule has a hand. -/
def change (x : StateM (Machine σ) α) : Scheduled σ α :=
  ofEnds fun m result m' => (result, m') = (.ok (x m).1, (x m).2)

section

variable {m m' : Machine σ}

theorem canEnd_pure {a : α} {result : Except Halt α} :
    (pure a : Scheduled σ α).CanEnd m result m' ↔ result = .ok a ∧ m' = m := Prod.mk_inj

theorem canEnd_throw {halt : Halt} {result : Except Halt α} :
    (throw halt : Scheduled σ α).CanEnd m result m' ↔ result = .error halt ∧ m' = m := Prod.mk_inj

/-- Two runs in a row: a schedule of the first one is followed by one of the second, or the first
one halts. -/
theorem canEnd_bind {x : Scheduled σ α} {f : α → Scheduled σ β} {result : Except Halt β} :
    (x >>= f).CanEnd m result m' ↔
      (∃ a middle, x.CanEnd m (.ok a) middle ∧ (f a).CanEnd middle result m') ∨
      ∃ halt, result = .error halt ∧ x.CanEnd m (.error halt) m' := by
  change (result, m') ∈ (⋃ first ∈ (x m).run, (ExceptT.bindCont f first.1 first.2).run) ↔ _
  simp only [Set.mem_iUnion, exists_prop, Prod.exists]
  constructor
  · rintro ⟨halt | a, middle, hfirst, hrest⟩
    · obtain ⟨rfl, rfl⟩ := Prod.mk.inj hrest
      exact .inr ⟨halt, rfl, hfirst⟩
    · exact .inl ⟨a, middle, hfirst, hrest⟩
  · rintro (⟨a, middle, hfirst, hrest⟩ | ⟨halt, rfl, hfirst⟩)
    · exact ⟨.ok a, middle, hfirst, hrest⟩
    · exact ⟨.error halt, m', hfirst, rfl⟩

end

-- ---------------------------------------------------------------------------
-- Workers
-- ---------------------------------------------------------------------------

/-- What a worker does by itself. -/
inductive WorkerMoves : Machine σ → Machine σ → Prop where
  /-- It ends, and its place in the count is free. -/
  | ends {m : Machine σ} {before after : List (Worker σ)} {worker : Worker σ}
      (hworkers : m.registry.workers = before ++ worker :: after) :
      WorkerMoves m { m with
        registry := { m.registry.leave with workers := before ++ after }
        memory := worker.effect m.memory }
  | launches {m : Machine σ} {launcher : Worker σ} (hruns : launcher ∈ m.registry.workers)
      (worker : Worker σ) : WorkerMoves m { m with registry := m.registry.launch worker }
  /-- It may change all but the registry. -/
  | works {m m' : Machine σ} {worker : Worker σ} (hruns : worker ∈ m.registry.workers)
      (hregistry : m'.registry = m.registry) : WorkerMoves m m'

/-- Waiting as `Machine.perform` does it, in the order of the launches, is one way for all workers
to end. -/
theorem reflTransGen_settle (m : Machine σ) : Relation.ReflTransGen WorkerMoves m m.settle := by
  obtain ⟨workers, hworkers⟩ : ∃ workers, m.registry.workers = workers := ⟨_, rfl⟩
  induction workers generalizing m with
  | nil =>
    have hregistry : m.registry.settle m.memory = (m.registry, m.memory) := by
      simp only [Registry.settle, hworkers, List.length_nil, Nat.sub_zero, List.foldl_nil]
      rw [← hworkers]
    rw [show m.settle = m by rw [Machine.settle, hregistry]]
  | cons worker rest ih =>
    refine .head (@WorkerMoves.ends σ m [] rest worker hworkers) ?_
    have hsettle := ih { m with
      registry := { m.registry.leave with workers := rest }
      memory := worker.effect m.memory } rfl
    have hsame : m.registry.running - 1 - rest.length = m.registry.running - (rest.length + 1) := by
      omega
    simpa only [Machine.settle, Registry.settle, Registry.leave, hworkers, hsame,
      List.length_cons, List.foldl_cons, List.nil_append] using hsettle

/-- The workers get as far as they like. -/
def interlude : Scheduled σ Unit :=
  ofEnds fun m result m' => result = .ok () ∧ Relation.ReflTransGen WorkerMoves m m'

-- ---------------------------------------------------------------------------
-- Steps
-- ---------------------------------------------------------------------------

/-- How the supervisor of a thread comes back, by what the thread ended with and by the machine that
it left. Until then the workers go on. -/
inductive Returns (ended : Except Halt (Except Fatal Unit)) (last : Machine σ) :
    Except Halt (Except Fatal Unit) → Machine σ → Prop where
  /-- Of a failure it tells at once. -/
  | failed {fatal : Fatal} {m' : Machine σ}
      (hreply : Machine.threadReply ended = .ok (.error fatal))
      (hmoves : Relation.ReflTransGen WorkerMoves last m') :
      Returns ended last (.ok (.error fatal)) m'
  /-- Otherwise it waits until the count is zero. -/
  | waited {m' : Machine σ} (hreply : Machine.threadReply ended = .ok (.ok ()))
      (hmoves : Relation.ReflTransGen WorkerMoves last m') (hzero : m'.registry.running = 0) :
      Returns ended last (.ok (.ok ())) m'
  /-- It waits in vain if the count is not zero when all workers have ended. -/
  | vain {m' : Machine σ} (hreply : Machine.threadReply ended = .ok (.ok ()))
      (hmoves : Relation.ReflTransGen WorkerMoves last m') (hworkers : m'.registry.workers = [])
      (hcount : m'.registry.running ≠ 0) : Returns ended last (.error .exhausted) m'
  | halted {halt : Halt} (hreply : Machine.threadReply ended = .error halt) :
      Returns ended last (.error halt) last

/-- Runs a thread to its end, with the workers beside it, and supervises it. -/
def supervised (body : Scheduled σ (Except Fatal Unit)) : Scheduled σ (Except Fatal Unit) :=
  ofEnds fun m result m' =>
    ∃ ended last, body.CanEnd m.entered ended last ∧ Returns ended last.left result m'

/-- Carries out a step while the workers go on with theirs. -/
def perform (engine : Engine σ) : Nat → (step : Step σ) → Scheduled σ step.Reply
  | 0, _ => throw .exhausted
  | fuel + 1, step => interlude >>= fun () =>
    match step with
    | .request (.access access) => change access.apply
    | .request (.initClass thread type) =>
      (Procedure.initialization thread type).run.run (perform engine fuel)
    | .request (.invoke thread method arguments) =>
      (Procedure.invocation thread method arguments).run.run (perform engine fuel)
    | .request (.boot thread arguments) =>
      (Procedure.booting thread arguments).run.run (perform engine fuel)
    | .request (.supervise entry arguments) =>
      supervised ((Procedure.mainThread entry arguments).run.run (perform engine fuel))
    | .request .panic => throw .panicked
    | .callEngine call => (engine.respond call).run fun request =>
      perform engine fuel (.request request)
    | .upkeep upkeep => change upkeep.apply

/-- A start comes back as the supervisor of its main thread does. -/
theorem canEnd_supervise {engine : Engine σ} {fuel : Nat} {entry : EntryClass}
    {arguments : List String} {m m' : Machine σ} {result : Except Halt (Except Fatal Unit)} :
    (perform engine (fuel + 1) (.request (.supervise entry arguments))).CanEnd m result m' ↔
      ∃ before ended last, Relation.ReflTransGen WorkerMoves m before ∧
        ((Procedure.mainThread entry arguments).run.run (perform engine fuel)).CanEnd before.entered
          ended last ∧ Returns ended last.left result m' := by
  rw [perform, canEnd_bind]
  constructor
  · rintro (⟨_, before, ⟨-, hmoves⟩, ended, last, hbody, hreturns⟩ | ⟨halt, -, hhalt, -⟩)
    · exact ⟨before, ended, last, hmoves, hbody, hreturns⟩
    · exact nomatch hhalt
  · rintro ⟨before, ended, last, hmoves, hbody, hreturns⟩
    exact .inl ⟨(), before, ⟨rfl, hmoves⟩, ended, last, hbody, hreturns⟩

/-- A start that succeeds has read a count of zero. -/
theorem running_of_success {engine : Engine σ} {fuel : Nat} {entry : EntryClass}
    {arguments : List String} {m m' : Machine σ}
    (h : (perform engine fuel (.request (.supervise entry arguments))).CanEnd m (.ok (.ok ())) m') :
    m'.registry.running = 0 := by
  cases fuel with
  | zero => exact nomatch (canEnd_throw.mp h).1
  | succ fuel =>
    obtain ⟨before, ended, last, hbefore, hbody, hreturns⟩ := canEnd_supervise.mp h
    cases hreturns with
    | waited hreply hmoves hzero => exact hzero

-- ---------------------------------------------------------------------------
-- One of the schedules
-- ---------------------------------------------------------------------------

/-- What the run comes to is one of the ends. -/
def Covers (x : Scheduled σ α) (run : Running σ α) : Prop := ∀ m, x.CanEnd m (run m).1 (run m).2

variable {m m' : Machine σ}

theorem covers_change (x : StateM (Machine σ) α) : (change x).Covers (ExceptT.lift x) :=
  fun _ => rfl

theorem covers_throw (halt : Halt) : (throw halt : Scheduled σ α).Covers (throw halt) :=
  fun _ => rfl

theorem covers_bind {x : Scheduled σ α} {f : α → Scheduled σ β} {run : Running σ α}
    {next : α → Running σ β} (hx : x.Covers run) (hf : ∀ a, (f a).Covers (next a)) :
    (x >>= f).Covers (run >>= next) := by
  intro m
  have hends := hx m
  rw [canEnd_bind, Effect.bind_apply]
  rcases hrun : run m with ⟨halt | a, middle⟩
  · rw [hrun] at hends
    exact .inr ⟨halt, rfl, hends⟩
  · rw [hrun] at hends
    exact .inl ⟨a, middle, hends, hf a middle⟩

/-- A program comes to one of its ends if its operations do. -/
theorem covers_run {Op : Type} {Reply : Op → Type} {scheduled : (op : Op) → Scheduled σ (Reply op)}
    {perform : (op : Op) → Running σ (Reply op)} (h : ∀ op, (scheduled op).Covers (perform op))
    (p : Program Op Reply α) : (p.run scheduled).Covers (p.run perform) := by
  induction p with
  | done result => exact fun _ => rfl
  | ask op next ih => exact covers_bind (h op) ih

/-- Between two steps, it may be that no worker gets anywhere. -/
theorem Covers.interlude {x : Scheduled σ α} {run : Running σ α} (h : x.Covers run) :
    (Scheduled.interlude >>= fun () => x).Covers run := fun m =>
  canEnd_bind.mpr (.inl ⟨(), m, ⟨rfl, .refl⟩, h m⟩)

theorem covers_supervised {body : Scheduled σ (Except Fatal Unit)}
    {run : Running σ (Except Fatal Unit)} (h : body.Covers run) :
    (supervised body).Covers (Machine.supervised run) := by
  intro m
  have hbody := h m.entered
  rw [Machine.supervised_apply]
  -- a run that stopped or failed leaves at once; one that is done waits for the workers first
  rcases hrun : run m.entered with ⟨(_ | _) | fatal | done, last⟩
  · rw [hrun] at hbody
    exact ⟨_, last, hbody, .failed rfl .refl⟩
  · rw [hrun] at hbody
    exact ⟨_, last, hbody, .halted rfl⟩
  · rw [hrun] at hbody
    exact ⟨_, last, hbody, .failed rfl .refl⟩
  · rw [hrun] at hbody
    refine ⟨_, last, hbody, ?_⟩
    have hsettle := reflTransGen_settle last.left
    dsimp only
    split
    · exact .waited rfl hsettle ‹_›
    · exact .vain rfl hsettle rfl ‹_›

/-- **`Machine.perform` follows one of the schedules**, by induction over the nesting. -/
theorem covers_perform (engine : Engine σ) (fuel : Nat) (step : Step σ) :
    (perform engine fuel step).Covers (Machine.perform engine fuel step) := by
  induction fuel generalizing step with
  | zero => exact covers_throw .exhausted
  | succ fuel ih =>
    -- the schedule in which no worker moves in between is one of the schedules
    refine Covers.interlude ?_
    match step with
    | .request (.access access) => exact covers_change access.apply
    | .request (.initClass thread type) =>
      exact covers_run ih (Procedure.initialization thread type).run
    | .request (.invoke thread method arguments) =>
      exact covers_run ih (Procedure.invocation thread method arguments).run
    | .request (.boot thread arguments) =>
      exact covers_run ih (Procedure.booting thread arguments).run
    | .request (.supervise entry arguments) =>
      exact covers_supervised (covers_run ih (Procedure.mainThread entry arguments).run)
    | .request .panic => exact covers_throw .panicked
    | .callEngine call =>
      exact covers_run (fun request => ih (.request request)) (engine.respond call)
    | .upkeep upkeep => exact covers_change upkeep.apply

/-- What `Machine.perform` comes to is one of the ends. -/
theorem canEnd_of_perform {engine : Engine σ} {fuel : Nat} {step : Step σ}
    {result : Except Halt step.Reply} (h : (Machine.perform engine fuel step m).1 = result) :
    (perform engine fuel step).CanEnd m result (Machine.perform engine fuel step m).2 :=
  h ▸ covers_perform engine fuel step m

-- ---------------------------------------------------------------------------
-- Relations that all schedules follow
-- ---------------------------------------------------------------------------

/-- Under every schedule, the run ends in a machine to which the relation holds. -/
def Along (relation : Machine σ → Machine σ → Prop) (x : Scheduled σ α) : Prop :=
  ∀ m result m', x.CanEnd m result m' → relation m m'

/-- A relation that may be followed one step after the other, and that keeps up with everything that
is done to a registry. -/
structure Kept (relation : Machine σ → Machine σ → Prop) : Prop where
  trans : ∀ {m m' m''}, relation m m' → relation m' m'' → relation m m''
  same : ∀ {m m' : Machine σ}, m'.registry = m.registry → relation m m'
  launch : ∀ (m : Machine σ) (worker : Worker σ),
    relation m { m with registry := m.registry.launch worker }
  worker : ∀ {m m'}, WorkerMoves m m' → relation m m'
  /-- A thread that is run to its end enters the registry and leaves it. -/
  thread : ∀ {m last : Machine σ}, relation m.entered last → relation m last.left

variable {relation : Machine σ → Machine σ → Prop}

theorem along_change {x : StateM (Machine σ) α} (h : ∀ m, relation m (x m).2) :
    (change x).Along relation := by
  intro m result m' hends
  obtain ⟨-, rfl⟩ := Prod.mk.inj hends
  exact h m

variable (hkept : Kept relation)

include hkept

theorem Kept.workers (hmoves : Relation.ReflTransGen WorkerMoves m m') : relation m m' := by
  induction hmoves with
  | refl => exact hkept.same rfl
  | tail _ hmove ih => exact hkept.trans ih (hkept.worker hmove)

theorem along_bind {x : Scheduled σ α} {f : α → Scheduled σ β} (hx : x.Along relation)
    (hf : ∀ a, (f a).Along relation) : (x >>= f).Along relation := by
  intro m result m' hends
  rcases canEnd_bind.mp hends with ⟨a, middle, hfirst, hrest⟩ | ⟨halt, -, hfirst⟩
  · exact hkept.trans (hx _ _ _ hfirst) (hf a _ _ _ hrest)
  · exact hx _ _ _ hfirst

theorem along_throw (halt : Halt) : (throw halt : Scheduled σ α).Along relation := by
  intro m result m' hends
  obtain ⟨-, rfl⟩ := canEnd_throw.mp hends
  exact hkept.same rfl

theorem along_run {Op : Type} {Reply : Op → Type} {scheduled : (op : Op) → Scheduled σ (Reply op)}
    (h : ∀ op, (scheduled op).Along relation) (p : Program Op Reply α) :
    (p.run scheduled).Along relation := by
  induction p with
  | done result =>
    intro m _ m' hends
    obtain ⟨-, rfl⟩ := canEnd_pure.mp hends
    exact hkept.same rfl
  | ask op next ih => exact along_bind hkept (h op) ih

theorem along_access (access : Access σ) : (change access.apply).Along relation := by
  refine along_change fun m => ?_
  rcases access.registry_cases m with ⟨worker, rfl⟩ | rfl | hregistry
  · exact hkept.launch m worker
  · exact hkept.workers (reflTransGen_settle m)
  · exact hkept.same hregistry

theorem along_interlude : (interlude : Scheduled σ Unit).Along relation :=
  fun _ _ _ ⟨_, hmoves⟩ => hkept.workers hmoves

theorem along_supervised {body : Scheduled σ (Except Fatal Unit)} (h : body.Along relation) :
    (supervised body).Along relation := by
  rintro m result m' ⟨ended, last, hbody, hreturns⟩
  have hthread := hkept.thread (h _ _ _ hbody)
  cases hreturns with
  | failed hreply hmoves => exact hkept.trans hthread (hkept.workers hmoves)
  | waited hreply hmoves hzero => exact hkept.trans hthread (hkept.workers hmoves)
  | vain hreply hmoves hworkers hcount => exact hkept.trans hthread (hkept.workers hmoves)
  | halted hreply => exact hthread

/-- **Every step, under every schedule**, by induction over the nesting. -/
theorem along_perform (engine : Engine σ) (fuel : Nat) (step : Step σ) :
    (perform engine fuel step).Along relation := by
  induction fuel generalizing step with
  | zero => exact along_throw hkept .exhausted
  | succ fuel ih =>
    -- workers may move before every step, and their moves keep the relation
    refine along_bind hkept (along_interlude hkept) fun () => ?_
    match step with
    | .request (.access access) => exact along_access hkept access
    | .request (.initClass thread type) =>
      exact along_run hkept ih (Procedure.initialization thread type).run
    | .request (.invoke thread method arguments) =>
      exact along_run hkept ih (Procedure.invocation thread method arguments).run
    | .request (.boot thread arguments) =>
      exact along_run hkept ih (Procedure.booting thread arguments).run
    | .request (.supervise entry arguments) =>
      exact along_supervised hkept (along_run hkept ih (Procedure.mainThread entry arguments).run)
    | .request .panic => exact along_throw hkept .panicked
    | .callEngine call =>
      exact along_run hkept (fun request => ih (.request request)) (engine.respond call)
    | .upkeep upkeep => exact along_change fun m => hkept.same (upkeep.keeps m).2.2.2.2

end Scheduled

end ClassHost
