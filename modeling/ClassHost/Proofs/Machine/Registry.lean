import ClassHost.Proofs.Machine.Execution
import ClassHost.Proofs.Machine.ObjectSteps

/-!
# What the registry counts

The registry counts the threads that run, and lists the workers among them. Whoever waits for all
threads lets every worker end; if others run besides the workers, for example a main thread that
waits in its turn, it waits in vain.

`Machine.Busy` says how many others there are. No step changes their number (`keepsBusy_perform`): a
launch counts a worker and lists it, waiting takes every worker off the count, and a main thread
enters the count and leaves it again, also if it was unwound. So a main thread on a machine where no
others run does not wait in vain, and what it ends with is what its supervisor replies
(`supervised_of_busy`).
-/

namespace ClassHost

variable {σ : Type} {m m' : Machine σ} {others : Nat}

namespace Machine

/-- So many threads run besides the workers. -/
def Busy (m : Machine σ) (others : Nat) : Prop :=
  m.registry.running = m.registry.workers.length + others

theorem Busy.of_registry (h : m.Busy others) (hregistry : m'.registry = m.registry) :
    m'.Busy others := by
  rwa [Busy, hregistry]

theorem busy_new (classPath : Finder) (delegateClass : Option String) (memory : σ) :
    (Machine.new classPath delegateClass memory).Busy 0 := rfl

theorem Busy.enter (h : m.Busy others) :
    m.entered.Busy (others + 1) := by
  simp only [Busy, entered, Registry.enter] at h ⊢
  omega

theorem Busy.leave (h : m.Busy (others + 1)) :
    m.left.Busy others := by
  simp only [Busy, left, Registry.leave] at h ⊢
  omega

theorem Busy.launch (h : m.Busy others) (worker : Worker σ) :
    ({ m with registry := m.registry.launch worker } : Machine σ).Busy others := by
  simp only [Busy, Registry.launch, Registry.enter, List.length_append, List.length_singleton]
    at h ⊢
  omega

/-- Once every worker has ended, only the others run. -/
theorem Busy.running_settle (h : m.Busy others) : m.settle.registry.running = others := by
  have hrunning : m.settle.registry.running = m.registry.running - m.registry.workers.length := rfl
  rw [hrunning]
  simp only [Busy] at h
  omega

theorem Busy.settle (h : m.Busy others) : m.settle.Busy others :=
  h.running_settle.trans (Nat.zero_add others).symm

end Machine

-- ---------------------------------------------------------------------------
-- Steps
-- ---------------------------------------------------------------------------

theorem Machine.OnlyObjects.registry_eq (h : m.OnlyObjects m') : m'.registry = m.registry := by
  obtain ⟨heap, strings, rfl⟩ := h
  rfl

/-- Launching and waiting are the only accesses that write to the registry. -/
theorem Access.registry_cases (access : Access σ) (m : Machine σ) :
    (∃ worker, access = .launch worker) ∨ access = .settle ∨
      (access.apply m).2.registry = m.registry := by
  cases access with
  | launch worker => exact .inl ⟨worker, rfl⟩
  | settle => exact .inr (.inl rfl)
  | newInstance type => exact .inr (.inr (Machine.onlyObjects_allocating _ m).registry_eq)
  | newArray type length => exact .inr (.inr (Machine.onlyObjects_allocating _ m).registry_eq)
  | newStringArray texts => exact .inr (.inr (Machine.newStringArray_apply texts m).registry_eq)
  | intern text => exact .inr (.inr (Machine.onlyObjects_intern text m).registry_eq)
  | bindStrings type => exact .inr (.inr (Machine.onlyObjects_bindStrings type m).registry_eq)
  | setField object key value => exact .inr (.inr (Machine.onlyObjects_writing _ m).registry_eq)
  | setElement object index value => exact .inr (.inr (Machine.onlyObjects_writing _ m).registry_eq)
  | raise error => exact .inr (.inr (Machine.onlyObjects_raise error m).registry_eq)
  | attachPeer thread peer =>
    -- a thread gets its peer, if there is such a thread
    refine .inr (.inr ?_)
    change (Machine.attachPeer thread peer m).2.registry = m.registry
    rw [Machine.attachPeer_apply]
    split
    · rfl
    · split <;> rfl
  | _ => exact .inr (.inr rfl)

theorem Access.busy_apply (access : Access σ) (h : m.Busy others) :
    (access.apply m).2.Busy others := by
  rcases access.registry_cases m with ⟨worker, rfl⟩ | rfl | hregistry
  · exact h.launch worker
  · exact h.settle
  · exact h.of_registry hregistry

theorem Upkeep.busy_apply (upkeep : Upkeep) (h : m.Busy others) :
    (upkeep.apply m).2.Busy others :=
  h.of_registry (upkeep.keeps m).2.2.2.2

namespace Machine

/-- The others are as many as before. -/
abbrev KeepsBusy (m m' : Machine σ) : Prop := ∀ others, m.Busy others → m'.Busy others

theorem follows_keepsBusy : Follows (σ := σ) KeepsBusy KeepsBusy where
  refl _ _ h := h
  trans h h' others hm := h' others (h others hm)
  halt h h' others hm := h' others (h others hm)

theorem keepsBusy_supervised {body : Running σ (Except Fatal Unit)}
    (h : Leads KeepsBusy KeepsBusy body) : Leads KeepsBusy KeepsBusy (supervised body) := by
  refine leads_iff.mpr fun m others hm => ?_
  have hbody := leads_iff.mp h m.entered (others + 1) hm.enter
  rw [supervised_apply]
  rcases hrun : body m.entered with ⟨(_ | _) | fatal | done, last⟩
  · rw [hrun] at hbody
    exact hbody.leave
  · rw [hrun] at hbody
    exact hbody.leave
  · rw [hrun] at hbody
    exact hbody.leave
  · rw [hrun] at hbody
    exact hbody.leave.settle

/-- **Every step** leaves as many others as it found, by induction over the nesting. -/
theorem keepsBusy_perform (engine : Engine σ) (fuel : Nat) (step : Step σ) :
    Leads KeepsBusy KeepsBusy (perform engine fuel step) := by
  have hhalt : ∀ m : Machine σ, KeepsBusy m m := follows_keepsBusy.refl
  induction fuel generalizing step with
  | zero => exact leads_throw hhalt .exhausted
  | succ fuel ih =>
    have hrun : ∀ {ε α : Type} (procedure : Procedure σ ε α),
        Leads KeepsBusy KeepsBusy (procedure.exec engine fuel) := fun procedure =>
      leads_run follows_keepsBusy (Program.only_true procedure.run) fun step _ => ih step
    match step with
    | .request (.access access) =>
      exact leads_perform_access hhalt fun m others => access.busy_apply
    | .request (.initClass thread type) => exact hrun (Procedure.initialization thread type)
    | .request (.invoke thread method arguments) =>
      exact hrun (Procedure.invocation thread method arguments)
    | .request (.boot thread arguments) => exact hrun (Procedure.booting thread arguments)
    | .request (.supervise entry arguments) =>
      -- the main thread enters and leaves by itself
      exact keepsBusy_supervised (hrun (Procedure.mainThread entry arguments))
    | .request .panic => exact leads_throw hhalt .panicked
    | .callEngine call =>
      exact leads_run follows_keepsBusy (Program.only_true (engine.respond call))
        fun request _ => ih (.request request)
    | .upkeep upkeep => exact leads_perform_upkeep hhalt fun m others => upkeep.busy_apply

/-- What a supervisor replies when it does not wait in vain: what its thread ended with. -/
def threadReply : Except Halt (Except Fatal Unit) → Except Halt (Except Fatal Unit)
  | .error .panicked => .ok (.error (.internal (.threadPanicked Procedure.mainThreadName)))
  | result => result

/-- **A main thread with no others around.** Its supervisor waits for the workers that it left
behind, and for nothing else. -/
theorem supervised_of_busy {body : Running σ (Except Fatal Unit)}
    (h : (body m.entered).2.Busy 1) : (supervised body m).1 = threadReply (body m.entered).1 := by
  rw [supervised_apply]
  rcases hbody : body m.entered with ⟨(_ | _) | fatal | done, last⟩
  · rfl
  · rfl
  · rfl
  · rw [hbody] at h
    exact if_pos h.leave.running_settle

end Machine

end ClassHost
