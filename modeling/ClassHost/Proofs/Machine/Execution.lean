import ClassHost.Machine.Run
import ClassHost.Proofs.Effect

/-!
# Running programs and procedures

Two ways to reason about a run.

* **From outside.** `Program.Only` says which operations a program may ask for, whatever the
  replies. If every one of them takes machines along a relation, so does the program (`leads_run`).
  Nothing else need be known about it: that is all there is to know about an engine.
* **From inside.** `Procedure.exec` runs a procedure of the machine. Its equations evaluate what the
  machine does itself, and `exec_bind_cases` takes a sequence apart: each part returns, fails or
  halts, and only a part that returns is followed by the next one.

A step at the end of the fuel halts and changes nothing, so a procedure that got past its first step
has fuel for all steps that run no code.
-/

namespace ClassHost

-- ---------------------------------------------------------------------------
-- Programs
-- ---------------------------------------------------------------------------

namespace Program

variable {Op : Type} {Reply : Op → Type} {α β : Type} {good : Op → Prop}

theorem run_bind {m : Type → Type} [Monad m] [LawfulMonad m] (perform : (op : Op) → m (Reply op))
    (p : Program Op Reply α) (f : α → Program Op Reply β) :
    (p >>= f).run perform = p.run perform >>= fun a => (f a).run perform := by
  induction p with
  | done result => simp [run]
  | ask op next ih => simp [run, ih]

/-- Whatever the replies are, all operations that the program asks for are good. -/
def Only (good : Op → Prop) : Program Op Reply α → Prop
  | done _ => True
  | ask op next => good op ∧ ∀ reply, (next reply).Only good

theorem only_true (p : Program Op Reply α) : p.Only fun _ => True := by
  induction p with
  | done result => exact trivial
  | ask op next ih => exact ⟨trivial, ih⟩

theorem only_bind {p : Program Op Reply α} {f : α → Program Op Reply β} (hp : p.Only good)
    (hf : ∀ a, (f a).Only good) : (p >>= f).Only good := by
  induction p with
  | done result => exact hf result
  | ask op next ih => exact ⟨hp.1, fun reply => ih reply (hp.2 reply)⟩

theorem Only.mono {other : Op → Prop} (h : ∀ op, good op → other op) {p : Program Op Reply α}
    (hp : p.Only good) : p.Only other := by
  induction p with
  | done result => exact trivial
  | ask op next ih => exact ⟨h op hp.1, fun reply => ih reply (hp.2 reply)⟩

end Program

-- ---------------------------------------------------------------------------
-- Relations that runs follow
-- ---------------------------------------------------------------------------

variable {σ α β : Type}

/-- A run leads along `returned` if it ends with a reply, and along `halted` if it stops. -/
structure Leads (returned halted : Machine σ → Machine σ → Prop) (x : Running σ α) : Prop where
  of_ok : ∀ {m a m'}, x m = (.ok a, m') → returned m m'
  of_error : ∀ {m halt m'}, x m = (.error halt, m') → halted m m'

/-- A run that leads along one relation whatever it ends with. -/
theorem leads_iff {relation : Machine σ → Machine σ → Prop} {x : Running σ α} :
    Leads relation relation x ↔ ∀ m, relation m (x m).2 := by
  constructor
  · intro h m
    rcases hrun : x m with ⟨_ | _, _⟩
    · exact h.of_error hrun
    · exact h.of_ok hrun
  · intro h
    constructor
    · intro m a m' hrun
      have hm := h m
      rwa [hrun] at hm
    · intro m halt m' hrun
      have hm := h m
      rwa [hrun] at hm

theorem leads_throw {returned halted : Machine σ → Machine σ → Prop} (hhalt : ∀ m, halted m m)
    (halt : Halt) : Leads returned halted (throw halt : Running σ α) :=
  ⟨nofun, fun h => (Prod.mk.inj h).2 ▸ hhalt _⟩

/-- Relations that may be followed one step after the other. -/
structure Follows (returned halted : Machine σ → Machine σ → Prop) : Prop where
  refl : ∀ m, returned m m
  trans : ∀ {m m' m''}, returned m m' → returned m' m'' → returned m m''
  halt : ∀ {m m' m''}, returned m m' → halted m' m'' → halted m m''

section Leads

variable {returned halted : Machine σ → Machine σ → Prop} (hfollows : Follows returned halted)

include hfollows

theorem leads_pure (a : α) : Leads returned halted (pure a : Running σ α) where
  of_ok h := (Prod.mk.inj h).2 ▸ hfollows.refl _
  of_error h := nomatch h

theorem leads_bind {x : Running σ α} {f : α → Running σ β} (hx : Leads returned halted x)
    (hf : ∀ a, Leads returned halted (f a)) : Leads returned halted (x >>= f) where
  of_ok h := by
    rcases Effect.bind_cases h with ⟨a, middle, hrun, h⟩ | ⟨e, hr, -⟩
    · exact hfollows.trans (hx.of_ok hrun) ((hf a).of_ok h)
    · exact nomatch hr
  of_error h := by
    rcases Effect.bind_cases h with ⟨a, middle, hrun, h⟩ | ⟨e, -, hrun⟩
    · exact hfollows.halt (hx.of_ok hrun) ((hf a).of_error h)
    · exact hx.of_error hrun

/-- A program leads wherever all the operations lead that it may ask for. -/
theorem leads_run {Op : Type} {Reply : Op → Type} {good : Op → Prop}
    {perform : (op : Op) → Running σ (Reply op)} {p : Program Op Reply α} (hp : p.Only good)
    (hperform : ∀ op, good op → Leads returned halted (perform op)) :
    Leads returned halted (p.run perform) := by
  induction p with
  | done result => exact leads_pure hfollows result
  | ask op next ih =>
    exact leads_bind hfollows (hperform op hp.1) fun reply => ih reply (hp.2 reply)

end Leads

-- ---------------------------------------------------------------------------
-- Steps
-- ---------------------------------------------------------------------------

namespace Machine

variable (engine : Engine σ) (fuel : Nat)

theorem perform_access (access : Access σ) (m : Machine σ) :
    perform engine (fuel + 1) (.request (.access access)) m =
      (.ok (access.apply m).1, (access.apply m).2) := rfl

theorem perform_upkeep (upkeep : Upkeep) (m : Machine σ) :
    perform engine (fuel + 1) (.upkeep upkeep) m =
      (.ok (upkeep.apply m).1, (upkeep.apply m).2) := rfl

variable {engine fuel}

/-- An access that was replied to has been carried out. -/
theorem apply_of_perform_access {access : Access σ} {m m' : Machine σ} {reply : access.Reply}
    (h : perform engine fuel (.request (.access access)) m = (.ok reply, m')) :
    access.apply m = (reply, m') := by
  cases fuel with
  | zero => exact nomatch h
  | succ fuel =>
    rw [perform_access] at h
    obtain ⟨hreply, rfl⟩ := Prod.mk.inj h
    exact Prod.ext (Except.ok.inj hreply) rfl

theorem perform_access_eq_ok {access : Access σ} {m m' : Machine σ} {reply : access.Reply} :
    perform engine (fuel + 1) (.request (.access access)) m = (.ok reply, m') ↔
      access.apply m = (reply, m') := by
  constructor
  · exact apply_of_perform_access
  · intro h
    rw [perform_access, h]

theorem apply_of_perform_upkeep {upkeep : Upkeep} {m m' : Machine σ} {reply : upkeep.Reply}
    (h : perform engine fuel (.upkeep upkeep) m = (.ok reply, m')) :
    upkeep.apply m = (reply, m') := by
  cases fuel with
  | zero => exact nomatch h
  | succ fuel =>
    rw [perform_upkeep] at h
    obtain ⟨hreply, rfl⟩ := Prod.mk.inj h
    exact Prod.ext (Except.ok.inj hreply) rfl

/-- An access leads wherever carrying it out leads; without fuel it leads nowhere. -/
theorem leads_perform_access {returned halted : Machine σ → Machine σ → Prop}
    (hhalt : ∀ m, halted m m) {access : Access σ}
    (h : ∀ m, returned m (access.apply m).2) :
    Leads returned halted (perform engine fuel (.request (.access access))) where
  of_ok hrun := by
    rename_i m _ _
    have happly := h m
    rw [apply_of_perform_access hrun] at happly
    exact happly
  of_error hrun := by
    cases fuel with
    | zero => exact (Prod.mk.inj hrun).2 ▸ hhalt _
    | succ fuel => exact nomatch hrun

theorem leads_perform_upkeep {returned halted : Machine σ → Machine σ → Prop}
    (hhalt : ∀ m, halted m m) {upkeep : Upkeep}
    (h : ∀ m, returned m (upkeep.apply m).2) :
    Leads returned halted (perform engine fuel (.upkeep upkeep)) where
  of_ok hrun := by
    rename_i m _ _
    have happly := h m
    rw [apply_of_perform_upkeep hrun] at happly
    exact happly
  of_error hrun := by
    cases fuel with
    | zero => exact (Prod.mk.inj hrun).2 ▸ hhalt _
    | succ fuel => exact nomatch hrun

-- ---------------------------------------------------------------------------
-- Threads
-- ---------------------------------------------------------------------------

/-- The machine with one more thread that runs. -/
def entered (m : Machine σ) : Machine σ := { m with registry := m.registry.enter }

/-- The machine with one thread less. -/
def left (m : Machine σ) : Machine σ := { m with registry := m.registry.leave }

/-- Whoever waits for the threads lets every worker end, and waits in vain if any other thread
runs. -/
theorem awaitThreads_apply (m : Machine σ) :
    awaitThreads (σ := σ) m =
      (if m.settle.registry.running = 0 then .ok () else .error .exhausted, m.settle) := by
  unfold awaitThreads
  rw [Effect.modify_bind, Effect.get_bind, ite_not]
  split <;> rfl

/-- **Supervising a thread.** The thread enters and leaves the registry, whatever becomes of it;
only one that returned well is followed by the end of the others. -/
theorem supervised_apply (body : Running σ (Except Fatal Unit)) (m : Machine σ) :
    supervised body m =
      match body m.entered with
      | (.ok (.ok ()), last) =>
        (if last.left.settle.registry.running = 0 then .ok (.ok ()) else .error .exhausted,
          last.left.settle)
      | (.ok (.error fatal), last) => (.ok (.error fatal), last.left)
      | (.error .panicked, last) =>
        (.ok (.error (.internal (.threadPanicked Procedure.mainThreadName))), last.left)
      | (.error .exhausted, last) => (.error .exhausted, last.left) := by
  have hentered : ({ m with registry := m.registry.enter } : Machine σ) = m.entered := rfl
  unfold supervised
  rw [Effect.bind_apply]
  unfold onThread
  rw [hentered]
  -- only a thread that has returned without a failure waits for the others
  rcases body m.entered with ⟨(_ | _) | fatal | done, last⟩
  · rfl
  · rfl
  · rfl
  · have hleft : ({ last with registry := last.registry.leave } : Machine σ) = last.left := rfl
    dsimp only
    rw [hleft, Effect.bind_apply, awaitThreads_apply]
    by_cases hrunning : last.left.settle.registry.running = 0
    · rw [if_pos hrunning, if_pos hrunning]
      rfl
    · rw [if_neg hrunning, if_neg hrunning]

/-- What becomes of a thread's run: besides what the thread does, the registry and the memory
change, and out of fuel on the thread is out of fuel for its supervisor. -/
theorem supervised_cases (body : Running σ (Except Fatal Unit)) (m : Machine σ) :
    ∃ registry memory, (supervised body m).2 = { (body m.entered).2 with registry, memory } ∧
      ((body m.entered).1 = .error .exhausted → (supervised body m).1 = .error .exhausted) := by
  rw [supervised_apply]
  rcases body m.entered with ⟨(_ | _) | fatal | done, last⟩
  · exact ⟨last.registry.leave, last.memory, rfl, nofun⟩
  · exact ⟨last.registry.leave, last.memory, rfl, fun _ => rfl⟩
  · exact ⟨last.registry.leave, last.memory, rfl, nofun⟩
  · exact ⟨last.left.settle.registry, last.left.settle.memory, rfl, nofun⟩

/-- A panic does not get past the supervisor of a thread. -/
theorem supervised_ne_panicked (body : Running σ (Except Fatal Unit)) (m : Machine σ) :
    (supervised body m).1 ≠ .error .panicked := by
  rw [supervised_apply]
  rcases body m.entered with ⟨(_ | _) | fatal | done, last⟩
  · exact nofun
  · exact nofun
  · exact nofun
  · dsimp only
    split <;> exact nofun

end Machine

-- ---------------------------------------------------------------------------
-- Procedures
-- ---------------------------------------------------------------------------

namespace Procedure

variable {ε ε' : Type}

/-- Runs a procedure of the machine. -/
def exec (engine : Engine σ) (fuel : Nat) (procedure : Procedure σ ε α) :
    Running σ (Except ε α) :=
  procedure.run.run (Machine.perform engine fuel)

variable {engine : Engine σ} {fuel : Nat} {m m' : Machine σ}

theorem run_call (step : Step σ) :
    (Step.call σ step).run (Machine.perform engine fuel) = Machine.perform engine fuel step :=
  bind_pure _

/-- A procedure that only asks for a step is that step. -/
theorem perform_of_exec {step : Step σ} {r : Except Halt step.Reply}
    (h : (Step.call σ step).run (Machine.perform engine fuel) m = (r, m')) :
    Machine.perform engine fuel step m = (r, m') := by
  rwa [run_call] at h

theorem exec_bind (x : Procedure σ ε α) (f : α → Procedure σ ε β) :
    exec engine fuel (x >>= f) m =
      match exec engine fuel x m with
      | (.ok (.ok a), middle) => exec engine fuel (f a) middle
      | (.ok (.error e), middle) => (.ok (.error e), middle)
      | (.error halt, middle) => (.error halt, middle) := by
  have hrun : exec engine fuel (x >>= f) =
      exec engine fuel x >>= fun r =>
        Program.run (Machine.perform engine fuel) (ExceptT.bindCont f r) :=
    Program.run_bind _ _ _
  rw [hrun, Effect.bind_apply]
  rcases exec engine fuel x m with ⟨_ | _ | _, _⟩ <;> rfl

/-- Two procedures in a row: the first returns and the second follows, or the first fails, or it
halts. -/
theorem exec_bind_cases {x : Procedure σ ε α} {f : α → Procedure σ ε β}
    {r : Except Halt (Except ε β)} (h : exec engine fuel (x >>= f) m = (r, m')) :
    (∃ a middle, exec engine fuel x m = (.ok (.ok a), middle) ∧
      exec engine fuel (f a) middle = (r, m')) ∨
    (∃ e, r = .ok (.error e) ∧ exec engine fuel x m = (.ok (.error e), m')) ∨
    (∃ halt, r = .error halt ∧ exec engine fuel x m = (.error halt, m')) := by
  rw [exec_bind] at h
  -- stopped, failed, or gone on
  rcases hx : exec engine fuel x m with ⟨halt | e | a, middle⟩
  · rw [hx] at h
    obtain ⟨rfl, rfl⟩ := Prod.mk.inj h
    exact .inr (.inr ⟨halt, rfl, rfl⟩)
  · rw [hx] at h
    obtain ⟨rfl, rfl⟩ := Prod.mk.inj h
    exact .inr (.inl ⟨e, rfl, rfl⟩)
  · rw [hx] at h
    exact .inl ⟨a, middle, rfl, h⟩

/-- Two procedures in a row that returned have both returned. -/
theorem exec_bind_ok {x : Procedure σ ε α} {f : α → Procedure σ ε β} {b : β}
    (h : exec engine fuel (x >>= f) m = (.ok (.ok b), m')) :
    ∃ a middle, exec engine fuel x m = (.ok (.ok a), middle) ∧
      exec engine fuel (f a) middle = (.ok (.ok b), m') := by
  rcases exec_bind_cases h with hboth | ⟨e, hr, -⟩ | ⟨halt, hr, -⟩
  · exact hboth
  · exact nomatch hr
  · exact nomatch hr

theorem exec_bind_of_ok {x : Procedure σ ε α} {f : α → Procedure σ ε β} {a : α}
    (h : exec engine fuel x m = (.ok (.ok a), m')) :
    exec engine fuel (x >>= f) m = exec engine fuel (f a) m' := by
  rw [exec_bind, h]

theorem exec_bind_of_error {x : Procedure σ ε α} {f : α → Procedure σ ε β} {e : ε}
    (h : exec engine fuel x m = (.ok (.error e), m')) :
    exec engine fuel (x >>= f) m = (.ok (.error e), m') := by
  rw [exec_bind, h]

/-- Two procedures in a row that came to an end: both did, or the first one failed. -/
theorem exec_bind_eq_ok {x : Procedure σ ε α} {f : α → Procedure σ ε β} {r : Except ε β} :
    exec engine fuel (x >>= f) m = (.ok r, m') ↔
      (∃ a middle, exec engine fuel x m = (.ok (.ok a), middle) ∧
        exec engine fuel (f a) middle = (.ok r, m')) ∨
      ∃ e, r = .error e ∧ exec engine fuel x m = (.ok (.error e), m') := by
  constructor
  · intro h
    rcases exec_bind_cases h with hboth | ⟨e, hr, hx⟩ | ⟨halt, hr, -⟩
    · exact .inl hboth
    · exact .inr ⟨e, Except.ok.inj hr, hx⟩
    · exact nomatch hr
  · rintro (⟨a, middle, hx, hf⟩ | ⟨e, rfl, hx⟩)
    · exact (exec_bind_of_ok hx).trans hf
    · exact exec_bind_of_error hx

/-- A step lifted into a procedure cannot fail. -/
theorem exec_lift_call (step : Step σ) :
    exec engine fuel (ExceptT.lift (Step.call σ step) : Procedure σ ε step.Reply) m =
      match Machine.perform engine fuel step m with
      | (.ok reply, middle) => (.ok (.ok reply), middle)
      | (.error halt, middle) => (.error halt, middle) := by
  have hrun : exec engine fuel (ExceptT.lift (Step.call σ step) : Procedure σ ε step.Reply) =
      Machine.perform engine fuel step >>= fun reply => pure (.ok reply) :=
    Program.run_bind _ (Step.call σ step) _ |>.trans (by rw [run_call]; rfl)
  rw [hrun, Effect.bind_apply]
  rcases Machine.perform engine fuel step m with ⟨_ | _, _⟩ <;> rfl

theorem exec_outcome (procedure : Procedure σ ε α) :
    exec engine fuel (outcome procedure : Procedure σ ε' (Except ε α)) m =
      match exec engine fuel procedure m with
      | (.ok result, middle) => (.ok (.ok result), middle)
      | (.error halt, middle) => (.error halt, middle) := by
  have hrun : exec engine fuel (outcome procedure : Procedure σ ε' (Except ε α)) =
      exec engine fuel procedure >>= fun result => pure (.ok result) :=
    Program.run_bind _ procedure.run _
  rw [hrun, Effect.bind_apply]
  rcases exec engine fuel procedure m with ⟨_ | _, _⟩ <;> rfl

/-- A procedure whose failures are given another blame. -/
theorem exec_orFatal (blame : Throwable → Fatal) (procedure : Procedure σ Throwable α) :
    exec engine fuel (orFatal blame procedure) m =
      match exec engine fuel procedure m with
      | (.ok result, middle) => (.ok (result.mapError blame), middle)
      | (.error halt, middle) => (.error halt, middle) := by
  have hrun : exec engine fuel (orFatal blame procedure) =
      exec engine fuel procedure >>= fun result => pure (result.mapError blame) :=
    Program.run_bind _ procedure.run _
  rw [hrun, Effect.bind_apply]
  rcases exec engine fuel procedure m with ⟨_ | _, _⟩ <;> rfl

theorem exec_orFatal_eq_ok {blame : Throwable → Fatal} {procedure : Procedure σ Throwable α}
    {a : α} :
    exec engine fuel (orFatal blame procedure) m = (.ok (.ok a), m') ↔
      exec engine fuel procedure m = (.ok (.ok a), m') := by
  rw [exec_orFatal]
  rcases exec engine fuel procedure m with ⟨halt | cause | a', middle⟩
  · exact ⟨nofun, nofun⟩
  · exact ⟨nofun, nofun⟩
  · constructor <;>
    · intro h
      obtain ⟨hreturned, rfl⟩ := Prod.mk.inj h
      obtain rfl := Except.ok.inj (Except.ok.inj hreturned)
      rfl

theorem exec_orFatal_eq_error {blame : Throwable → Fatal} {procedure : Procedure σ Throwable α}
    {fatal : Fatal} :
    exec engine fuel (orFatal blame procedure) m = (.ok (.error fatal), m') ↔
      ∃ cause, fatal = blame cause ∧ exec engine fuel procedure m = (.ok (.error cause), m') := by
  rw [exec_orFatal]
  rcases exec engine fuel procedure m with ⟨halt | cause | a, middle⟩
  · exact ⟨nofun, fun ⟨_, _, h⟩ => nomatch h⟩
  · constructor
    · intro h
      obtain ⟨hfatal, rfl⟩ := Prod.mk.inj h
      exact ⟨cause, (Except.error.inj (Except.ok.inj hfatal)).symm, rfl⟩
    · rintro ⟨cause', rfl, h⟩
      obtain ⟨hcause, rfl⟩ := Prod.mk.inj h
      obtain rfl := Except.error.inj (Except.ok.inj hcause)
      rfl
  · exact ⟨nofun, fun ⟨_, _, h⟩ => nomatch h⟩

/-- What a procedure ended with is its outcome. -/
theorem exec_outcome_ok {procedure : Procedure σ ε α} {result : Except ε α}
    (h : exec engine fuel (outcome procedure : Procedure σ ε' (Except ε α)) m =
      (.ok (.ok result), m')) : exec engine fuel procedure m = (.ok result, m') := by
  rw [exec_outcome] at h
  rcases hrun : exec engine fuel procedure m with ⟨_ | _, _⟩
  · rw [hrun] at h
    exact nomatch (Prod.mk.inj h).1
  · rw [hrun] at h
    obtain ⟨hresult, rfl⟩ := Prod.mk.inj h
    obtain rfl := Except.ok.inj (Except.ok.inj hresult)
    rfl

theorem exec_access (access : Access σ) :
    exec engine (fuel + 1) (Procedure.access access : Procedure σ ε access.Reply) m =
      (.ok (.ok (access.apply m).1), (access.apply m).2) := rfl

theorem exec_load (name : String) :
    exec engine fuel (load name) m =
      Machine.perform engine fuel (.request (.access (.load name))) m :=
  congrFun (run_call _) m

theorem exec_newStringArray (texts : List String) :
    exec engine fuel (newStringArray texts) m =
      Machine.perform engine fuel (.request (.access (.newStringArray texts))) m :=
  congrFun (run_call _) m

theorem exec_initClass (thread : ThreadId) (type : ClassId) :
    exec engine fuel (initClass thread type) m =
      Machine.perform engine fuel (.request (.initClass thread type)) m :=
  congrFun (run_call _) m

theorem exec_invoke (thread : ThreadId) (method : MethodRef) (arguments : List Value) :
    exec engine fuel (invoke thread method arguments) m =
      Machine.perform engine fuel (.request (.invoke thread method arguments)) m :=
  congrFun (run_call _) m

theorem exec_callEngine (call : Call) :
    exec engine fuel (callEngine call) m = Machine.perform engine fuel (.callEngine call) m :=
  congrFun (run_call _) m

theorem exec_boot (thread : ThreadId) (arguments : List String) :
    exec engine fuel (boot thread arguments) m =
      Machine.perform engine fuel (.request (.boot thread arguments)) m :=
  congrFun (run_call _) m

theorem exec_upkeep (upkeep : Upkeep) :
    exec engine (fuel + 1) (Procedure.upkeep upkeep : Procedure σ ε upkeep.Reply) m =
      (.ok (.ok (upkeep.apply m).1), (upkeep.apply m).2) := rfl

@[simp] theorem exec_observe :
    exec engine (fuel + 1) (observe : Procedure σ ε (Machine σ)) m = (.ok (.ok m), m) := rfl

/-- An access that was replied to has been carried out. -/
theorem exec_access_ok {access : Access σ} {reply : access.Reply}
    (h : exec engine fuel (Procedure.access access : Procedure σ ε _) m = (.ok (.ok reply), m')) :
    access.apply m = (reply, m') := by
  rw [Procedure.access, exec_lift_call] at h
  cases fuel with
  | zero => exact nomatch h
  | succ fuel =>
    rw [Machine.perform_access] at h
    obtain ⟨hreply, rfl⟩ := Prod.mk.inj h
    exact Prod.ext (Except.ok.inj (Except.ok.inj hreply)) rfl

theorem exec_upkeep_ok {upkeep : Upkeep} {reply : upkeep.Reply}
    (h : exec engine fuel (Procedure.upkeep upkeep : Procedure σ ε _) m = (.ok (.ok reply), m')) :
    upkeep.apply m = (reply, m') := by
  rw [Procedure.upkeep, exec_lift_call] at h
  cases fuel with
  | zero => exact nomatch h
  | succ fuel =>
    rw [Machine.perform_upkeep] at h
    obtain ⟨hreply, rfl⟩ := Prod.mk.inj h
    exact Prod.ext (Except.ok.inj (Except.ok.inj hreply)) rfl

end Procedure

end ClassHost
