import ClassHost.Proofs.Machine.Execution

/-!
# More fuel

Fuel bounds how deeply steps nest. It is no part of what a machine does: a run that was not
exhausted goes the same way with any more fuel (`Machine.perform_of_le`). So what is known of a run
with enough fuel is known of all runs with more, and `Procedure.Achieves` speaks of what a procedure
comes to without saying how much it takes.

`Extends` compares two runs of which the second has more fuel. It is proved for programs from their
operations and for supervisors from their threads, and then for steps by induction over the nesting.
-/

namespace ClassHost

variable {σ ε α : Type}

/-- The second run goes as the first one, unless the first one is exhausted. -/
def Extends (x y : Running σ α) : Prop := ∀ m, (x m).1 ≠ .error .exhausted → y m = x m

theorem Extends.refl (x : Running σ α) : Extends x x := fun _ _ => rfl

theorem Extends.trans {x y z : Running σ α} (h : Extends x y) (h' : Extends y z) :
    Extends x z := by
  intro m hx
  have hxy := h m hx
  rw [← hxy] at hx
  exact (h' m hx).trans hxy

/-- A program goes further where its operations do. -/
theorem extends_run {Op : Type} {Reply : Op → Type}
    {perform perform' : (op : Op) → Running σ (Reply op)}
    (h : ∀ op, Extends (perform op) (perform' op)) (p : Program Op Reply α) :
    Extends (p.run perform) (p.run perform') := by
  induction p with
  | done result => exact .refl _
  | ask op next ih =>
    intro m hrun
    rw [Program.run, Effect.bind_apply] at hrun ⊢
    rw [Program.run, Effect.bind_apply]
    have hop := h op m
    rcases hfirst : perform op m with ⟨halt | reply, middle⟩
    · -- stopped there, and not for want of fuel, or it would be the end of the whole run
      rw [hfirst] at hop hrun
      rw [hop fun hspent => hrun (congrArg Except.error (Except.error.inj hspent))]
    · rw [hfirst] at hop hrun
      rw [hop (by simp)]
      exact ih reply middle hrun

theorem extends_supervised {body body' : Running σ (Except Fatal Unit)} (h : Extends body body') :
    Extends (Machine.supervised body) (Machine.supervised body') := by
  intro m hrun
  have hbody : (body m.entered).1 ≠ .error .exhausted := by
    intro hexhausted
    obtain ⟨_, _, -, hstopped⟩ := Machine.supervised_cases body m
    exact hrun (hstopped hexhausted)
  rw [Machine.supervised_apply, Machine.supervised_apply, h m.entered hbody]

namespace Machine

theorem extends_perform_succ (engine : Engine σ) (fuel : Nat) (step : Step σ) :
    Extends (perform engine fuel step) (perform engine (fuel + 1) step) := by
  induction fuel generalizing step with
  | zero => exact fun _ hrun => absurd rfl hrun
  | succ fuel ih =>
    -- every level passes the fuel that it is left on to its own steps
    match step with
    | .request (.access access) => exact .refl _
    | .request (.initClass thread type) =>
      exact extends_run ih (Procedure.initialization thread type).run
    | .request (.invoke thread method arguments) =>
      exact extends_run ih (Procedure.invocation thread method arguments).run
    | .request (.boot thread arguments) =>
      exact extends_run ih (Procedure.booting thread arguments).run
    | .request (.supervise entry arguments) =>
      exact extends_supervised (extends_run ih (Procedure.mainThread entry arguments).run)
    | .request .panic => exact .refl _
    | .callEngine call =>
      exact extends_run (fun request => ih (.request request)) (engine.respond call)
    | .upkeep upkeep => exact .refl _

/-- **More fuel changes nothing** about a step that is not exhausted. -/
theorem perform_of_le {engine : Engine σ} {fuel fuel' : Nat} (h : fuel ≤ fuel') (step : Step σ) :
    Extends (perform engine fuel step) (perform engine fuel' step) := by
  induction h with
  | refl => exact .refl _
  | step _ ih => exact ih.trans (extends_perform_succ engine _ step)

end Machine

namespace Procedure

variable {β : Type} {engine : Engine σ} {m m' : Machine σ}

/-- More fuel changes nothing about a procedure that is not exhausted. -/
theorem exec_of_le {fuel fuel' : Nat} (h : fuel ≤ fuel') (procedure : Procedure σ ε α) :
    Extends (procedure.exec engine fuel) (procedure.exec engine fuel') :=
  extends_run (Machine.perform_of_le h) procedure.run

theorem exec_ok_of_le {fuel fuel' : Nat} (h : fuel ≤ fuel') {procedure : Procedure σ ε α}
    {result : Except ε α} (hrun : procedure.exec engine fuel m = (.ok result, m')) :
    procedure.exec engine fuel' m = (.ok result, m') := by
  rw [exec_of_le h procedure m (by rw [hrun]; nofun), hrun]

-- ---------------------------------------------------------------------------
-- Enough fuel
-- ---------------------------------------------------------------------------

/-- With enough fuel the procedure returns without a failure, and this holds then. -/
def Achieves (engine : Engine σ) (procedure : Procedure σ ε α) (m : Machine σ)
    (post : α → Machine σ → Prop) : Prop :=
  ∃ fuel a m', procedure.exec engine fuel m = (.ok (.ok a), m') ∧ post a m'

variable {post post' : α → Machine σ → Prop}

theorem Achieves.mono {procedure : Procedure σ ε α} (h : procedure.Achieves engine m post)
    (hpost : ∀ a m', post a m' → post' a m') : procedure.Achieves engine m post' := by
  obtain ⟨fuel, a, m', hrun, hm'⟩ := h
  exact ⟨fuel, a, m', hrun, hpost a m' hm'⟩

theorem achieves_pure {a : α} (h : post a m) :
    (pure a : Procedure σ ε α).Achieves engine m post :=
  ⟨0, a, m, rfl, h⟩

/-- Two procedures in a row need as much fuel as the one that needs more. -/
theorem achieves_bind {x : Procedure σ ε α} {f : α → Procedure σ ε β}
    {last : β → Machine σ → Prop} (hx : x.Achieves engine m post)
    (hf : ∀ a middle, post a middle → (f a).Achieves engine middle last) :
    (x >>= f).Achieves engine m last := by
  obtain ⟨fuel, a, middle, hrun, hmiddle⟩ := hx
  obtain ⟨fuel', b, m', hrun', hm'⟩ := hf a middle hmiddle
  refine ⟨max fuel fuel', b, m', ?_, hm'⟩
  rw [exec_bind_of_ok (exec_ok_of_le (Nat.le_max_left fuel fuel') hrun)]
  exact exec_ok_of_le (Nat.le_max_right fuel fuel') hrun'

theorem achieves_access {access : Access σ} {post : access.Reply → Machine σ → Prop}
    (h : post (access.apply m).1 (access.apply m).2) :
    (Procedure.access access : Procedure σ ε access.Reply).Achieves engine m post :=
  ⟨1, _, _, exec_access access, h⟩

theorem achieves_upkeep {upkeep : Upkeep} {post : upkeep.Reply → Machine σ → Prop}
    (h : post (upkeep.apply m).1 (upkeep.apply m).2) :
    (Procedure.upkeep upkeep : Procedure σ ε upkeep.Reply).Achieves engine m post :=
  ⟨1, _, _, exec_upkeep upkeep, h⟩

theorem achieves_observe_bind {f : Machine σ → Procedure σ ε β} {last : β → Machine σ → Prop}
    (hf : (f m).Achieves engine m last) : (observe >>= f).Achieves engine m last := by
  have hobserve : (observe : Procedure σ ε (Machine σ)).Achieves engine m fun seen middle =>
      seen = m ∧ middle = m := achieves_access ⟨rfl, rfl⟩
  refine achieves_bind hobserve ?_
  rintro _ _ ⟨rfl, rfl⟩
  exact hf

/-- A change that may fail, and does not. -/
theorem achieves_change {change : Change σ Throwable α} {procedure : Procedure σ Throwable α} {a : α}
    (h : change m = (.ok a, m')) (hpost : post a m')
    (hexec : procedure.exec engine 1 m = (.ok (change m).1, (change m).2)) :
    procedure.Achieves engine m post :=
  ⟨1, a, m', by rw [hexec, h], hpost⟩

theorem achieves_orFatal {blame : Throwable → Fatal} {procedure : Procedure σ Throwable α}
    (h : procedure.Achieves engine m post) : (orFatal blame procedure).Achieves engine m post := by
  obtain ⟨fuel, a, m', hrun, hm'⟩ := h
  exact ⟨fuel, a, m', exec_orFatal_eq_ok.mpr hrun, hm'⟩

end Procedure

end ClassHost
