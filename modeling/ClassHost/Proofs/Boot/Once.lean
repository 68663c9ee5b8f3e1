import ClassHost.Proofs.Boot.Started
import ClassHost.Proofs.Machine.Access
import ClassHost.Proofs.Machine.Asks
import ClassHost.Proofs.Machine.Trace

/-!
# A machine is started once

Anyone may ask for a start at any time: the main thread, the program, and the engine in the middle
of a start. This module says what that does to the boot state, over the trace of a whole run.

The trace of a run has at most one `Attempt`, the first start that finds the machine not booted.
Before it and after it, and between the marks of everything that it asks for, every mark is `Quiet`:
the boot state stands still, and a start that finds it settled replies what it says and does
nothing. `Life` is that shape. Stretches of a trace that have it can be put together
(`Life.append`), since an attempt leaves a state behind in which there is no other; `life_traceOf`
is the induction over the nesting, and `boot_once` draws the conclusions.
-/

namespace ClassHost

variable {σ ε α : Type}

-- ---------------------------------------------------------------------------
-- Boot states
-- ---------------------------------------------------------------------------

namespace BootState

/-- How a start moves the boot state. -/
inductive Moves : BootState → BootState → Prop where
  | begin : Moves .notBooted .booting
  | succeed : Moves .booting .booted
  | fail : Moves .booting .failed

/-- A list of boot states that leads from one to another, each of them the one before it or what a
start moves that to. -/
inductive Walk : BootState → List BootState → BootState → Prop where
  | nil (a : BootState) : Walk a [] a
  | stay {a b : BootState} {states : List BootState} : Walk a states b → Walk a (a :: states) b
  | move {a b c : BootState} {states : List BootState} :
    Moves a b → Walk b states c → Walk a (b :: states) c

theorem Walk.append {a b c : BootState} {states states' : List BootState} (h : Walk a states b)
    (h' : Walk b states' c) : Walk a (states ++ states') c := by
  induction h with
  | nil a => exact h'
  | stay _ ih => exact .stay (ih h')
  | move hmove _ ih => exact .move hmove (ih h')

theorem walk_of_eq {a : BootState} {states : List BootState} (h : ∀ state ∈ states, state = a) :
    Walk a states a := by
  induction states with
  | nil => exact .nil a
  | cons first states ih =>
    obtain ⟨rfl, hrest⟩ := List.forall_mem_cons.mp h
    exact .stay (ih hrest)

/-- What a start replies that finds this state and has nothing to do. -/
def reply : BootState → Except Fatal Unit
  | .failed => .error (.internal .earlierBootFailed)
  | .notBooted | .booting | .booted => .ok ()

end BootState

-- ---------------------------------------------------------------------------
-- Marks
-- ---------------------------------------------------------------------------

namespace Mark

/-- A start begins on a machine that is not booted. -/
def enters : Mark σ → Bool
  | .begins (.request (.boot _ _)) m => m.boot = .notBooted
  | _ => false

/-- Nothing happens to the boot state, and a start has nothing to do. -/
structure Quiet (state : BootState) (mark : Mark σ) : Prop where
  boot : mark.machine.boot = state
  settled : ∀ thread arguments m, mark = .begins (.request (.boot thread arguments)) m →
    state ≠ .notBooted
  replied : ∀ thread arguments result m,
    mark = .ends (.request (.boot thread arguments)) result m →
    state ≠ .notBooted ∧ (result = .ok state.reply ∨ result = .error .exhausted)

/-- A start that is asked for in the middle of one finds it under way and does not fail. -/
structure Inside (mark : Mark σ) : Prop where
  booting : ∀ thread arguments m, mark = .begins (.request (.boot thread arguments)) m →
    m.boot = .booting
  replied : ∀ thread arguments result m,
    mark = .ends (.request (.boot thread arguments)) result m →
    result = .ok (.ok ()) ∨ result = .error .exhausted

theorem Quiet.inside {mark : Mark σ} (h : mark.Quiet .booting) : mark.Inside where
  booting thread arguments m hmark := by
    have hboot := h.boot
    rwa [hmark] at hboot
  replied thread arguments result m hmark := (h.replied thread arguments result m hmark).2

/-- A mark of any step but a start. -/
theorem quiet_begins {step : Step σ} {m : Machine σ}
    (hstep : ∀ thread arguments, step ≠ .request (.boot thread arguments)) :
    (Mark.begins step m).Quiet m.boot where
  boot := rfl
  settled _ _ _ hmark := absurd (Mark.begins.inj hmark).1 (hstep _ _)
  replied _ _ _ _ hmark := nomatch hmark

theorem quiet_ends {step : Step σ} {result : Except Halt step.Reply} {m : Machine σ}
    (hstep : ∀ thread arguments, step ≠ .request (.boot thread arguments)) :
    (Mark.ends step result m).Quiet m.boot where
  boot := rfl
  settled _ _ _ hmark := nomatch hmark
  replied _ _ _ _ hmark := absurd (Mark.ends.inj hmark).1 (hstep _ _)

theorem quiet_begins_boot (thread : ThreadId) (arguments : List String) {m : Machine σ}
    (hm : m.boot ≠ .notBooted) :
    (Mark.begins (.request (.boot thread arguments)) m).Quiet m.boot where
  boot := rfl
  settled _ _ _ _ := hm
  replied _ _ _ _ hmark := nomatch hmark

theorem quiet_ends_boot {thread : ThreadId} {arguments : List String} {m : Machine σ}
    {result : Except Halt (Except Fatal Unit)} (hm : m.boot ≠ .notBooted)
    (hresult : result = .ok m.boot.reply ∨ result = .error .exhausted) :
    (Mark.ends (.request (.boot thread arguments)) result m).Quiet m.boot where
  boot := rfl
  settled _ _ _ hmark := nomatch hmark
  replied _ _ _ _ hmark := by
    cases hmark
    exact ⟨hm, hresult⟩

end Mark

-- ---------------------------------------------------------------------------
-- The life of a machine
-- ---------------------------------------------------------------------------

/-- The boot state that a start leaves behind, unless it ran out of fuel. -/
def BootState.after : Except Halt (Except Fatal Unit) → BootState
  | .ok (.ok ()) => .booted
  | .ok (.error _) => .failed
  | .error _ => .booting

/-- The trace of the start that found the machine not booted. -/
structure Attempt (marks : List (Mark σ)) (result : Except Halt (Except Fatal Unit))
    (last : BootState) : Prop where
  shape : ∃ thread arguments m inner m',
    marks = .begins (.request (.boot thread arguments)) m ::
      (inner ++ [.ends (.request (.boot thread arguments)) result m']) ∧
    m'.boot = last ∧ ∀ mark ∈ inner, mark.Inside
  walk : BootState.Walk .notBooted (marks.map (·.machine.boot)) last
  last : result ≠ .error .exhausted → last = .after result

/-- A stretch of a trace with at most one attempt in it, and only if it begins with a machine that
is not booted. An attempt that is out of fuel cuts the run off. -/
inductive Life (cut : Prop) : BootState → List (Mark σ) → BootState → Prop where
  | quiet {state : BootState} {marks : List (Mark σ)} (hquiet : ∀ mark ∈ marks, mark.Quiet state) :
    Life cut state marks state
  | started {before marks after : List (Mark σ)} {result : Except Halt (Except Fatal Unit)}
    {last : BootState} (hbefore : ∀ mark ∈ before, mark.Quiet .notBooted)
    (hattempt : Attempt marks result last) (hcut : result = .error .exhausted → cut)
    (hafter : ∀ mark ∈ after, mark.Quiet last) :
    Life cut .notBooted (before ++ marks ++ after) last

/-- An attempt on its own. -/
theorem Attempt.life {marks : List (Mark σ)} {result : Except Halt (Except Fatal Unit)}
    {last : BootState} (h : Attempt marks result last) :
    Life (result = .error .exhausted) .notBooted marks last := by
  have hnone : ∀ state, ∀ mark ∈ ([] : List (Mark σ)), mark.Quiet state :=
    fun _ _ hmark => absurd hmark List.not_mem_nil
  have hlife := Life.started (hnone .notBooted) h id (hnone last)
  rwa [List.nil_append, List.append_nil] at hlife

namespace Life

variable {cut cut' : Prop} {a b c : BootState} {marks marks' : List (Mark σ)}

theorem mono (hcut : cut → cut') (h : Life cut a marks b) : Life cut' a marks b := by
  cases h with
  | quiet hquiet => exact .quiet hquiet
  | started hbefore hattempt hcut' hafter =>
    exact .started hbefore hattempt (fun h => hcut (hcut' h)) hafter

theorem quiet_append (hquiet : ∀ mark ∈ marks, mark.Quiet a) (h : Life cut a marks' b) :
    Life cut a (marks ++ marks') b := by
  cases h with
  | quiet hquiet' =>
    exact .quiet fun mark hmark => (List.mem_append.mp hmark).elim (hquiet mark) (hquiet' mark)
  | started hbefore hattempt hcut hafter =>
    rw [← List.append_assoc, ← List.append_assoc]
    exact .started
      (fun mark hmark => (List.mem_append.mp hmark).elim (hquiet mark) (hbefore mark))
      hattempt hcut hafter

theorem append_quiet (h : Life cut a marks b) (hquiet : ∀ mark ∈ marks', mark.Quiet b) :
    Life cut a (marks ++ marks') b := by
  cases h with
  | quiet hquiet' =>
    exact .quiet fun mark hmark => (List.mem_append.mp hmark).elim (hquiet' mark) (hquiet mark)
  | started hbefore hattempt hcut hafter =>
    rw [List.append_assoc]
    exact .started hbefore hattempt hcut
      fun mark hmark => (List.mem_append.mp hmark).elim (hafter mark) (hquiet mark)

/-- Once the machine is not as it was made, there is no attempt any more. -/
theorem quiet_of_ne (h : Life cut a marks b) (ha : a ≠ .notBooted) :
    b = a ∧ ∀ mark ∈ marks, mark.Quiet a := by
  cases h with
  | quiet hquiet => exact ⟨rfl, hquiet⟩
  | started => exact absurd rfl ha

/-- An attempt that was not cut off has moved the boot state. -/
theorem append (h : Life False a marks b) (h' : Life cut b marks' c) :
    Life cut a (marks ++ marks') c := by
  cases h with
  | quiet hquiet => exact h'.quiet_append hquiet
  | @started _ _ _ result _ hbefore hattempt hcut hafter =>
    have hb : b ≠ .notBooted := by
      rw [hattempt.last fun hresult => hcut hresult]
      rcases result with _ | _ | _ <;> exact nofun
    obtain ⟨rfl, hquiet⟩ := h'.quiet_of_ne hb
    exact append_quiet (.started hbefore hattempt (fun hresult => (hcut hresult).elim) hafter) hquiet

end Life

theorem spans_life : Spans fun halt (m : Machine σ) marks m' =>
    Life (halt = some .exhausted) m.boot marks m'.boot where
  nil _ := .quiet (by simp)
  append h h' := (h.mono nofun).append h'

-- ---------------------------------------------------------------------------
-- Steps
-- ---------------------------------------------------------------------------

/-- The step does not move the boot state itself. -/
def Step.KeepsBoot : Step σ → Prop
  | .upkeep (.setBoot _) => False
  | _ => True

theorem Step.keepsBoot_of_ordinary {step : Step σ} (h : step.Ordinary) : step.KeepsBoot := by
  cases step with
  | request op => exact trivial
  | callEngine call => exact trivial
  | upkeep op => cases op <;> first | exact h | exact trivial

theorem Step.keepsBoot_of_contained {step : Step σ} (h : step.Contained) : step.KeepsBoot :=
  Step.keepsBoot_of_ordinary (Step.ordinary_of_errand (Step.errand_of_contained h))

theorem Upkeep.boot_apply {upkeep : Upkeep} (h : (Step.upkeep (σ := σ) upkeep).KeepsBoot)
    (m : Machine σ) : (upkeep.apply m).2.boot = m.boot := by
  cases upkeep with
  | note event => rfl
  | setBoot state => exact h.elim
  | install entry => rfl
  | capture known =>
    rw [apply_capture]
    split <;> rfl
  | setCharset charset =>
    rw [apply_setCharset]
    split <;> rfl

/-- The machine with another boot state. -/
def Machine.withBoot (m : Machine σ) (state : BootState) : Machine σ := { m with boot := state }

theorem Upkeep.apply_setBoot (state : BootState) (m : Machine σ) :
    (Upkeep.setBoot state).apply m = ((), m.withBoot state) := rfl

theorem Access.boot_apply (access : Access σ) (m : Machine σ) :
    (access.apply m).2.boot = m.boot :=
  (access.touches m).boot (by cases access <;> simp [touched])

namespace Procedure

variable {engine : Engine σ} {fuel : Nat} {m : Machine σ} {thread : ThreadId}
  {arguments : List String}

/-- A start that has something to do. -/
theorem exec_booting (hm : m.boot = .notBooted) :
    exec engine (fuel + 1) (booting thread arguments) m =
      match exec engine (fuel + 1) (bootSequence thread arguments) (m.withBoot .booting) with
      | (.ok (.ok ()), m') => (.ok (.ok ()), m'.withBoot .booted)
      | (.ok (.error fatal), m') => (.ok (.error fatal), m'.withBoot .failed)
      | (.error halt, m') => (.error halt, m') := by
  rw [booting, exec_bind, exec_observe]
  dsimp only
  rw [hm, exec_bind, exec_upkeep, Upkeep.apply_setBoot]
  dsimp only
  rw [exec_bind, exec_outcome]
  rcases exec engine (fuel + 1) (bootSequence thread arguments) (m.withBoot .booting) with
    ⟨halt | fatal | done, m'⟩
  · rfl
  · rfl
  · rfl

/-- Its steps: it looks at the machine, and it moves the boot state before its sequence and after
it. -/
theorem asked_booting (hm : m.boot = .notBooted) :
    asked engine (fuel + 1) (booting thread arguments) m =
      ⟨.request (.access .observe), m⟩ :: ⟨.upkeep (.setBoot .booting), m⟩ ::
        (asked engine (fuel + 1) (bootSequence thread arguments) (m.withBoot .booting) ++
          match exec engine (fuel + 1) (bootSequence thread arguments)
            (m.withBoot .booting) with
          | (.ok (.ok ()), m') => [⟨.upkeep (.setBoot .booted), m'⟩]
          | (.ok (.error _), m') => [⟨.upkeep (.setBoot .failed), m'⟩]
          | (.error _, _) => []) := by
  rw [booting, asked_bind, asked_observe, exec_observe]
  dsimp only
  rw [hm, asked_bind, asked_upkeep, exec_upkeep, Upkeep.apply_setBoot]
  dsimp only
  rw [asked_bind, asked_outcome, exec_outcome]
  rcases exec engine (fuel + 1) (bootSequence thread arguments) (m.withBoot .booting) with
    ⟨halt | fatal | done, m'⟩
  · rfl
  · dsimp only
    rw [asked_bind, asked_upkeep, exec_upkeep]
    rfl
  · dsimp only
    rw [asked_upkeep]
    rfl

/-- A start that finds nothing to do. -/
theorem exec_booting_of_ne (hm : m.boot ≠ .notBooted) :
    exec engine (fuel + 1) (booting thread arguments) m = (.ok m.boot.reply, m) := by
  rw [booting, exec_bind, exec_observe]
  dsimp only
  cases hboot : m.boot with
  | notBooted => exact absurd hboot hm
  | booting => rfl
  | booted => rfl
  | failed => rfl

theorem asked_booting_of_ne (hm : m.boot ≠ .notBooted) :
    asked engine (fuel + 1) (booting thread arguments) m = [⟨.request (.access .observe), m⟩] := by
  rw [booting, asked_bind, asked_observe, exec_observe]
  dsimp only
  cases hboot : m.boot with
  | notBooted => exact absurd hboot hm
  | booting => rfl
  | booted => rfl
  | failed => rfl

end Procedure

-- ---------------------------------------------------------------------------
-- The attempt
-- ---------------------------------------------------------------------------

namespace Mark

theorem inside_begins {step : Step σ} {m : Machine σ}
    (hstep : ∀ thread arguments, step ≠ .request (.boot thread arguments)) :
    (Mark.begins step m).Inside where
  booting _ _ _ hmark := absurd (Mark.begins.inj hmark).1 (hstep _ _)
  replied _ _ _ _ hmark := nomatch hmark

theorem inside_ends {step : Step σ} {result : Except Halt step.Reply} {m : Machine σ}
    (hstep : ∀ thread arguments, step ≠ .request (.boot thread arguments)) :
    (Mark.ends step result m).Inside where
  booting _ _ _ hmark := nomatch hmark
  replied _ _ _ _ hmark := absurd (Mark.ends.inj hmark).1 (hstep _ _)

end Mark

namespace Machine

variable {engine : Engine σ} {fuel : Nat} {thread : ThreadId} {arguments : List String}
  {m m' : Machine σ} {state : BootState}

/-- The marks of a move of the boot state. -/
theorem traceOf_setBoot :
    traceOf engine (fuel + 1) (.upkeep (.setBoot state)) m =
      [.begins (.upkeep (.setBoot state)) m,
        .ends (.upkeep (.setBoot state)) (.ok ()) (m.withBoot state)] := rfl

theorem traceOf_observe :
    traceOf engine (fuel + 1) (.request (.access .observe)) m =
      [.begins (.request (.access .observe)) m, .ends (.request (.access .observe)) (.ok m) m] :=
  rfl

theorem inside_observe :
    ∀ mark ∈ traceOf engine (fuel + 1) (.request (.access .observe)) m, mark.Inside := by
  rw [traceOf_observe]
  exact List.forall_mem_cons.mpr ⟨Mark.inside_begins nofun,
    List.forall_mem_singleton.mpr (Mark.inside_ends nofun)⟩

theorem inside_setBoot :
    ∀ mark ∈ traceOf engine (fuel + 1) (.upkeep (.setBoot state)) m, mark.Inside := by
  rw [traceOf_setBoot]
  exact List.forall_mem_cons.mpr ⟨Mark.inside_begins nofun,
    List.forall_mem_singleton.mpr (Mark.inside_ends nofun)⟩

/-- An attempt from its parts: it looks, it moves the state, its sequence runs, and it moves the
state again if the sequence returned. -/
theorem attempt_of_parts {body closing : List (Mark σ)} {result : Except Halt (Except Fatal Unit)}
    (hm : m.boot = .notBooted) (hbody : ∀ mark ∈ body, mark.Quiet .booting)
    (hclosing : ∀ mark ∈ closing, mark.Inside)
    (hwalk : BootState.Walk .booting (closing.map (·.machine.boot)) m'.boot)
    (hlast : result ≠ .error .exhausted → m'.boot = .after result) :
    Attempt
      (.begins (.request (.boot thread arguments)) m ::
        (traceOf engine (fuel + 1) (.request (.access .observe)) m ++
          (traceOf engine (fuel + 1) (.upkeep (.setBoot .booting)) m ++ (body ++ closing)) ++
          [.ends (.request (.boot thread arguments)) result m'])) result m'.boot where
  shape := by
    refine ⟨thread, arguments, m, _, m', rfl, rfl, fun mark hmark => ?_⟩
    rcases List.mem_append.mp hmark with hmark | hmark
    · exact inside_observe mark hmark
    · rcases List.mem_append.mp hmark with hmark | hmark
      · exact inside_setBoot mark hmark
      · exact (List.mem_append.mp hmark).elim (fun h => (hbody mark h).inside) (hclosing mark)
  walk := by
    -- the state moves before the body and after it, and is still during the body
    have hstates : BootState.Walk .booting (body.map (·.machine.boot)) .booting := by
      refine BootState.walk_of_eq fun state hstate => ?_
      obtain ⟨mark, hmark, rfl⟩ := List.mem_map.mp hstate
      exact (hbody mark hmark).boot
    have hend : BootState.Walk m'.boot [m'.boot] m'.boot := .stay (.nil _)
    have hrest := (hstates.append hwalk).append hend
    simp only [traceOf_observe, traceOf_setBoot, List.map_cons, List.map_append, List.cons_append,
      List.nil_append, List.map_nil, Mark.machine, withBoot, hm]
    exact .stay (.stay (.stay (.stay (.move .begin hrest))))
  last := hlast

/-- An attempt whose sequence returned. -/
theorem attempt_of_setBoot {body : List (Mark σ)} {result : Except Halt (Except Fatal Unit)}
    (hm : m.boot = .notBooted) (hbody : ∀ mark ∈ body, mark.Quiet .booting)
    (hbooting : m'.boot = .booting) (hmove : BootState.Moves .booting state)
    (hlast : state = .after result) :
    Attempt
      (.begins (.request (.boot thread arguments)) m ::
        (traceOf engine (fuel + 1) (.request (.access .observe)) m ++
          (traceOf engine (fuel + 1) (.upkeep (.setBoot .booting)) m ++
            (body ++ traceOf engine (fuel + 1) (.upkeep (.setBoot state)) m')) ++
          [.ends (.request (.boot thread arguments)) result (m'.withBoot state)])) result state := by
  have hwalk : BootState.Walk .booting
      ((traceOf engine (fuel + 1) (.upkeep (.setBoot state)) m').map (·.machine.boot)) state := by
    rw [traceOf_setBoot, ← hbooting]
    exact .stay (.move (hbooting ▸ hmove) (.nil state))
  exact attempt_of_parts hm hbody inside_setBoot hwalk fun _ => hlast

/-- What an induction over the nesting has to say about the steps inside an attempt. -/
def LivesOn (engine : Engine σ) (fuel : Nat) : Prop :=
  ∀ step : Step σ, step.KeepsBoot → ∀ m,
    Life (halted (perform engine fuel step m).1 = some .exhausted) m.boot
      (traceOf engine fuel step m) (perform engine fuel step m).2.boot

theorem life_of_exec {procedure : Procedure σ ε α} (ih : LivesOn engine fuel)
    (hasks : procedure.Asks Step.KeepsBoot) (m : Machine σ) :
    Life (halted (procedure.exec engine fuel m).1 = some .exhausted) m.boot
      (traceAll engine fuel (procedure.asked engine fuel m)) (procedure.exec engine fuel m).2.boot :=
  spans_asked spans_life ih hasks m

theorem attempt_of_boot (thread : ThreadId) (arguments : List String) (ih : LivesOn engine fuel)
    (hm : m.boot = .notBooted) :
    Attempt (traceOf engine (fuel + 1) (.request (.boot thread arguments)) m)
      (perform engine (fuel + 1) (.request (.boot thread arguments)) m).1
      (perform engine (fuel + 1) (.request (.boot thread arguments)) m).2.boot := by
  cases fuel with
  | zero =>
    -- the start has no fuel for its first look
    have hrun : perform engine 1 (.request (.boot thread arguments)) m =
        (.error .exhausted, m) := rfl
    rw [traceOf_succ, hrun, traceAll_zero]
    exact {
      shape := ⟨thread, arguments, m, [], m, rfl, rfl, by simp⟩
      walk := by
        simp only [List.nil_append, List.map_cons, List.map_nil, Mark.machine, hm]
        exact .stay (.stay (.nil _))
      last := fun h => absurd rfl h }
  | succ fuel =>
    have hasks : (Procedure.bootSequence (σ := σ) thread arguments).Asks Step.KeepsBoot :=
      (Procedure.asks_bootSequence thread arguments).mono fun _ => Step.keepsBoot_of_ordinary
    obtain ⟨hbooting, hbody⟩ := (life_of_exec ih hasks (m.withBoot .booting)).quiet_of_ne nofun
    have hrun : perform engine (fuel + 2) (.request (.boot thread arguments)) m = _ :=
      Procedure.exec_booting hm
    have hasked : asked engine (fuel + 1) (.request (.boot thread arguments)) m = _ :=
      Procedure.asked_booting hm
    rw [traceOf_succ, hrun, hasked, traceAll_cons, traceAll_cons, traceAll_append]
    -- how the sequence ends decides the last move; a sequence that was unwound makes none
    rcases hexec : (Procedure.bootSequence thread arguments).exec engine (fuel + 1)
      (m.withBoot .booting) with ⟨halt | fatal | done, m'⟩
    · rw [hexec] at hbooting
      have hboot : m'.boot = .booting := hbooting
      refine attempt_of_parts hm hbody (by simp) ?_ fun _ => hboot
      rw [hboot]
      exact .nil _
    · rw [hexec] at hbooting
      dsimp only
      rw [traceAll_cons, traceAll_nil, List.append_nil]
      exact attempt_of_setBoot hm hbody hbooting .fail rfl
    · rw [hexec] at hbooting
      dsimp only
      rw [traceAll_cons, traceAll_nil, List.append_nil]
      exact attempt_of_setBoot hm hbody hbooting .succeed rfl

-- ---------------------------------------------------------------------------
-- Runs
-- ---------------------------------------------------------------------------

/-- The trace of a start that found nothing to do. -/
def idleStart (thread : ThreadId) (arguments : List String) (m : Machine σ) : List (Mark σ) := [
  .begins (.request (.boot thread arguments)) m,
  .begins (.request (.access .observe)) m,
  .ends (.request (.access .observe)) (.ok m) m,
  .ends (.request (.boot thread arguments)) (.ok m.boot.reply) m]

/-- A start that finds nothing to do does nothing, or has no fuel for its first look. -/
theorem traceOf_boot_of_ne (engine : Engine σ) (fuel : Nat) (thread : ThreadId)
    (arguments : List String) (hm : m.boot ≠ .notBooted) :
    perform engine (fuel + 2) (.request (.boot thread arguments)) m = (.ok m.boot.reply, m) ∧
      traceOf engine (fuel + 2) (.request (.boot thread arguments)) m =
        idleStart thread arguments m := by
  have hrun : perform engine (fuel + 2) (.request (.boot thread arguments)) m = _ :=
    Procedure.exec_booting_of_ne hm
  have hasked : asked engine (fuel + 1) (.request (.boot thread arguments)) m = _ :=
    Procedure.asked_booting_of_ne hm
  refine ⟨hrun, ?_⟩
  rw [traceOf_succ, hrun, hasked]
  rfl

/-- The trace of a start without fuel for its first look. -/
theorem traceOf_boot_one (engine : Engine σ) (thread : ThreadId) (arguments : List String)
    (m : Machine σ) :
    perform engine 1 (.request (.boot thread arguments)) m = (.error .exhausted, m) ∧
      traceOf engine 1 (.request (.boot thread arguments)) m =
        [.begins (.request (.boot thread arguments)) m,
          .ends (.request (.boot thread arguments)) (.error .exhausted) m] := by
  have hrun : perform engine 1 (.request (.boot thread arguments)) m = (.error .exhausted, m) := rfl
  refine ⟨hrun, ?_⟩
  rw [traceOf_succ, hrun, traceAll_zero]
  rfl

theorem perform_boot_of_ne (engine : Engine σ) (fuel : Nat) (thread : ThreadId)
    (arguments : List String) (hm : m.boot ≠ .notBooted) :
    perform engine fuel (.request (.boot thread arguments)) m = (.ok m.boot.reply, m) ∨
      perform engine fuel (.request (.boot thread arguments)) m = (.error .exhausted, m) := by
  match fuel with
  | 0 => exact .inr rfl
  | 1 => exact .inr (traceOf_boot_one engine thread arguments m).1
  | fuel + 2 => exact .inl (traceOf_boot_of_ne engine fuel thread arguments hm).1

theorem life_boot_of_ne (hm : m.boot ≠ .notBooted) :
    Life (halted (perform engine (fuel + 1) (.request (.boot thread arguments)) m).1 =
        some .exhausted) m.boot
      (traceOf engine (fuel + 1) (.request (.boot thread arguments)) m)
      (perform engine (fuel + 1) (.request (.boot thread arguments)) m).2.boot := by
  have hbegins := Mark.quiet_begins_boot thread arguments hm
  -- the start looks at the state, if there is fuel for that, and returns
  cases fuel with
  | zero =>
    obtain ⟨hrun, htrace⟩ := traceOf_boot_one engine thread arguments m
    rw [hrun, htrace]
    refine .quiet (List.forall_mem_cons.mpr ⟨hbegins, List.forall_mem_singleton.mpr ?_⟩)
    exact Mark.quiet_ends_boot hm (.inr rfl)
  | succ fuel =>
    obtain ⟨hrun, htrace⟩ := traceOf_boot_of_ne engine fuel thread arguments hm
    rw [hrun, htrace]
    refine .quiet (List.forall_mem_cons.mpr ⟨hbegins, List.forall_mem_cons.mpr
      ⟨Mark.quiet_begins nofun, List.forall_mem_cons.mpr ⟨Mark.quiet_ends nofun,
        List.forall_mem_singleton.mpr ?_⟩⟩⟩)
    exact Mark.quiet_ends_boot hm (.inl rfl)

/-- A step that is no start, around what it asks for. -/
theorem life_around {step : Step σ} {result : Except Halt step.Reply} {inner : List (Mark σ)}
    {cut : Prop} (hstep : ∀ thread arguments, step ≠ .request (.boot thread arguments))
    (h : Life cut m.boot inner m'.boot) :
    Life cut m.boot (.begins step m :: (inner ++ [.ends step result m'])) m'.boot := by
  have hfirst : ∀ mark ∈ [Mark.begins step m], mark.Quiet m.boot :=
    List.forall_mem_singleton.mpr (Mark.quiet_begins hstep)
  have hlast : ∀ mark ∈ [Mark.ends step result m'], mark.Quiet m'.boot :=
    List.forall_mem_singleton.mpr (Mark.quiet_ends hstep)
  exact (h.append_quiet hlast).quiet_append hfirst

/-- **Every step** but a move of the boot state lives on, by induction over the nesting. -/
theorem life_traceOf (engine : Engine σ) (fuel : Nat) : LivesOn engine fuel := by
  induction fuel with
  | zero =>
    intro step _ m
    exact .quiet fun _ hmark => absurd hmark List.not_mem_nil
  | succ fuel ih =>
    intro step hstep m
    -- the two marks of a step other than a start change nothing
    have hwrap : (∀ thread arguments, step ≠ .request (.boot thread arguments)) →
        Life (halted (perform engine (fuel + 1) step m).1 = some .exhausted) m.boot
          (traceAll engine fuel (asked engine fuel step m))
          (perform engine (fuel + 1) step m).2.boot →
        Life (halted (perform engine (fuel + 1) step m).1 = some .exhausted) m.boot
          (traceOf engine (fuel + 1) step m) (perform engine (fuel + 1) step m).2.boot :=
      fun hne hinner => life_around hne hinner
    match step with
    | .request (.access access) =>
      refine hwrap nofun ?_
      rw [perform_access, Access.boot_apply]
      exact .quiet (by simp [asked])
    | .upkeep upkeep =>
      refine hwrap nofun ?_
      rw [perform_upkeep, Upkeep.boot_apply hstep]
      exact .quiet (by simp [asked])
    | .request .panic => exact hwrap nofun (.quiet (by simp [asked]))
    | .request (.initClass thread type) =>
      refine hwrap nofun (life_of_exec ih ?_ m)
      exact Procedure.asks_initialization (fun _ => Step.keepsBoot_of_contained) (fun _ _ => trivial)
        (fun _ _ _ => trivial) thread type
    | .request (.invoke thread method arguments) =>
      refine hwrap nofun (life_of_exec ih ?_ m)
      exact Procedure.asks_invocation (fun _ => Step.keepsBoot_of_contained) (fun _ => trivial)
        (fun _ => trivial) (fun _ => trivial) thread method arguments
    | .callEngine call =>
      exact hwrap nofun (spans_asked spans_life (fun request _ => ih (.request request) trivial)
        (Program.only_true _) m)
    | .request (.supervise entry arguments) =>
      have hbody := life_of_exec ih ((Procedure.asks_mainThread entry arguments).ordinary.mono
        fun _ => Step.keepsBoot_of_ordinary) { m with registry := m.registry.enter }
      obtain ⟨_, _, hlast, hstopped⟩ := supervised_cases
        ((Procedure.mainThread entry arguments).run.run (perform engine fuel)) m
      refine hwrap nofun ?_
      -- ending the thread leaves the state as it is
      have hboot : (perform engine (fuel + 1) (.request (.supervise entry arguments)) m).2.boot =
          _ := congrArg Machine.boot hlast
      rw [hboot]
      exact hbody.mono fun hcut => halted_eq_some.mpr (hstopped (halted_eq_some.mp hcut))
    | .request (.boot thread arguments) =>
      by_cases hm : m.boot = .notBooted
      · have hattempt := (attempt_of_boot thread arguments ih hm).life
        rw [hm]
        exact hattempt.mono halted_eq_some.mpr
      · exact life_boot_of_ne hm

/-- **Every run** has at most one attempt. -/
theorem life_trace (engine : Engine σ) (fuel : Nat) (guest : Guest σ α) (m : Machine σ) :
    Life ((run engine fuel guest m).1 = .error .exhausted) m.boot (trace engine fuel guest m)
      (run engine fuel guest m).2.boot := by
  have hlife := spans_asked spans_life
    (fun request _ => life_traceOf engine fuel (.request request) trivial)
    (Program.only_true guest) m
  exact hlife.mono halted_eq_some.mp

end Machine

-- ---------------------------------------------------------------------------
-- Starts in a run
-- ---------------------------------------------------------------------------

/-- No start that begins here finds the machine not booted. -/
theorem Mark.enters_eq_false {mark : Mark σ}
    (h : ∀ thread arguments m, mark = .begins (.request (.boot thread arguments)) m →
      m.boot ≠ .notBooted) : mark.enters = false := by
  unfold enters
  split
  · exact decide_eq_false (h _ _ _ rfl)
  · rfl

theorem countP_enters_of_quiet {state : BootState} {marks : List (Mark σ)}
    (h : ∀ mark ∈ marks, mark.Quiet state) : marks.countP Mark.enters = 0 := by
  refine List.countP_eq_zero.mpr fun mark hmark => ?_
  have hfalse : mark.enters = false := Mark.enters_eq_false fun thread arguments m hbegins => by
    have hboot := (h mark hmark).boot
    rw [hbegins] at hboot
    exact hboot ▸ (h mark hmark).settled thread arguments m hbegins
  simp [hfalse]

theorem countP_enters_of_inside {marks : List (Mark σ)} (h : ∀ mark ∈ marks, mark.Inside) :
    marks.countP Mark.enters = 0 := by
  refine List.countP_eq_zero.mpr fun mark hmark => ?_
  have hfalse : mark.enters = false := Mark.enters_eq_false fun thread arguments m hbegins => by
    rw [(h mark hmark).booting thread arguments m hbegins]
    exact nofun
  simp [hfalse]

theorem Attempt.countP_enters {marks : List (Mark σ)} {result : Except Halt (Except Fatal Unit)}
    {last : BootState} (h : Attempt marks result last) : marks.countP Mark.enters ≤ 1 := by
  obtain ⟨thread, arguments, m, inner, m', rfl, -, hinside⟩ := h.shape
  have hinner := countP_enters_of_inside hinside
  have hlast : [Mark.ends (.request (.boot thread arguments)) result m'].countP Mark.enters = 0 :=
    rfl
  rw [List.countP_cons, List.countP_append, hinner, hlast]
  split <;> omega

namespace Life

variable {cut : Prop} {a b : BootState} {marks : List (Mark σ)}

theorem countP_enters (h : Life cut a marks b) : marks.countP Mark.enters ≤ 1 := by
  cases h with
  | quiet hquiet => simp [countP_enters_of_quiet hquiet]
  | started hbefore hattempt _ hafter =>
    have hone := hattempt.countP_enters
    rw [List.countP_append, List.countP_append, countP_enters_of_quiet hbefore,
      countP_enters_of_quiet hafter]
    omega

theorem walk_of_quiet {state : BootState} (h : ∀ mark ∈ marks, mark.Quiet state) :
    BootState.Walk state (marks.map (·.machine.boot)) state := by
  refine BootState.walk_of_eq fun state hstate => ?_
  obtain ⟨mark, hmark, rfl⟩ := List.mem_map.mp hstate
  exact (h mark hmark).boot

theorem walk (h : Life cut a marks b) :
    BootState.Walk a (marks.map (·.machine.boot)) b := by
  cases h with
  | quiet hquiet => exact walk_of_quiet hquiet
  | started hbefore hattempt _ hafter =>
    rw [List.map_append, List.map_append]
    exact ((walk_of_quiet hbefore).append hattempt.walk).append (walk_of_quiet hafter)

end Life

namespace Machine

/-- **A machine is started at most once.** Whatever the engine does in its calls and whoever asks
for starts, at most one start in a run finds the machine not booted. The boot state moves from not
booted to booting and from there to booted or failed, and in no other way. And every other start,
also one that is asked for in the middle of the first, looks at the machine, leaves it as it is, and
replies a failure if the first start has failed and success if not. (Or else it is out of fuel for
its look, and then so is the run.) -/
theorem boot_once (engine : Engine σ) (fuel : Nat) (guest : Guest σ α) (m : Machine σ) :
    (trace engine fuel guest m).countP Mark.enters ≤ 1 ∧
    BootState.Walk m.boot ((trace engine fuel guest m).map (·.machine.boot))
      (run engine fuel guest m).2.boot ∧
    ∀ before after thread arguments m',
      trace engine fuel guest m =
        before ++ .begins (.request (.boot thread arguments)) m' :: after →
      m'.boot ≠ .notBooted →
      (∃ later, .begins (.request (.boot thread arguments)) m' :: after =
        idleStart thread arguments m' ++ later) ∨
      (∃ later, after =
        .ends (.request (.boot thread arguments)) (.error .exhausted) m' :: later) ∧
        (run engine fuel guest m).1 = .error .exhausted := by
  have hlife := life_trace engine fuel guest m
  refine ⟨hlife.countP_enters, hlife.walk, fun before after thread arguments m' hsplit hm' => ?_⟩
  obtain ⟨fuel', later, hspan⟩ := exists_traceOf hsplit
  -- a start that could not even look is where the run ends
  cases fuel' with
  | zero =>
    rw [(traceOf_boot_one engine thread arguments m').2] at hspan
    obtain ⟨-, rfl⟩ := List.cons.inj hspan
    have hspent : (Mark.ends (.request (.boot thread arguments)) (.error .exhausted) m').Spent :=
      rfl
    refine .inr ⟨⟨later, rfl⟩, exhausted_of_spent ⟨_, ?_, hspent⟩⟩
    rw [hsplit]
    simp
  | succ fuel' =>
    rw [(traceOf_boot_of_ne engine fuel' thread arguments hm').2] at hspan
    exact .inl ⟨later, hspan⟩

end Machine

/-- A class path with nothing but the class of classes, which has an initialiser, strings, and a
program. -/
def sparseFinder : Finder := fun name =>
  let known := [(CoreName.classObject, [Procedure.initializerKey]), (CoreName.string, []),
    ("app/Main", [Procedure.mainKey])]
  (known.lookup name).map fun methods => ⟨.memory name, libraryFile name methods⟩

/-- An engine that asks for a start in every call. -/
def reentrantEngine : Engine Unit where
  respond _ := .ask (.boot ⟨7⟩ []) fun _ => .done (.ok none)

/-- Two starts, on different threads. -/
def startTwice : Guest Unit (Except Fatal Unit) :=
  .ask (.boot ⟨0⟩ []) fun _ => .ask (.boot ⟨1⟩ ["again"]) .done

/-- The engine's start, asked for while another one is under way. -/
def Mark.isNestedStart : Mark σ → Bool
  | .begins (.request (.boot ⟨7⟩ [])) m => m.boot = .booting
  | _ => false

/-- The start that the engine asks for in the middle of the first one does nothing and succeeds; the
first one fails, and the one after it says so. -/
theorem startTwice_once :
    (∃ before m later,
      Machine.trace reentrantEngine 7 startTwice (.new sparseFinder none ()) =
        before ++ (Machine.idleStart ⟨7⟩ [] m ++ later) ∧ m.boot = .booting) ∧
    (Machine.trace reentrantEngine 7 startTwice (.new sparseFinder none ())).countP Mark.enters
      ≤ 1 ∧
    (Machine.run reentrantEngine 7 startTwice (.new sparseFinder none ())).1 =
      .ok (.error (.internal .earlierBootFailed)) := by
  obtain ⟨honce, -, hidle⟩ :=
    Machine.boot_once reentrantEngine 7 startTwice (.new sparseFinder none ())
  have hfails : (Machine.run reentrantEngine 7 startTwice (.new sparseFinder none ())).1 =
      .ok (.error (.internal .earlierBootFailed)) := by decide +kernel
  -- which start is nested is found by looking through the marks
  have hnested : (Machine.trace reentrantEngine 7 startTwice (.new sparseFinder none ())).any
      Mark.isNestedStart = true := by decide +kernel
  obtain ⟨mark, hmark, hboot⟩ := List.any_eq_true.mp hnested
  unfold Mark.isNestedStart at hboot
  split at hboot
  · rename_i m
    have hbooting : m.boot = .booting := of_decide_eq_true hboot
    obtain ⟨before, after, hsplit⟩ := List.append_of_mem hmark
    rcases hidle before after ⟨7⟩ [] m hsplit (by simp [hbooting]) with
      ⟨later, hspan⟩ | ⟨-, hspent⟩
    · rw [hspan] at hsplit
      exact ⟨⟨before, m, later, hsplit, hbooting⟩, honce, hfails⟩
    · rw [hfails] at hspent
      cases hspent
  · cases hboot

end ClassHost
