import ClassHost.Proofs.Machine.Asks

/-!
# The trace of a run

A run carries out steps, and carrying out a step takes further steps in its turn. `Machine.trace`
writes all of that down in the order in which it happens: one mark where a step begins, with the
machine that it finds, and one where it ends, with its result and the machine that it leaves. What
stands between the two marks of a step is the trace of the steps that it asked for.

Like the moments of a run, the trace is computed along with the run from the same results, so it has
the two marks for every step that is carried out and no others; a step that is out of fuel is not
carried out at all.

* `Machine.asked` lists the steps that one step asks for itself, without going into them.
* `Machine.exists_traceOf` ties marks to the run: a mark of a beginning opens the whole trace of
  that step, which ends with what carrying the step out gave.
* `Machine.exists_perform_of_ends`: a mark of an end has what carrying the step out gave.
* `Spans` is a relation between the two ends of a stretch of a trace that may be followed one
  stretch after the other; `spans_asked` puts the stretches of a program together.
* `Machine.exhausted_of_spent`: running out of fuel anywhere ends the whole run.
* `Machine.exists_panicked_call`: a step that was unwound by a panic had a call to the engine in it
  that was.
-/

namespace ClassHost

variable {σ ε ε' α β : Type}

-- ---------------------------------------------------------------------------
-- The steps of a program
-- ---------------------------------------------------------------------------

/-- A step that is asked for, and the machine that it finds. -/
structure Asked (σ : Type) where
  step : Step σ
  machine : Machine σ

/-- The operations that a program asks for, as steps. Nothing follows an operation that does not
reply. -/
def Program.asked {Op : Type} {Reply : Op → Type} (perform : (op : Op) → Running σ (Reply op))
    (step : Op → Step σ) : Program Op Reply α → Machine σ → List (Asked σ)
  | .done _, _ => []
  | .ask op next, m =>
    ⟨step op, m⟩ ::
      match perform op m with
      | (.ok reply, m') => (next reply).asked perform step m'
      | (.error _, _) => []

/-- The steps of one program after another. -/
theorem Program.asked_bind {Op : Type} {Reply : Op → Type}
    {perform : (op : Op) → Running σ (Reply op)} {step : Op → Step σ} (p : Program Op Reply α)
    (f : α → Program Op Reply β) (m : Machine σ) :
    (p >>= f).asked perform step m = p.asked perform step m ++
      match p.run perform m with
      | (.ok a, m') => (f a).asked perform step m'
      | (.error _, _) => [] := by
  induction p generalizing m with
  | done result => rfl
  | ask op next ih =>
    rw [Program.ask_bind, Program.asked, Program.asked, Program.run, Effect.bind_apply]
    rcases perform op m with ⟨halt | reply, middle⟩
    · rfl
    · exact congrArg _ (ih reply middle)

/-- What is asked for is what the program may ask for. -/
theorem Program.Only.of_mem_asked {Op : Type} {Reply : Op → Type} {good : Op → Prop}
    {perform : (op : Op) → Running σ (Reply op)} {step : Op → Step σ} {p : Program Op Reply α}
    (hp : p.Only good) {m : Machine σ} {part : Asked σ} (h : part ∈ p.asked perform step m) :
    ∃ op, good op ∧ part.step = step op := by
  induction p generalizing m with
  | done result => exact nomatch h
  | ask op next ih =>
    rw [Program.asked] at h
    rcases List.mem_cons.mp h with rfl | h
    · exact ⟨op, hp.1, rfl⟩
    · rcases hrun : perform op m with ⟨halt | reply, middle⟩
      · rw [hrun] at h
        exact nomatch h
      · rw [hrun] at h
        exact ih reply (hp.2 reply) h

/-- A program that was stopped was stopped by an operation that it asked for. -/
theorem Program.exists_asked_of_halted {Op : Type} {Reply : Op → Type}
    {perform : (op : Op) → Running σ (Reply op)} {step : Op → Step σ} {p : Program Op Reply α}
    {m : Machine σ} {halt : Halt} (h : (p.run perform m).1 = .error halt) :
    ∃ op middle, ⟨step op, middle⟩ ∈ p.asked perform step m ∧
      (perform op middle).1 = .error halt := by
  induction p generalizing m with
  | done result => exact nomatch h
  | ask op next ih =>
    rw [Program.run, Effect.bind_apply] at h
    rw [Program.asked]
    rcases hrun : perform op m with ⟨halt' | reply, middle⟩
    · rw [hrun] at h
      -- the first operation was the one
      obtain rfl := Except.error.inj h
      exact ⟨op, m, List.mem_cons_self, by rw [hrun]⟩
    · rw [hrun] at h
      obtain ⟨op', middle', hmem, hhalted⟩ := ih reply h
      exact ⟨op', middle', List.mem_cons_of_mem _ hmem, hhalted⟩

/-- An element of two lists in a row is in the first, with the second behind it, or in the second,
with the first before it. -/
theorem split_of_append {τ : Type} {l l' before after : List τ} {x : τ}
    (h : l ++ l' = before ++ x :: after) :
    (∃ last, l = before ++ x :: last ∧ after = last ++ l') ∨
      ∃ first, l' = first ++ x :: after ∧ before = l ++ first := by
  rcases List.append_eq_append_iff.mp h with ⟨middle, hbefore, hrest⟩ | ⟨middle, hl, hrest⟩
  · exact .inr ⟨middle, hrest, hbefore⟩
  · cases middle with
    | nil =>
      rw [List.nil_append] at hrest
      exact .inr ⟨[], hrest.symm, by rw [hl, List.append_nil, List.append_nil]⟩
    | cons first middle =>
      obtain ⟨rfl, hafter⟩ := List.cons.inj hrest
      exact .inl ⟨middle, hl, hafter⟩

-- ---------------------------------------------------------------------------
-- Traces
-- ---------------------------------------------------------------------------

/-- Where a step begins or ends. -/
inductive Mark (σ : Type) where
  | begins (step : Step σ) (machine : Machine σ)
  | ends (step : Step σ) (result : Except Halt step.Reply) (machine : Machine σ)

/-- The machine as it is then. -/
def Mark.machine : Mark σ → Machine σ
  | begins _ machine => machine
  | ends _ _ machine => machine

namespace Machine

/-- The steps that a step asks for itself, each with `fuel` for its own steps. -/
def asked (engine : Engine σ) (fuel : Nat) : Step σ → Machine σ → List (Asked σ)
  | .request (.initClass thread type), m =>
    (Procedure.initialization thread type).run.asked (perform engine fuel) id m
  | .request (.invoke thread method arguments), m =>
    (Procedure.invocation thread method arguments).run.asked (perform engine fuel) id m
  | .request (.boot thread arguments), m =>
    (Procedure.booting thread arguments).run.asked (perform engine fuel) id m
  | .request (.supervise entry arguments), m =>
    (Procedure.mainThread entry arguments).run.asked (perform engine fuel) id
      { m with registry := m.registry.enter }
  | .callEngine call, m =>
    (engine.respond call).asked (fun request => perform engine fuel (.request request)) .request m
  | .request (.access _), _ | .request .panic, _ | .upkeep _, _ => []

/-- The trace of one step. -/
def traceOf (engine : Engine σ) : Nat → Step σ → Machine σ → List (Mark σ)
  | 0, _, _ => []
  | fuel + 1, step, m =>
    .begins step m ::
      (((asked engine fuel step m).flatMap fun asked =>
          traceOf engine fuel asked.step asked.machine) ++
        [.ends step (perform engine (fuel + 1) step m).1 (perform engine (fuel + 1) step m).2])

/-- The traces of some steps, one after the other. -/
def traceAll (engine : Engine σ) (fuel : Nat) (steps : List (Asked σ)) : List (Mark σ) :=
  steps.flatMap fun asked => traceOf engine fuel asked.step asked.machine

/-- The trace of a run of a guest. -/
def trace (engine : Engine σ) (fuel : Nat) (guest : Guest σ α) (m : Machine σ) : List (Mark σ) :=
  traceAll engine fuel
    (Program.asked (fun request => perform engine fuel (.request request)) .request guest m)

theorem traceOf_succ (engine : Engine σ) (fuel : Nat) (step : Step σ) (m : Machine σ) :
    traceOf engine (fuel + 1) step m =
      .begins step m :: (traceAll engine fuel (asked engine fuel step m) ++
        [.ends step (perform engine (fuel + 1) step m).1
          (perform engine (fuel + 1) step m).2]) := rfl

/-- Without fuel no step is carried out, and there is no mark. -/
theorem not_traceOf_zero {engine : Engine σ} {step : Step σ} {m : Machine σ} {mark : Mark σ}
    {before after : List (Mark σ)} (h : traceOf engine 0 step m = before ++ mark :: after) : False :=
  List.cons_ne_nil mark after (List.append_eq_nil_iff.mp h.symm).2

@[simp] theorem traceAll_zero (engine : Engine σ) (steps : List (Asked σ)) :
    traceAll engine 0 steps = [] :=
  List.flatMap_eq_nil_iff.mpr fun _ _ => rfl

@[simp] theorem traceAll_nil (engine : Engine σ) (fuel : Nat) :
    traceAll engine fuel [] = [] := rfl

@[simp] theorem traceAll_cons (engine : Engine σ) (fuel : Nat) (first : Asked σ)
    (steps : List (Asked σ)) :
    traceAll engine fuel (first :: steps) =
      traceOf engine fuel first.step first.machine ++ traceAll engine fuel steps := rfl

@[simp] theorem traceAll_append (engine : Engine σ) (fuel : Nat) (steps steps' : List (Asked σ)) :
    traceAll engine fuel (steps ++ steps') =
      traceAll engine fuel steps ++ traceAll engine fuel steps' :=
  List.flatMap_append

-- ---------------------------------------------------------------------------
-- Beginnings
-- ---------------------------------------------------------------------------

variable {engine : Engine σ} {fuel : Nat} {guest : Guest σ α} {step step' : Step σ}
  {m m' : Machine σ} {steps : List (Asked σ)} {before after : List (Mark σ)} {mark : Mark σ}

/-- Where a mark stands in some traces in a row: it belongs to the trace of one of the steps. -/
theorem split_of_traceAll (h : traceAll engine fuel steps = before ++ mark :: after) :
    ∃ parts part parts' first last, steps = parts ++ part :: parts' ∧
      traceOf engine fuel part.step part.machine = first ++ mark :: last ∧
      before = traceAll engine fuel parts ++ first ∧
      after = last ++ traceAll engine fuel parts' := by
  induction steps generalizing before with
  | nil => simp at h
  | cons part steps ih =>
    rw [traceAll_cons] at h
    rcases split_of_append h with ⟨last, hpart, rfl⟩ | ⟨first, hrest, rfl⟩
    · exact ⟨[], part, steps, before, last, rfl, hpart, rfl, rfl⟩
    · obtain ⟨parts, other, parts', first, last, rfl, hother, rfl, rfl⟩ := ih hrest
      refine ⟨part :: parts, other, parts', first, last, rfl, hother, ?_, rfl⟩
      rw [traceAll_cons, List.append_assoc]

theorem exists_traceOf_step
    (h : traceOf engine fuel step m = before ++ .begins step' m' :: after) :
    ∃ fuel' later,
      .begins step' m' :: after = traceOf engine (fuel' + 1) step' m' ++ later := by
  induction fuel generalizing step m before after with
  | zero => exact (not_traceOf_zero h).elim
  | succ fuel ih =>
    rw [traceOf_succ] at h
    rcases List.cons_eq_append_iff.mp h with ⟨rfl, hhead⟩ | ⟨before, rfl, hrest⟩
    · -- the step is the one that begins
      obtain ⟨hmark, rfl⟩ := List.cons.inj hhead
      obtain ⟨rfl, rfl⟩ := Mark.begins.inj hmark
      exact ⟨fuel, [], by rw [List.append_nil, traceOf_succ]⟩
    · rcases split_of_append hrest with ⟨last, hinner, rfl⟩ | ⟨first, hlast, -⟩
      · -- the mark stands in the trace of one of the steps that were asked for
        obtain ⟨_, part, parts', _, last', -, hpart, -, rfl⟩ := split_of_traceAll hinner
        obtain ⟨fuel', later', hspan⟩ := ih hpart
        refine ⟨fuel', later' ++ (traceAll engine fuel parts' ++
          [.ends step (perform engine (fuel + 1) step m).1
            (perform engine (fuel + 1) step m).2]), ?_⟩
        rw [← List.append_assoc, ← hspan, List.cons_append, List.append_assoc]
      · -- the last mark of the step is none of a beginning
        rcases List.singleton_eq_append_iff.mp hlast with ⟨-, hmark⟩ | ⟨-, hmark⟩
        · simp at hmark
        · simp at hmark

/-- **A mark of a beginning opens the trace of the step.** -/
theorem exists_traceOf (h : trace engine fuel guest m = before ++ .begins step' m' :: after) :
    ∃ fuel' later,
      .begins step' m' :: after = traceOf engine (fuel' + 1) step' m' ++ later := by
  obtain ⟨_, part, parts', _, last, -, hpart, -, rfl⟩ := split_of_traceAll h
  obtain ⟨fuel', later', hspan⟩ := exists_traceOf_step hpart
  refine ⟨fuel', later' ++ traceAll engine fuel parts', ?_⟩
  rw [← List.append_assoc, ← hspan, List.cons_append]

/-- A mark of an end has what carrying the step out gave. -/
theorem exists_perform_of_ends {result : Except Halt step'.Reply}
    (h : .ends step' result m' ∈ traceOf engine fuel step m) :
    ∃ fuel' m'', perform engine (fuel' + 1) step' m'' = (result, m') := by
  induction fuel generalizing step m with
  | zero => exact nomatch h
  | succ fuel ih =>
    rw [traceOf_succ] at h
    rcases List.mem_cons.mp h with hmark | h
    · exact nomatch hmark
    · rcases List.mem_append.mp h with h | h
      · obtain ⟨part, -, hinner⟩ := List.mem_flatMap.mp h
        exact ih hinner
      · cases List.mem_singleton.mp h
        exact ⟨fuel, m, rfl⟩

end Machine

-- ---------------------------------------------------------------------------
-- Stretches
-- ---------------------------------------------------------------------------

/-- What stopped a run, if anything did. -/
def halted : Except Halt α → Option Halt
  | .ok _ => none
  | .error halt => some halt

@[simp] theorem halted_eq_some {result : Except Halt α} {halt : Halt} :
    halted result = some halt ↔ result = .error halt := by
  cases result <;> simp [halted]

/-- Relations between the two ends of a stretch of a trace, what stopped it, and its marks, that may
be followed one stretch after the other. Nothing follows a stretch that was stopped. -/
structure Spans (rel : Option Halt → Machine σ → List (Mark σ) → Machine σ → Prop) : Prop where
  nil : ∀ m, rel none m [] m
  append : ∀ {halt m m' m'' marks marks'}, rel none m marks m' → rel halt m' marks' m'' →
    rel halt m (marks ++ marks') m''

/-- A program spans what its operations span. -/
theorem spans_asked {rel : Option Halt → Machine σ → List (Mark σ) → Machine σ → Prop}
    (hspans : Spans rel) {Op : Type} {Reply : Op → Type} {good : Op → Prop}
    {perform : (op : Op) → Running σ (Reply op)} {step : Op → Step σ} {engine : Engine σ}
    {fuel : Nat} (hop : ∀ op, good op → ∀ m, rel (halted (perform op m).1) m
      (Machine.traceOf engine fuel (step op) m) (perform op m).2)
    {p : Program Op Reply α} (hp : p.Only good) (m : Machine σ) :
    rel (halted (p.run perform m).1) m
      (Machine.traceAll engine fuel (p.asked perform step m)) (p.run perform m).2 := by
  induction p generalizing m with
  | done result => exact hspans.nil m
  | ask op next ih =>
    have hfirst := hop op hp.1 m
    rw [Program.asked, Program.run, Effect.bind_apply, Machine.traceAll_cons]
    rcases hrun : perform op m with ⟨halt | reply, middle⟩
    · rw [hrun] at hfirst
      rwa [Machine.traceAll_nil, List.append_nil]
    · rw [hrun] at hfirst
      exact hspans.append hfirst (ih reply (hp.2 reply) middle)

-- ---------------------------------------------------------------------------
-- Running out of fuel
-- ---------------------------------------------------------------------------

/-- The step ended because it was out of fuel. -/
def Mark.Spent : Mark σ → Prop
  | begins _ _ => False
  | ends _ result _ => result = .error .exhausted

/-- Only a stretch that was stopped for want of fuel has a step that was. -/
theorem spans_spent : Spans fun halt (_ : Machine σ) marks _ =>
    (∃ mark ∈ marks, Mark.Spent mark) → halt = some .exhausted where
  nil _ := by simp
  append {halt m m' m'' marks marks'} h h' hspent := by
    obtain ⟨mark, hmark, hspent⟩ := hspent
    rcases List.mem_append.mp hmark with hmark | hmark
    · exact nomatch h ⟨mark, hmark, hspent⟩
    · exact h' ⟨mark, hmark, hspent⟩

namespace Machine

variable {engine : Engine σ} {fuel : Nat}

/-- One induction over the nesting: a step was out of fuel only if what asked for it was. -/
theorem halted_of_spent {step : Step σ} {m : Machine σ}
    (h : ∃ mark ∈ traceOf engine fuel step m, mark.Spent) :
    halted (perform engine fuel step m).1 = some .exhausted := by
  induction fuel generalizing step m with
  | zero => rfl
  | succ fuel ih =>
    have hop : ∀ step : Step σ, True → ∀ m, (∃ mark ∈ traceOf engine fuel step m, mark.Spent) →
        halted (perform engine fuel step m).1 = some .exhausted := fun step _ m h => ih h
    -- what the steps inside have run out of, the step has run out of
    have hinner : (∃ mark ∈ traceAll engine fuel (asked engine fuel step m), mark.Spent) →
        halted (perform engine (fuel + 1) step m).1 = some .exhausted := by
      match step with
      | .request (.access _) | .request .panic | .upkeep _ =>
        rintro ⟨mark, hmark, -⟩
        exact nomatch hmark
      | .request (.initClass _ _) | .request (.invoke _ _ _) | .request (.boot _ _) =>
        exact spans_asked spans_spent hop (Program.only_true _) m
      | .callEngine _ =>
        exact spans_asked spans_spent (fun request => hop (.request request)) (Program.only_true _) m
      | .request (.supervise entry arguments) =>
        intro hspent
        have hbody := spans_asked spans_spent hop (Program.only_true _) _ hspent
        obtain ⟨_, _, -, hstopped⟩ := supervised_cases
          ((Procedure.mainThread entry arguments).run.run (perform engine fuel)) m
        exact halted_eq_some.mpr (hstopped (halted_eq_some.mp hbody))
    obtain ⟨mark, hmark, hspent⟩ := h
    rw [traceOf_succ] at hmark
    rcases List.mem_cons.mp hmark with rfl | hmark
    · exact hspent.elim
    · rcases List.mem_append.mp hmark with hmark | hmark
      · exact hinner ⟨mark, hmark, hspent⟩
      · obtain rfl := List.mem_singleton.mp hmark
        exact halted_eq_some.mpr hspent

/-- **Out of fuel is out of fuel.** If a step anywhere in a run ends for want of fuel, the run
does. -/
theorem exhausted_of_spent {guest : Guest σ α} {m : Machine σ}
    (h : ∃ mark ∈ trace engine fuel guest m, mark.Spent) :
    (run engine fuel guest m).1 = .error .exhausted := by
  have hop : ∀ request : Request σ, True → ∀ m,
      (∃ mark ∈ traceOf engine fuel (.request request) m, mark.Spent) →
      halted (perform engine fuel (.request request) m).1 = some .exhausted :=
    fun _ _ _ h => halted_of_spent h
  exact halted_eq_some.mp (spans_asked spans_spent hop (Program.only_true guest) m h)

end Machine

-- ---------------------------------------------------------------------------
-- Panics
-- ---------------------------------------------------------------------------

namespace Machine

variable {engine : Engine σ} {fuel : Nat}

theorem mem_traceOf_of_asked {step : Step σ} {m : Machine σ} {part : Asked σ} {mark : Mark σ}
    (hpart : part ∈ asked engine fuel step m)
    (hmark : mark ∈ traceOf engine fuel part.step part.machine) :
    mark ∈ traceOf engine (fuel + 1) step m := by
  rw [traceOf_succ]
  have hinner : mark ∈ traceAll engine fuel (asked engine fuel step m) :=
    List.mem_flatMap.mpr ⟨part, hpart, hmark⟩
  simp [hinner]

/-- **Panics come from the engine.** The machine's own procedures never ask for one, so by induction
over the nesting a step that was unwound by a panic, and is not the panic itself, has a call to the
engine in it that was unwound. -/
theorem exists_panicked_call {step : Step σ} {m : Machine σ} (hstep : step ≠ .request .panic)
    (h : (perform engine fuel step m).1 = .error .panicked) :
    ∃ call last, .ends (.callEngine call) (.error .panicked) last ∈ traceOf engine fuel step m := by
  induction fuel generalizing step m with
  | zero => exact nomatch h
  | succ fuel ih =>
    -- procedures do not panic by themselves, so one of their steps was unwound
    have hinner : ∀ {ε α : Type} {procedure : Procedure σ ε α} {step : Step σ},
        procedure.Asks (· ≠ .request .panic) →
        (procedure.run.run (perform engine fuel) m).1 = .error .panicked →
        asked engine fuel step m = procedure.run.asked (perform engine fuel) id m →
        ∃ call last,
          .ends (.callEngine call) (.error .panicked) last ∈ traceOf engine (fuel + 1) step m := by
      intro ε α procedure step hasks hrun hasked
      obtain ⟨inner, middle, hmem, hhalted⟩ : ∃ inner middle,
          ⟨inner, middle⟩ ∈ procedure.run.asked (perform engine fuel) id m ∧
            (perform engine fuel inner middle).1 = .error .panicked :=
        Program.exists_asked_of_halted hrun
      obtain ⟨inner', hne, hid⟩ := hasks.of_mem_asked hmem
      obtain rfl : inner = inner' := hid
      obtain ⟨call, last, hmark⟩ := ih hne hhalted
      exact ⟨call, last, mem_traceOf_of_asked (hasked ▸ hmem) hmark⟩
    have hcontained : ∀ step : Step σ, step.Contained → step ≠ .request .panic := by
      intro step hcontained hpanic
      rwa [hpanic] at hcontained
    have hordinary : ∀ step : Step σ, step.Ordinary → step ≠ .request .panic := by
      intro step hordinary hpanic
      rwa [hpanic] at hordinary
    match step, hstep, h with
    | .request (.access _), _, h | .upkeep _, _, h => exact nomatch h
    | .request .panic, hstep, _ => exact absurd rfl hstep
    | .request (.initClass thread type), _, h =>
      exact hinner (Procedure.asks_initialization hcontained (fun _ _ => nofun) (fun _ _ _ => nofun)
        thread type) h rfl
    | .request (.invoke thread method arguments), _, h =>
      exact hinner (Procedure.asks_invocation hcontained (fun _ => nofun) (fun _ => nofun)
        (fun _ => nofun) thread method arguments) h rfl
    | .request (.boot thread arguments), _, h =>
      exact hinner (Procedure.asks_booting hordinary (fun _ => nofun) thread arguments) h rfl
    | .request (.supervise _ _), _, h => exact absurd h (supervised_ne_panicked _ m)
    | .callEngine call, _, h =>
      -- the innermost call that was unwound: its end is the last mark
      refine ⟨call, (perform engine (fuel + 1) (.callEngine call) m).2, ?_⟩
      rw [traceOf_succ, h]
      simp

end Machine

-- ---------------------------------------------------------------------------
-- Procedures
-- ---------------------------------------------------------------------------

namespace Procedure

/-- The steps that a procedure asks for. -/
def asked (engine : Engine σ) (fuel : Nat) (procedure : Procedure σ ε α) (m : Machine σ) :
    List (Asked σ) :=
  procedure.run.asked (Machine.perform engine fuel) id m

variable {engine : Engine σ} {fuel : Nat} {m : Machine σ}

theorem asked_bind (x : Procedure σ ε α) (f : α → Procedure σ ε β) :
    asked engine fuel (x >>= f) m = asked engine fuel x m ++
      match exec engine fuel x m with
      | (.ok (.ok a), m') => asked engine fuel (f a) m'
      | (.ok (.error _), _) | (.error _, _) => [] := by
  have hrun : Program.asked (Machine.perform engine fuel) id (x.run >>= ExceptT.bindCont f) m = _ :=
    Program.asked_bind _ _ _
  rcases hx : exec engine fuel x m with ⟨_ | _ | _, _⟩ <;>
  · rw [exec] at hx
    rw [hx] at hrun
    exact hrun

theorem mem_asked_bind {x : Procedure σ ε α} {f : α → Procedure σ ε β} {part : Asked σ} :
    part ∈ asked engine fuel (x >>= f) m ↔
      part ∈ asked engine fuel x m ∨
      ∃ a middle, exec engine fuel x m = (.ok (.ok a), middle) ∧
        part ∈ asked engine fuel (f a) middle := by
  rw [asked_bind, List.mem_append]
  refine or_congr_right ?_
  -- the second program is only asked for anything if the first one has returned
  rcases exec engine fuel x m with ⟨halt | e | a, middle⟩
  · exact ⟨nofun, fun ⟨_, _, hrun, _⟩ => nomatch hrun⟩
  · exact ⟨nofun, fun ⟨_, _, hrun, _⟩ => nomatch hrun⟩
  · constructor
    · intro h
      exact ⟨a, middle, rfl, h⟩
    · rintro ⟨a', middle', hrun, h⟩
      obtain ⟨hreturned, rfl⟩ := Prod.mk.inj hrun
      obtain rfl := Except.ok.inj (Except.ok.inj hreturned)
      exact h

/-- What is done with the result of a program asks for nothing. -/
theorem asked_bind_done (p : Program (Step σ) Step.Reply α) (f : α → β) :
    (p >>= fun a => Program.done (f a)).asked (Machine.perform engine fuel) id m =
      p.asked (Machine.perform engine fuel) id m := by
  rw [Program.asked_bind]
  rcases p.run (Machine.perform engine fuel) m with ⟨_ | _, _⟩ <;> exact List.append_nil _

/-- A procedure that only asks for a step. -/
theorem asked_call (step : Step σ) :
    (Step.call σ step).asked (Machine.perform engine fuel) id m = [⟨step, m⟩] := by
  rw [Step.call, Program.call, Program.asked]
  rcases Machine.perform engine fuel step m with ⟨_ | _, _⟩ <;> rfl

theorem asked_lift_call (step : Step σ) :
    asked engine fuel (ExceptT.lift (Step.call σ step) : Procedure σ ε step.Reply) m =
      [⟨step, m⟩] :=
  (asked_bind_done _ _).trans (asked_call step)

theorem asked_initClass (thread : ThreadId) (type : ClassId) :
    asked engine fuel (initClass thread type) m = [⟨.request (.initClass thread type), m⟩] :=
  asked_call _

theorem asked_invoke (thread : ThreadId) (method : MethodRef) (arguments : List Value) :
    asked engine fuel (invoke thread method arguments) m =
      [⟨.request (.invoke thread method arguments), m⟩] :=
  asked_call _

theorem asked_boot (thread : ThreadId) (arguments : List String) :
    asked engine fuel (boot thread arguments) m = [⟨.request (.boot thread arguments), m⟩] :=
  asked_call _

theorem asked_callEngine (call : Call) :
    asked engine fuel (callEngine call) m = [⟨.callEngine call, m⟩] :=
  asked_call _

@[simp] theorem asked_pure (a : α) :
    asked engine fuel (pure a : Procedure σ ε α) m = [] := rfl

@[simp] theorem asked_throw (e : ε) :
    asked engine fuel (throw e : Procedure σ ε α) m = [] := rfl

@[simp] theorem asked_access (access : Access σ) :
    asked engine fuel (Procedure.access access : Procedure σ ε access.Reply) m =
      [⟨.request (.access access), m⟩] :=
  asked_lift_call _

@[simp] theorem asked_observe :
    asked engine fuel (observe : Procedure σ ε (Machine σ)) m =
      [⟨.request (.access .observe), m⟩] :=
  asked_access _

@[simp] theorem asked_upkeep (upkeep : Upkeep) :
    asked engine fuel (Procedure.upkeep upkeep : Procedure σ ε upkeep.Reply) m =
      [⟨.upkeep upkeep, m⟩] :=
  asked_lift_call _

@[simp] theorem asked_orFatal (blame : Throwable → Fatal) (procedure : Procedure σ Throwable α) :
    asked engine fuel (orFatal blame procedure) m = asked engine fuel procedure m :=
  asked_bind_done _ _

@[simp] theorem asked_outcome (procedure : Procedure σ ε α) :
    asked engine fuel (outcome procedure : Procedure σ ε' (Except ε α)) m =
      asked engine fuel procedure m :=
  asked_bind_done _ _

end Procedure

end ClassHost
