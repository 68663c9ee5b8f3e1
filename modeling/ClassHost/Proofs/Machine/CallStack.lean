import ClassHost.Proofs.Machine.Access
import ClassHost.Proofs.Machine.Trace

/-!
# The call stack of a run

What stands between the two marks of a step is the trace of the steps that it asked for, so the
marks of a trace nest. The steps that have begun and not ended form a stack, with the one on top
that asks for whatever comes next; `openFrames` reads it off the marks that have passed.

* `Along` says of every mark that it is good where it stands, given the frames that are open then.
  It goes through a trace as the trace is built (`along_append`, `Machine.along_traceOf_succ`).
* `Chained` says what happens to the classes from one mark to the next: nothing, unless the first
  one is the beginning of an access, and then what that access does. It holds of every run
  (`Machine.chained_trace`).
* `Procedure.spanned_bind` goes through the stretch of a trace that a procedure stands for, along
  the procedure and with what has been found out on the way.
-/

namespace ClassHost

variable {σ ε ε' α β : Type}

-- ---------------------------------------------------------------------------
-- Open frames
-- ---------------------------------------------------------------------------

/-- What a mark does to the stack: a step is pushed where it begins and popped where it ends. -/
def Mark.shift (frames : List (Asked σ)) : Mark σ → List (Asked σ)
  | begins step machine => ⟨step, machine⟩ :: frames
  | ends _ _ _ => frames.tail

/-- The steps that have begun and not ended after these marks, the innermost first; `frames` were
open before. -/
def openFrames (frames : List (Asked σ)) (marks : List (Mark σ)) : List (Asked σ) :=
  marks.foldl Mark.shift frames

variable {frames : List (Asked σ)} {marks marks' : List (Mark σ)} {mark : Mark σ}
  {engine : Engine σ} {fuel : Nat} {step : Step σ} {m m' : Machine σ}

@[simp] theorem openFrames_nil (frames : List (Asked σ)) :
    openFrames frames ([] : List (Mark σ)) = frames := rfl

@[simp] theorem openFrames_begins (frames : List (Asked σ)) (step : Step σ) (m : Machine σ)
    (marks : List (Mark σ)) :
    openFrames frames (.begins step m :: marks) = openFrames (⟨step, m⟩ :: frames) marks := rfl

@[simp] theorem openFrames_ends (frames : List (Asked σ)) (step : Step σ)
    (result : Except Halt step.Reply) (m : Machine σ) (marks : List (Mark σ)) :
    openFrames frames (.ends step result m :: marks) = openFrames frames.tail marks := rfl

@[simp] theorem openFrames_append (frames : List (Asked σ)) (marks marks' : List (Mark σ)) :
    openFrames frames (marks ++ marks') = openFrames (openFrames frames marks) marks' :=
  List.foldl_append

/-- The class that is being initialised in a frame. -/
def Asked.initializing? (frame : Asked σ) : Option ClassId :=
  match frame.step with
  | .request (.initClass _ type) => some type
  | _ => none

/-- The class that the innermost frame initialises. -/
def innermost? (frames : List (Asked σ)) : Option ClassId :=
  frames.head?.bind Asked.initializing?

namespace Machine

/-- Some traces in a row leave the stack as it was if each of them does. -/
theorem openFrames_traceAll_of (h : ∀ (frames : List (Asked σ)) step m,
      openFrames frames (traceOf engine fuel step m) = frames)
    (frames : List (Asked σ)) (steps : List (Asked σ)) :
    openFrames frames (traceAll engine fuel steps) = frames := by
  induction steps with
  | nil => rfl
  | cons part steps ih => rw [traceAll_cons, openFrames_append, h, ih]

/-- **Steps are balanced.** When a step has ended, the stack is as it was before. -/
@[simp] theorem openFrames_traceOf (engine : Engine σ) (fuel : Nat) (frames : List (Asked σ))
    (step : Step σ) (m : Machine σ) :
    openFrames frames (traceOf engine fuel step m) = frames := by
  induction fuel generalizing frames step m with
  | zero => rfl
  | succ fuel ih =>
    rw [traceOf_succ, openFrames_begins, openFrames_append, openFrames_traceAll_of ih]
    rfl

@[simp] theorem openFrames_traceAll (engine : Engine σ) (fuel : Nat) (frames steps : List (Asked σ)) :
    openFrames frames (traceAll engine fuel steps) = frames :=
  openFrames_traceAll_of (openFrames_traceOf engine fuel) frames steps

end Machine

-- ---------------------------------------------------------------------------
-- Marks where they stand
-- ---------------------------------------------------------------------------

/-- Every mark is good where it stands, given the frames that are open before it. -/
def Along (good : List (Asked σ) → Mark σ → Prop) (frames : List (Asked σ))
    (marks : List (Mark σ)) : Prop :=
  ∀ before mark after, marks = before ++ mark :: after → good (openFrames frames before) mark

section Along

variable {good : List (Asked σ) → Mark σ → Prop}

@[simp] theorem along_nil : Along good frames [] := by
  intro before mark after h
  simp at h

@[simp] theorem along_cons :
    Along good frames (mark :: marks) ↔ good frames mark ∧ Along good (mark.shift frames) marks := by
  constructor
  · intro h
    exact ⟨h [] mark marks rfl, fun before next after hsplit =>
      h (mark :: before) next after (by rw [hsplit, List.cons_append])⟩
  · rintro ⟨hmark, hmarks⟩ before next after hsplit
    rcases List.cons_eq_append_iff.mp hsplit with ⟨rfl, hhead⟩ | ⟨before, rfl, hsplit⟩
    · obtain ⟨rfl, -⟩ := List.cons.inj hhead
      exact hmark
    · exact hmarks before next after (List.cons.inj hsplit).2

@[simp] theorem along_append :
    Along good frames (marks ++ marks') ↔
      Along good frames marks ∧ Along good (openFrames frames marks) marks' := by
  induction marks generalizing frames with
  | nil => simp
  | cons mark marks ih => simp [ih, and_assoc, openFrames]

instance decidableAlong [∀ frames mark, Decidable (good frames mark)] :
    ∀ (frames : List (Asked σ)) (marks : List (Mark σ)), Decidable (Along good frames marks)
  | _, [] => isTrue along_nil
  | frames, mark :: marks =>
    have := decidableAlong (mark.shift frames) marks
    decidable_of_iff _ along_cons.symm

/-- Where not every mark is good there is one that is not. -/
theorem exists_of_not_along (h : ¬ Along good frames marks) :
    ∃ before mark after, marks = before ++ mark :: after ∧ ¬ good (openFrames frames before) mark := by
  simpa [Along] using h

theorem Along.mono {other : List (Asked σ) → Mark σ → Prop}
    (h : ∀ frames mark, good frames mark → other frames mark) (hgood : Along good frames marks) :
    Along other frames marks :=
  fun before mark after hsplit => h _ mark (hgood before mark after hsplit)

theorem Machine.along_traceOf_succ :
    Along good frames (traceOf engine (fuel + 1) step m) ↔
      good frames (.begins step m) ∧
      Along good (⟨step, m⟩ :: frames) (traceAll engine fuel (asked engine fuel step m)) ∧
      good (⟨step, m⟩ :: frames) (.ends step (perform engine (fuel + 1) step m).1
        (perform engine (fuel + 1) step m).2) := by
  rw [traceOf_succ, along_cons, along_append, Mark.shift, openFrames_traceAll, along_cons]
  simp

end Along

theorem Machine.along_traceAll {good : List (Asked σ) → Mark σ → Prop} {steps : List (Asked σ)}
    (h : ∀ part ∈ steps, Along good frames (traceOf engine fuel part.step part.machine)) :
    Along good frames (traceAll engine fuel steps) := by
  induction steps with
  | nil => exact along_nil
  | cons part steps ih =>
    rw [traceAll_cons, along_append, openFrames_traceOf]
    exact ⟨h part List.mem_cons_self, ih fun part hmem => h part (List.mem_cons_of_mem _ hmem)⟩

/-- A step that runs no code: an access or some upkeep. -/
def Step.Instant : Step σ → Prop
  | .request (.access _) | .upkeep _ => True
  | _ => False

theorem Step.instant_access (access : Access σ) : Step.Instant (.request (.access access)) := trivial

namespace Machine

theorem asked_instant (h : step.Instant) : asked engine fuel step m = [] := by
  match step, h with
  | .request (.access _), _ | .upkeep _, _ => rfl

/-- Nothing happens between the two marks of an instant step. -/
theorem traceOf_instant (engine : Engine σ) (fuel : Nat) (h : step.Instant) (m : Machine σ) :
    traceOf engine (fuel + 1) step m =
      [.begins step m, .ends step (perform engine (fuel + 1) step m).1
        (perform engine (fuel + 1) step m).2] := by
  rw [traceOf_succ, asked_instant h]
  rfl

theorem along_traceOf_instant {good : List (Asked σ) → Mark σ → Prop} (h : step.Instant)
    (hbegins : good frames (.begins step m))
    (hends : ∀ result m', good (⟨step, m⟩ :: frames) (.ends step result m')) :
    Along good frames (traceOf engine fuel step m) := by
  cases fuel with
  | zero => exact along_nil
  | succ fuel =>
    rw [along_traceOf_succ, asked_instant h]
    exact ⟨hbegins, along_nil, hends _ _⟩

end Machine

-- ---------------------------------------------------------------------------
-- Where a mark stands
-- ---------------------------------------------------------------------------

namespace Machine

/-- Where a mark stands in the trace of a step. -/
inductive Stands (engine : Engine σ) (fuel : Nat) (step : Step σ) (m : Machine σ) :
    List (Mark σ) → Mark σ → List (Mark σ) → Prop where
  | opens (after : List (Mark σ)) : Stands engine fuel step m [] (.begins step m) after
  | inside {parts parts' : List (Asked σ)} {part : Asked σ} {first last : List (Mark σ)}
      {mark : Mark σ} (hasked : asked engine fuel step m = parts ++ part :: parts')
      (hpart : traceOf engine fuel part.step part.machine = first ++ mark :: last) :
      Stands engine fuel step m (.begins step m :: (traceAll engine fuel parts ++ first)) mark
        (last ++ (traceAll engine fuel parts' ++ [.ends step (perform engine (fuel + 1) step m).1
          (perform engine (fuel + 1) step m).2]))
  | closes {result : Except Halt step.Reply} {m' : Machine σ}
      (hrun : perform engine (fuel + 1) step m = (result, m')) :
      Stands engine fuel step m (.begins step m :: traceAll engine fuel (asked engine fuel step m))
        (.ends step result m') []

theorem stands_of_traceOf {before after : List (Mark σ)}
    (h : traceOf engine (fuel + 1) step m = before ++ mark :: after) :
    Stands engine fuel step m before mark after := by
  rw [traceOf_succ] at h
  rcases List.cons_eq_append_iff.mp h with ⟨rfl, hhead⟩ | ⟨before, rfl, hrest⟩
  · -- the first mark
    obtain ⟨rfl, rfl⟩ := List.cons.inj hhead
    exact .opens _
  · rcases split_of_append hrest with ⟨last, hinner, rfl⟩ | ⟨first, hlast, rfl⟩
    · -- a mark of one of the steps that were asked for
      obtain ⟨parts, part, parts', first, last, hasked, hpart, rfl, rfl⟩ := split_of_traceAll hinner
      rw [List.append_assoc]
      exact .inside hasked hpart
    · -- the last mark
      rcases List.singleton_eq_append_iff.mp hlast with ⟨rfl, hmark⟩ | ⟨-, hmark⟩
      · obtain ⟨rfl, rfl⟩ := List.cons.inj hmark
        rw [List.append_nil]
        exact .closes rfl
      · simp at hmark

/-- Behind the beginning of a step and before its end, the step is open, on top of what was open
before. -/
theorem exists_openFrames {before after : List (Mark σ)}
    (h : traceOf engine fuel step m = before ++ mark :: after) (hbefore : before ≠ []) :
    ∃ inner, openFrames frames before = inner ++ ⟨step, m⟩ :: frames := by
  induction fuel generalizing frames step m before after with
  | zero => exact (not_traceOf_zero h).elim
  | succ fuel ih =>
    cases stands_of_traceOf h with
    | opens => exact absurd rfl hbefore
    | closes _ => exact ⟨[], by rw [openFrames_begins, openFrames_traceAll]; rfl⟩
    | @inside _ _ part first _ _ _ hpart =>
      rw [openFrames_begins, openFrames_append, openFrames_traceAll]
      by_cases hfirst : first = []
      · exact ⟨[], by rw [hfirst]; rfl⟩
      · obtain ⟨inner, hinner⟩ := ih hpart hfirst
        exact ⟨inner ++ [part], by rw [hinner, List.append_assoc]; rfl⟩

/-- The step that ends at a mark is on top of the stack there, and the mark has what carrying it out
gave. -/
theorem exists_frame_of_ends {step' : Step σ} {result : Except Halt step'.Reply}
    {before after : List (Mark σ)}
    (h : traceOf engine fuel step m = before ++ .ends step' result m' :: after) :
    ∃ fuel' m'' rest, openFrames frames before = ⟨step', m''⟩ :: rest ∧
      perform engine (fuel' + 1) step' m'' = (result, m') := by
  induction fuel generalizing frames step m before after with
  | zero => exact (not_traceOf_zero h).elim
  | succ fuel ih =>
    cases stands_of_traceOf h with
    | closes hrun =>
      exact ⟨fuel, m, frames, by rw [openFrames_begins, openFrames_traceAll], hrun⟩
    | @inside _ _ part first _ _ _ hpart =>
      rw [openFrames_begins, openFrames_append, openFrames_traceAll]
      exact ih hpart

/-- No step ends before it has begun. -/
theorem ne_nil_of_ends {step' : Step σ} {result : Except Halt step'.Reply}
    {before after : List (Mark σ)}
    (h : traceOf engine fuel step m = before ++ .ends step' result m' :: after) : before ≠ [] := by
  rintro rfl
  cases fuel with
  | zero => exact (not_traceOf_zero h).elim
  | succ fuel =>
    obtain ⟨hmark, -⟩ := List.cons.inj h
    cases hmark

end Machine

-- ---------------------------------------------------------------------------
-- Classes from mark to mark
-- ---------------------------------------------------------------------------

/-- The class table behind a mark: the one that the mark shows, unless an access begins there. -/
def Mark.tableAfter : Mark σ → ClassTable
  | begins (.request (.access access)) machine => (access.apply machine).2.table
  | mark => mark.machine.table

/-- The beginning of a step that is no access changes nothing. -/
theorem Mark.tableAfter_begins (hstep : ∀ access, step ≠ .request (.access access)) :
    (begins step m).tableAfter = m.table := by
  cases step with
  | request request =>
    cases request with
    | access access => exact absurd rfl (hstep access)
    | _ => rfl
  | _ => rfl

/-- Marks that lead from one class table to another, each with the table that the one before it left
behind. -/
def Chained : ClassTable → List (Mark σ) → ClassTable → Prop
  | table, [], table' => table' = table
  | table, mark :: marks, table' => mark.machine.table = table ∧ Chained mark.tableAfter marks table'

theorem Chained.append {table table' table'' : ClassTable} (h : Chained table marks table')
    (h' : Chained table' marks' table'') : Chained table (marks ++ marks') table'' := by
  induction marks generalizing table with
  | nil =>
    obtain rfl := h
    exact h'
  | cons mark marks ih => exact ⟨h.1, ih h.2⟩

theorem Chained.of_append {table table'' : ClassTable} (h : Chained table (marks ++ marks') table'') :
    ∃ table', Chained table marks table' ∧ Chained table' marks' table'' := by
  induction marks generalizing table with
  | nil => exact ⟨table, rfl, h⟩
  | cons mark marks ih =>
    obtain ⟨table', hfirst, hsecond⟩ := ih h.2
    exact ⟨table', ⟨h.1, hfirst⟩, hsecond⟩

theorem spans_chained : Spans fun _ (m : Machine σ) marks m' => Chained m.table marks m'.table :=
  ⟨fun _ => rfl, .append⟩

/-- The next mark shows what the one before it left behind. -/
theorem Chained.next {table table' : ClassTable} {before after : List (Mark σ)} {next : Mark σ}
    (h : Chained table (before ++ mark :: next :: after) table') :
    next.machine.table = mark.tableAfter := by
  obtain ⟨_, -, -, hnext, -⟩ := h.of_append
  exact hnext

namespace Machine

/-- A step that is no access: its own two marks change nothing. -/
theorem chained_traceOf_succ (hstep : ∀ access, step ≠ .request (.access access))
    {table : ClassTable}
    (hinner : Chained m.table (traceAll engine fuel (asked engine fuel step m)) table)
    (hlast : (perform engine (fuel + 1) step m).2.table = table) :
    Chained m.table (traceOf engine (fuel + 1) step m)
      (perform engine (fuel + 1) step m).2.table := by
  have hafter : (Mark.begins step m).tableAfter = m.table := Mark.tableAfter_begins hstep
  rw [traceOf_succ]
  exact ⟨rfl, hafter ▸ hinner.append ⟨hlast, rfl⟩⟩

/-- Supervising leaves the classes as the supervised thread has left them. -/
theorem table_supervise (engine : Engine σ) (fuel : Nat) (entry : EntryClass)
    (arguments : List String) (m : Machine σ) :
    (perform engine (fuel + 1) (.request (.supervise entry arguments)) m).2.table =
      ((Procedure.mainThread entry arguments).run.run (perform engine fuel) m.entered).2.table := by
  obtain ⟨registry, memory, hlast, -⟩ := supervised_cases
    ((Procedure.mainThread entry arguments).run.run (perform engine fuel)) m
  rw [perform, hlast]
  rfl

/-- **One step.** -/
theorem chained_perform (engine : Engine σ) (fuel : Nat) (step : Step σ) (m : Machine σ) :
    Chained m.table (traceOf engine fuel step m) (perform engine fuel step m).2.table := by
  induction fuel generalizing step m with
  | zero => exact rfl
  | succ fuel ih =>
    have hop : ∀ step : Step σ, True → ∀ m : Machine σ,
        Chained m.table (traceOf engine fuel step m) (perform engine fuel step m).2.table :=
      fun step _ m => ih step m
    -- only an access changes classes at its own marks
    match step with
    | .request (.access access) => exact ⟨rfl, rfl, rfl⟩
    | .request .panic => exact ⟨rfl, rfl, rfl⟩
    | .upkeep upkeep => exact ⟨rfl, (upkeep.keeps m).1, rfl⟩
    | .request (.initClass _ _) | .request (.invoke _ _ _) | .request (.boot _ _) =>
      exact chained_traceOf_succ nofun
        (spans_asked spans_chained hop (Program.only_true _) m) rfl
    | .callEngine _ =>
      exact chained_traceOf_succ nofun
        (spans_asked spans_chained (fun request => hop (.request request)) (Program.only_true _) m)
        rfl
    | .request (.supervise entry arguments) =>
      have hbody := spans_asked spans_chained hop
        (Program.only_true (Procedure.mainThread entry arguments).run) m.entered
      exact chained_traceOf_succ nofun hbody (table_supervise engine fuel entry arguments m)

/-- **Whole runs.** -/
theorem chained_trace (engine : Engine σ) (fuel : Nat) (guest : Guest σ α) (m : Machine σ) :
    Chained m.table (trace engine fuel guest m) (run engine fuel guest m).2.table :=
  spans_asked spans_chained (fun request (_ : True) => chained_perform engine fuel (.request request))
    (Program.only_true guest) m

end Machine

-- ---------------------------------------------------------------------------
-- What classes keep
-- ---------------------------------------------------------------------------

/-- Classes keep their places, names and kinds. -/
structure ClassTable.Keeps (table table' : ClassTable) : Prop where
  get? : ∀ {id c}, table.get? id = some c →
    ∃ c', table'.get? id = some c' ∧ c'.name = c.name ∧ c'.kind = c.kind
  find? : ∀ {name id}, table.find? name = some id → table'.find? name = some id

namespace ClassTable.Keeps

variable {table table' table'' : ClassTable} {id : ClassId} {c : LoadedClass}

theorem refl (table : ClassTable) : table.Keeps table := ⟨fun h => ⟨_, h, rfl, rfl⟩, id⟩

theorem trans (h : table.Keeps table') (h' : table'.Keeps table'') : table.Keeps table'' where
  get? hget := by
    obtain ⟨c', hget', hname, hkind⟩ := h.get? hget
    obtain ⟨c'', hget'', hname', hkind'⟩ := h'.get? hget'
    exact ⟨c'', hget'', hname'.trans hname, hkind'.trans hkind⟩
  find? hfind := h'.find? (h.find? hfind)

theorem nameOf (h : table.Keeps table') (hget : table.get? id = some c) :
    table'.nameOf id = table.nameOf id := by
  obtain ⟨c', hget', hname, -⟩ := h.get? hget
  rw [nameOf_of_get? hget, nameOf_of_get? hget', hname]

end ClassTable.Keeps

theorem TableFrame.keeps {touched : List Aspect} {table table' : ClassTable}
    (h : TableFrame touched table table') : table.Keeps table' where
  get? hget := by
    obtain ⟨c', hget', hframe⟩ := h.get? hget
    exact ⟨c', hget', hframe.name, hframe.kind⟩
  find? := h.find?

theorem Mark.keeps_tableAfter (mark : Mark σ) : mark.machine.table.Keeps mark.tableAfter := by
  unfold tableAfter
  split
  · rename_i access machine
    exact (access.touches machine).table.keeps
  · exact .refl _

theorem Chained.keeps {table table' : ClassTable} (h : Chained table marks table') :
    table.Keeps table' := by
  induction marks generalizing table with
  | nil =>
    obtain rfl := h
    exact .refl _
  | cons mark marks ih =>
    obtain ⟨rfl, hrest⟩ := h
    exact mark.keeps_tableAfter.trans (ih hrest)

/-- Whatever runs, classes keep their places, names and kinds. -/
theorem Machine.keeps_perform (engine : Engine σ) (fuel : Nat) (step : Step σ) (m : Machine σ) :
    m.table.Keeps (perform engine fuel step m).2.table :=
  (chained_perform engine fuel step m).keeps

theorem Procedure.keeps_exec (engine : Engine σ) (fuel : Nat) (procedure : Procedure σ ε α)
    (m : Machine σ) : m.table.Keeps (exec engine fuel procedure m).2.table :=
  (spans_asked spans_chained (fun step (_ : True) => Machine.chained_perform engine fuel step)
    (Program.only_true procedure.run) m).keeps

-- ---------------------------------------------------------------------------
-- Stretches of procedures
-- ---------------------------------------------------------------------------

/-- A program spans what the steps span that it does ask for, each on the machine that it finds. -/
theorem spans_parts {rel : Option Halt → Machine σ → List (Mark σ) → Machine σ → Prop}
    (hspans : Spans rel) {Op : Type} {Reply : Op → Type}
    {perform : (op : Op) → Running σ (Reply op)} {step : Op → Step σ} {p : Program Op Reply α}
    {m : Machine σ}
    (hparts : ∀ op middle, ⟨step op, middle⟩ ∈ p.asked perform step m →
      rel (halted (perform op middle).1) middle (Machine.traceOf engine fuel (step op) middle)
        (perform op middle).2) :
    rel (halted (p.run perform m).1) m
      (Machine.traceAll engine fuel (p.asked perform step m)) (p.run perform m).2 := by
  induction p generalizing m with
  | done result => exact hspans.nil m
  | ask op next ih =>
    rw [Program.asked] at hparts ⊢
    -- by induction on the program, as it runs: what is asked for later depends on the replies
    have hfirst := hparts op m List.mem_cons_self
    rw [Program.run, Effect.bind_apply, Machine.traceAll_cons]
    rcases hrun : perform op m with ⟨halt | reply, middle⟩
    · rw [hrun] at hfirst
      rwa [Machine.traceAll_nil, List.append_nil]
    · rw [hrun] at hfirst hparts
      exact hspans.append hfirst (ih reply fun op' middle' hmem =>
        hparts op' middle' (List.mem_cons_of_mem _ hmem))

namespace Procedure

variable {rel : Option Halt → Machine σ → List (Mark σ) → Machine σ → Prop}

/-- The steps that a procedure asks for span the relation. -/
def Spanned (rel : Option Halt → Machine σ → List (Mark σ) → Machine σ → Prop) (engine : Engine σ)
    (fuel : Nat) (procedure : Procedure σ ε α) (m : Machine σ) : Prop :=
  rel (halted (exec engine fuel procedure m).1) m
    (Machine.traceAll engine fuel (asked engine fuel procedure m)) (exec engine fuel procedure m).2

/-- A procedure spans what the steps span that it does ask for. -/
theorem spanned_of_asked (hspans : Spans rel) {procedure : Procedure σ ε α}
    (hparts : ∀ step middle, ⟨step, middle⟩ ∈ asked engine fuel procedure m →
      rel (halted (Machine.perform engine fuel step middle).1) middle
        (Machine.traceOf engine fuel step middle) (Machine.perform engine fuel step middle).2) :
    Spanned rel engine fuel procedure m :=
  spans_parts hspans hparts

/-- A procedure that only asks for a step spans what the step does. -/
theorem spanned_of_step {procedure : Procedure σ ε α}
    (hasked : asked engine fuel procedure m = [⟨step, m⟩])
    (hhalted : halted (exec engine fuel procedure m).1 =
      halted (Machine.perform engine fuel step m).1)
    (hlast : (exec engine fuel procedure m).2 = (Machine.perform engine fuel step m).2)
    (h : rel (halted (Machine.perform engine fuel step m).1) m
      (Machine.traceOf engine fuel step m) (Machine.perform engine fuel step m).2) :
    Spanned rel engine fuel procedure m := by
  rw [Spanned, hasked, hhalted, hlast, Machine.traceAll_cons, Machine.traceAll_nil,
    List.append_nil]
  exact h

theorem spanned_lift_call
    (h : rel (halted (Machine.perform engine fuel step m).1) m
      (Machine.traceOf engine fuel step m) (Machine.perform engine fuel step m).2) :
    Spanned rel engine fuel (ExceptT.lift (Step.call σ step) : Procedure σ ε step.Reply) m := by
  refine spanned_of_step (asked_lift_call step) ?_ ?_ h
  · rw [exec_lift_call]
    rcases Machine.perform engine fuel step m with ⟨_ | _, _⟩ <;> rfl
  · rw [exec_lift_call]
    rcases Machine.perform engine fuel step m with ⟨_ | _, _⟩ <;> rfl

theorem spanned_load {name : String}
    (h : rel (halted (Machine.perform engine fuel (.request (.access (.load name))) m).1) m
      (Machine.traceOf engine fuel (.request (.access (.load name))) m)
      (Machine.perform engine fuel (.request (.access (.load name))) m).2) :
    Spanned rel engine fuel (load name) m :=
  spanned_of_step (asked_call _) (by rw [exec_load]) (by rw [exec_load]) h

theorem spanned_initClass {thread : ThreadId} {type : ClassId}
    (h : rel (halted (Machine.perform engine fuel (.request (.initClass thread type)) m).1) m
      (Machine.traceOf engine fuel (.request (.initClass thread type)) m)
      (Machine.perform engine fuel (.request (.initClass thread type)) m).2) :
    Spanned rel engine fuel (initClass thread type) m :=
  spanned_of_step (asked_call _) (by rw [exec_initClass]) (by rw [exec_initClass]) h

theorem spanned_invoke {thread : ThreadId} {method : MethodRef} {arguments : List Value}
    (h : rel (halted (Machine.perform engine fuel (.request (.invoke thread method arguments)) m).1)
      m (Machine.traceOf engine fuel (.request (.invoke thread method arguments)) m)
      (Machine.perform engine fuel (.request (.invoke thread method arguments)) m).2) :
    Spanned rel engine fuel (invoke thread method arguments) m :=
  spanned_of_step (asked_call _) (by rw [exec_invoke]) (by rw [exec_invoke]) h

theorem spanned_bind (hspans : Spans rel) {x : Procedure σ ε α} {f : α → Procedure σ ε β}
    (hx : Spanned rel engine fuel x m)
    (hf : ∀ a middle, exec engine fuel x m = (.ok (.ok a), middle) →
      Spanned rel engine fuel (f a) middle) :
    Spanned rel engine fuel (x >>= f) m := by
  unfold Spanned at hx ⊢
  rw [exec_bind, asked_bind]
  rcases hrun : exec engine fuel x m with ⟨halt | e | a, middle⟩
  · rw [hrun] at hx
    rwa [List.append_nil]
  · rw [hrun] at hx
    rwa [List.append_nil]
  · rw [hrun] at hx
    rw [Machine.traceAll_append]
    exact hspans.append hx (hf a middle hrun)

end Procedure

end ClassHost
