import ClassHost.Proofs.Machine.InitializationSteps

/-!
# Watching a class

An attempt on a class is a request to initialise it that moves it from loaded to being initialised.
A `Watch` is what somebody has seen of one class who reads the marks of a run: the steps that are
open and which of them are attempts, how many attempts there were, how often a request to initialise
a class invoked the initialiser of this one, and how many attempts returned an error. `Watch.next`
reads one more mark, and the open steps are those that `openFrames` reads off the marks
(`Watch.frames_after`).

The invariant is `Watch.Fits`. There is one attempt more than failures at most, one invocation for
each attempt at most, and none of the attempts that have failed is open. While there is an attempt
that has not failed, the state of the class keeps others off. `Watch.Passes` says what becomes of
that in a stretch of marks, and `Watch.Passes.enclose` goes from what happens inside a step to the
step.
-/

namespace ClassHost

variable {σ : Type}

-- ---------------------------------------------------------------------------
-- What there is to see
-- ---------------------------------------------------------------------------

/-- The step invokes the initialiser of the class. -/
def Step.runsInitializer (type : ClassId) : Step σ → Bool
  | .request (.invoke _ method _) =>
    method.declaring = type && method.key = Procedure.initializerKey
  | _ => false

/-- The step that begins at the mark moves the class from loaded to being initialised. -/
def Mark.takes (type : ClassId) (mark : Mark σ) : Bool :=
  mark.machine.table.stateOf type = .loaded && mark.tableAfter.stateOf type = .beingInitialized

/-- A request to initialise a class returns an error at the mark. -/
def Mark.returnsError : Mark σ → Bool
  | ends (.request (.initClass _ _)) (.ok (.error _)) _ => true
  | _ => false

/-- A step that has begun and not ended, and whether it is an attempt on the class that is watched. -/
structure OpenStep (σ : Type) where
  frame : Asked σ
  attempt : Bool

/-- What has been seen of a class. -/
structure Watch (σ : Type) where
  /-- The open steps, the innermost first. -/
  stack : List (OpenStep σ)
  /-- How many attempts have begun. -/
  attempts : Nat
  /-- How often a request to initialise a class has invoked the initialiser of this one. -/
  calls : Nat
  /-- How many attempts have returned an error. -/
  failures : Nat

namespace Watch

/-- Nothing has been seen yet. -/
def start : Watch σ := ⟨[], 0, 0, 0⟩

def frames (watch : Watch σ) : List (Asked σ) := watch.stack.map OpenStep.frame

def openAttempts (watch : Watch σ) : Nat := watch.stack.countP OpenStep.attempt

/-- The innermost open step is a request to initialise the class, and moves it at this mark. -/
def takes (type : ClassId) (watch : Watch σ) (mark : Mark σ) : Bool :=
  innermost? watch.frames = some type && mark.takes type

/-- The innermost open step is a request to initialise some class, and invokes the initialiser of
this one. -/
def invokes (type : ClassId) (watch : Watch σ) (step : Step σ) : Bool :=
  (innermost? watch.frames).isSome && step.runsInitializer type

/-- The innermost open step is an attempt, and returns an error at this mark. -/
def fails (watch : Watch σ) (mark : Mark σ) : Bool :=
  watch.stack.head?.any OpenStep.attempt && mark.returnsError

/-- One more mark. -/
def next (type : ClassId) (watch : Watch σ) : Mark σ → Watch σ
  | .begins step machine =>
    let takes := watch.takes type (.begins step machine)
    { stack := ⟨⟨step, machine⟩, false⟩ ::
        watch.stack.modifyHead fun top => { top with attempt := top.attempt || takes }
      attempts := watch.attempts + takes.toNat
      calls := watch.calls + (watch.invokes type step).toNat
      failures := watch.failures }
  | .ends step result machine =>
    { watch with
      stack := watch.stack.tail
      failures := watch.failures + (watch.fails (.ends step result machine)).toNat }

/-- Some more marks. -/
def after (type : ClassId) (watch : Watch σ) (marks : List (Mark σ)) : Watch σ :=
  marks.foldl (next type) watch

variable {type other : ClassId} {watch : Watch σ} {marks marks' : List (Mark σ)} {mark : Mark σ}
  {step : Step σ} {m m' m'' : Machine σ}

@[simp] theorem after_nil (type : ClassId) (watch : Watch σ) : watch.after type [] = watch := rfl

@[simp] theorem after_cons (type : ClassId) (watch : Watch σ) (mark : Mark σ)
    (marks : List (Mark σ)) :
    watch.after type (mark :: marks) = (watch.next type mark).after type marks := rfl

@[simp] theorem after_append (type : ClassId) (watch : Watch σ) (marks marks' : List (Mark σ)) :
    watch.after type (marks ++ marks') = (watch.after type marks).after type marks' :=
  List.foldl_append

/-- Whatever class is watched, the steps seen to be open are those that are. -/
theorem frames_after (type : ClassId) (watch : Watch σ) (marks : List (Mark σ)) :
    (watch.after type marks).frames = openFrames watch.frames marks := by
  induction marks generalizing watch with
  | nil => rfl
  | cons mark marks ih =>
    -- one mark: counting and flagging leave the frames alone
    have hnext : (watch.next type mark).frames = mark.shift watch.frames := by
      rcases watch with ⟨_ | ⟨top, stack⟩, _, _, _⟩ <;> cases mark <;> rfl
    rw [after_cons, ih, hnext, openFrames, openFrames, List.foldl_cons]

/-- A step has begun that is no attempt, and nothing else has happened. -/
def push (watch : Watch σ) (frame : Asked σ) : Watch σ :=
  { watch with stack := ⟨frame, false⟩ :: watch.stack }

/-- The initialiser has been invoked, or not. -/
def call (watch : Watch σ) (invoked : Bool) : Watch σ :=
  { watch with calls := watch.calls + invoked.toNat }

@[simp] theorem call_false (watch : Watch σ) : watch.call false = watch := rfl

/-- The beginning of a step that does not make an attempt of the one that asks for it. -/
theorem next_begins (h : watch.takes type (.begins step m) = false) :
    watch.next type (.begins step m) = (watch.call (watch.invokes type step)).push ⟨step, m⟩ := by
  -- without an attempt the flag on top stays as it is
  have hid : (fun top : OpenStep σ => { top with attempt := top.attempt || false }) = id := by
    funext top
    rw [Bool.or_false]
    rfl
  rw [next, h, hid, List.modifyHead_id]
  rfl

/-- The innermost open step has ended, and nothing else has happened. -/
def pop (watch : Watch σ) : Watch σ := { watch with stack := watch.stack.tail }

/-- The end of a step that was no attempt. -/
theorem next_ends {frame : Asked σ} {stack : List (OpenStep σ)}
    (h : watch.stack = ⟨frame, false⟩ :: stack) (result : Except Halt step.Reply) (m' : Machine σ) :
    watch.next type (.ends step result m') = watch.pop := by
  simp [next, fails, pop, h]

/-- A mark that leaves a class where it was, if it was loaded, is no move. -/
theorem takes_eq_false (h : mark.machine.table.stateOf type = .loaded →
    mark.tableAfter.stateOf type ≠ .beingInitialized) : watch.takes type mark = false := by
  by_cases hloaded : mark.machine.table.stateOf type = .loaded
  · simp [takes, Mark.takes, h hloaded]
  · simp [takes, Mark.takes, hloaded]

theorem takes_of_unmoved (h : mark.machine.table.Unmoved mark.tableAfter) :
    watch.takes type mark = false := by
  refine takes_eq_false fun hloaded => ?_
  rcases h.stateOf type with hsame | ⟨-, hnew⟩
  · rw [hsame, hloaded]
    decide
  · rw [hnew]
    decide

/-- Only an access can be a move. -/
theorem takes_begins (hstep : ¬ step.Instant) (watch : Watch σ) :
    watch.takes type (.begins step m) = false := by
  refine takes_of_unmoved (.of_eq (Mark.tableAfter_begins ?_))
  rintro access rfl
  exact hstep (Step.instant_access access)

theorem takes_upkeep (type : ClassId) (watch : Watch σ) (upkeep : Upkeep) (m : Machine σ) :
    watch.takes type (.begins (.upkeep upkeep) m) = false :=
  takes_of_unmoved (.refl m.table)

theorem takes_observe (type : ClassId) (watch : Watch σ) (m : Machine σ) :
    watch.takes type (.begins (.request (.access .observe)) m) = false :=
  takes_of_unmoved (.refl m.table)

-- ---------------------------------------------------------------------------
-- What is seen
-- ---------------------------------------------------------------------------

/-- What there is to say at every moment. -/
structure Fine (watch : Watch σ) : Prop where
  calls_le : watch.calls ≤ watch.attempts
  /-- No attempt that has failed is open. -/
  open_le : watch.failures + watch.openAttempts ≤ watch.attempts
  attempts_le : watch.attempts ≤ watch.failures + 1

/-- There was an attempt that has not failed. -/
def Taken (watch : Watch σ) : Prop := watch.failures < watch.attempts

/-- What has been seen is in order, and fits the state of the class: if there was an attempt that
has not failed, the class is claimed. -/
structure Fits (type : ClassId) (watch : Watch σ) (m : Machine σ) : Prop where
  fine : watch.Fine
  claimed : watch.Taken → m.Claimed type

/-- All is in order at every moment of a stretch. -/
def FineAlong (type : ClassId) (watch : Watch σ) (marks : List (Mark σ)) : Prop :=
  ∀ front back, marks = front ++ back → (watch.after type front).Fine

@[simp] theorem fineAlong_nil : watch.FineAlong type [] ↔ watch.Fine := by
  refine ⟨fun h => h [] [] rfl, fun h front back hsplit => ?_⟩
  obtain ⟨rfl, -⟩ := List.append_eq_nil_iff.mp hsplit.symm
  exact h

@[simp] theorem fineAlong_cons : watch.FineAlong type (mark :: marks) ↔
    watch.Fine ∧ (watch.next type mark).FineAlong type marks := by
  constructor
  · intro h
    exact ⟨h [] _ rfl, fun front back hsplit =>
      h (mark :: front) back (by rw [hsplit, List.cons_append])⟩
  · rintro ⟨hfine, hmarks⟩ front back hsplit
    cases front with
    | nil => exact hfine
    | cons first front =>
      obtain ⟨rfl, hrest⟩ := List.cons.inj hsplit
      exact hmarks front back hrest

theorem FineAlong.last (h : watch.FineAlong type marks) : (watch.after type marks).Fine :=
  h marks [] (List.append_nil marks).symm

@[simp] theorem fineAlong_append : watch.FineAlong type (marks ++ marks') ↔
    watch.FineAlong type marks ∧ (watch.after type marks).FineAlong type marks' := by
  induction marks generalizing watch with
  | nil =>
    refine ⟨fun h => ⟨fineAlong_nil.mpr (h [] _ rfl), h⟩, fun h => h.2⟩
  | cons mark marks ih => simp [ih, and_assoc]

theorem Fine.push (h : watch.Fine) (frame : Asked σ) : (watch.push frame).Fine where
  calls_le := h.calls_le
  open_le := by simpa [Watch.push, openAttempts] using h.open_le
  attempts_le := h.attempts_le

theorem Fine.pop (h : watch.Fine) : watch.pop.Fine where
  calls_le := h.calls_le
  open_le := by
    have hsub : (watch.stack.tail).countP OpenStep.attempt ≤ watch.openAttempts :=
      (List.tail_sublist watch.stack).countP_le
    have hopen := h.open_le
    change watch.failures + watch.stack.tail.countP OpenStep.attempt ≤ watch.attempts
    omega
  attempts_le := h.attempts_le

theorem Fits.push (h : watch.Fits type m) (frame : Asked σ) : (watch.push frame).Fits type m :=
  ⟨h.fine.push frame, h.claimed⟩

-- ---------------------------------------------------------------------------
-- Stretches
-- ---------------------------------------------------------------------------

/-- Nothing new has been seen, but for an invocation if there was one to be seen. -/
structure Keeps (watch : Watch σ) (invoked : Bool) (watch' : Watch σ) : Prop where
  attempts : watch'.attempts = watch.attempts
  failures : watch'.failures = watch.failures
  calls : watch'.calls ≤ watch.calls + invoked.toNat

/-- What a stretch of marks may bring. The steps that are open afterwards are those that were open
before. If there was an attempt that had not failed, there is nothing new but an invocation that the
stretch itself is about. -/
structure Passes (type : ClassId) (watch : Watch σ) (invoked : Bool) (marks : List (Mark σ))
    (m' : Machine σ) : Prop where
  fine : watch.FineAlong type marks
  stack : (watch.after type marks).stack = watch.stack
  claimed : (watch.after type marks).Taken → m'.Claimed type
  kept : watch.Taken → watch.Keeps invoked (watch.after type marks)

theorem Keeps.taken {invoked : Bool} {watch' : Watch σ} (h : watch.Keeps invoked watch')
    (htaken : watch.Taken) : watch'.Taken := by
  rwa [Taken, h.attempts, h.failures]

theorem Fits.passes_nil (h : watch.Fits type m) (invoked : Bool) : watch.Passes type invoked [] m :=
  ⟨fineAlong_nil.mpr h.fine, rfl, h.claimed, fun _ => ⟨rfl, rfl, Nat.le_add_right _ _⟩⟩

theorem Passes.fits {invoked : Bool} (h : watch.Passes type invoked marks m') :
    (watch.after type marks).Fits type m' := ⟨h.fine.last, h.claimed⟩

theorem Passes.append {invoked : Bool} (h : watch.Passes type false marks m')
    (h' : (watch.after type marks).Passes type invoked marks' m'') :
    watch.Passes type invoked (marks ++ marks') m'' where
  fine := fineAlong_append.mpr ⟨h.fine, h'.fine⟩
  stack := by rw [after_append, h'.stack, h.stack]
  claimed := by
    rw [after_append]
    exact h'.claimed
  kept htaken := by
    have hfirst := h.kept htaken
    have hsecond := h'.kept (hfirst.taken htaken)
    rw [after_append]
    exact ⟨hsecond.attempts.trans hfirst.attempts, hsecond.failures.trans hfirst.failures,
      Nat.le_trans hsecond.calls (Nat.add_le_add_right hfirst.calls _)⟩

/-- A step that may ask for others, around what happens in it. -/
theorem Passes.enclose {invoked : Bool} {inner : List (Mark σ)} {middle : Machine σ}
    (hinvokes : watch.invokes type step = invoked) (hstep : ¬ step.Instant) (hfine : watch.Fine)
    (hinner : ((watch.call invoked).push ⟨step, m⟩).Passes type false inner middle)
    (result : Except Halt step.Reply) (hclaimed : middle.Claimed type → m'.Claimed type) :
    watch.Passes type invoked (.begins step m :: (inner ++ [.ends step result m'])) m' := by
  -- the beginning pushes a frame without a flag, so its end pops it and counts no failure
  have hbegun : watch.next type (.begins step m) = (watch.call invoked).push ⟨step, m⟩ := by
    rw [next_begins (takes_begins hstep watch), hinvokes]
  have hended : (((watch.call invoked).push ⟨step, m⟩).after type inner).next type
      (.ends step result m') = _ := next_ends hinner.stack result m'
  have hlast : watch.after type (.begins step m :: (inner ++ [.ends step result m'])) =
      (((watch.call invoked).push ⟨step, m⟩).after type inner).pop := by
    rw [after_cons, hbegun, after_append, after_cons, after_nil, hended]
  -- in order: all moments, the stack, the class, and what was kept
  refine ⟨?_, ?_, ?_, fun htaken => ?_⟩
  · rw [fineAlong_cons, hbegun, fineAlong_append, fineAlong_cons, fineAlong_nil, hended]
    exact ⟨hfine, hinner.fine, hinner.fine.last, hinner.fine.last.pop⟩
  · rw [hlast, pop, hinner.stack]
    rfl
  · rw [hlast]
    exact fun htaken => hclaimed (hinner.claimed htaken)
  · rw [hlast]
    have hkept := hinner.kept htaken
    exact ⟨hkept.attempts, hkept.failures, hkept.calls⟩

-- ---------------------------------------------------------------------------
-- Instant steps
-- ---------------------------------------------------------------------------

variable {engine : Engine σ} {fuel : Nat} {thread : ThreadId}

theorem invokes_of_plain (h : step.runsInitializer type = false) :
    watch.invokes type step = false := by
  rw [invokes, h, Bool.and_false]

theorem invokes_instant (h : step.Instant) (watch : Watch σ) : watch.invokes type step = false := by
  match step, h with
  | .request (.access _), _ | .upkeep _, _ => exact invokes_of_plain rfl

/-- Nothing is seen of an instant step that is no move. -/
theorem after_instant (engine : Engine σ) (fuel : Nat) (hstep : step.Instant)
    (htakes : watch.takes type (.begins step m) = false) (hfine : watch.Fine) :
    watch.after type (Machine.traceOf engine fuel step m) = watch ∧
      watch.FineAlong type (Machine.traceOf engine fuel step m) := by
  cases fuel with
  | zero => exact ⟨rfl, fineAlong_nil.mpr hfine⟩
  | succ fuel =>
    have hbegun : watch.next type (.begins step m) = watch.push ⟨step, m⟩ := by
      rw [next_begins htakes, invokes_instant hstep, call_false]
    have hended : ∀ result m', (watch.push ⟨step, m⟩).next type (.ends step result m') = watch :=
      fun _ _ => rfl
    rw [Machine.traceOf_instant engine fuel hstep]
    simp [hbegun, hended, hfine, hfine.push]

/-- An instant step that is no move, and gives no class back. -/
theorem passes_instant (hstep : step.Instant) (htakes : watch.takes type (.begins step m) = false)
    (hfits : watch.Fits type m) (hclaimed : m.Claimed type → m'.Claimed type) :
    watch.Passes type false (Machine.traceOf engine fuel step m) m' := by
  obtain ⟨hafter, hfine⟩ := after_instant engine fuel hstep htakes hfits.fine
  have hnone := hfits.passes_nil false
  refine ⟨hfine, by rw [hafter], ?_, ?_⟩
  · rw [hafter]
    exact fun htaken => hclaimed (hfits.claimed htaken)
  · rw [hafter]
    exact hnone.kept

end Watch

end ClassHost
