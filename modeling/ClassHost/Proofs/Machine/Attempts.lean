import ClassHost.Proofs.Machine.Watching

/-!
# Attempts to initialise a class

Nothing but the state of a class keeps a second attempt on it from beginning, and initialisers may
ask for anything: other classes, the same class again, a start, a whole main thread; and any of it
may fail or panic.

While there is an attempt on a class that has not failed, the class is claimed, so nothing that
happens in the meantime is an attempt or runs the initialiser. That is all that a step has to know
about what it is nested in, and `Watch.orderly_perform` is the induction over the nesting. At every
moment of every run it bounds the invocations of the initialiser and the open attempts
(`initializer_calls_le`).
-/

namespace ClassHost

variable {σ α : Type}

namespace Watch

variable {type other : ClassId} {watch : Watch σ} {marks : List (Mark σ)} {step : Step σ}
  {m m' : Machine σ} {engine : Engine σ} {fuel : Nat} {thread : ThreadId}

-- ---------------------------------------------------------------------------
-- A request to initialise a class
-- ---------------------------------------------------------------------------

/-- A stretch, with these steps open, whatever was seen before. -/
def Passable (type : ClassId) (stack : List (OpenStep σ)) (_ : Option Halt) (m : Machine σ)
    (marks : List (Mark σ)) (m' : Machine σ) : Prop :=
  ∀ watch : Watch σ, watch.stack = stack → watch.Fits type m → watch.Passes type false marks m'

theorem spans_passable (type : ClassId) (stack : List (OpenStep σ)) :
    Spans (Passable type stack) where
  nil m watch _ hfits := hfits.passes_nil false
  append h h' watch hstack hfits := by
    have hfirst := h watch hstack hfits
    exact hfirst.append (h' _ (hfirst.stack.trans hstack) hfirst.fits)

/-- What may be asked for while these steps are open, as far as the states of classes go. A request
to initialise a class leaves them to its own stores. -/
structure Allows (watch : Watch σ) (step : Step σ) : Prop where
  routine : step.Routine
  stays : (innermost? watch.frames).isSome → ∀ access, step = .request (.access access) →
    ¬ access.Moves

theorem Allows.of_not_instant (hroutine : step.Routine) (h : ¬ step.Instant) :
    watch.Allows step where
  routine := hroutine
  stays _ access heq := absurd (heq ▸ Step.instant_access access) h

theorem Passes.mono {invoked invoked' : Bool} (h : watch.Passes type invoked marks m')
    (hle : invoked = true → invoked' = true) : watch.Passes type invoked' marks m' where
  fine := h.fine
  stack := h.stack
  claimed := h.claimed
  kept htaken := by
    have hkept := h.kept htaken
    refine ⟨hkept.attempts, hkept.failures, Nat.le_trans hkept.calls (Nat.add_le_add_left ?_ _)⟩
    cases invoked with
    | false => exact Nat.zero_le _
    | true => exact Nat.le_of_eq (congrArg Bool.toNat (hle rfl)).symm

/-- Steps with this much fuel keep what has been seen in order, if they are asked for where they may
be and leave room for an invocation that they are. -/
def Orderly (type : ClassId) (engine : Engine σ) (fuel : Nat) : Prop :=
  ∀ (watch : Watch σ) (step : Step σ) (m : Machine σ), watch.Fits type m → watch.Allows step →
    (watch.call (watch.invokes type step)).Fine →
    watch.Passes type (watch.invokes type step) (Machine.traceOf engine fuel step m)
      (Machine.perform engine fuel step m).2

section Initialization

variable (ih : Orderly type engine fuel)

include ih

/-- A step that invokes no initialiser as far as can be seen. -/
theorem passable_step {stack : List (OpenStep σ)} (h : ∀ watch : Watch σ, watch.stack = stack →
      watch.Allows step ∧ watch.invokes type step = false) (m : Machine σ) :
    Passable type stack (halted (Machine.perform engine fuel step m).1) m
      (Machine.traceOf engine fuel step m) (Machine.perform engine fuel step m).2 := by
  intro watch hstack hfits
  obtain ⟨hallows, hnone⟩ := h watch hstack
  have hpasses := ih watch step m hfits hallows
  rw [hnone] at hpasses
  exact hpasses hfits.fine

/-- Where no class is being initialised by the step that asks, any routine step may be asked for. -/
theorem passable_routine {stack : List (OpenStep σ)}
    (hnone : innermost? (stack.map OpenStep.frame) = none) (hroutine : step.Routine)
    (m : Machine σ) :
    Passable type stack (halted (Machine.perform engine fuel step m).1) m
      (Machine.traceOf engine fuel step m) (Machine.perform engine fuel step m).2 := by
  refine passable_step ih (fun watch hstack => ?_) m
  have hinnermost : innermost? watch.frames = none := by rw [frames, hstack, hnone]
  exact ⟨⟨hroutine, fun hsome => by simp [hinnermost] at hsome⟩, by simp [invokes, hinnermost]⟩

/-- Initialising the super class. -/
theorem passable_initializeSuper (stack : List (OpenStep σ)) (m : Machine σ) :
    (Procedure.initializeSuper thread other).Spanned (Passable type stack) engine fuel m := by
  have hspans := spans_passable type stack
  have hnil : ∀ m : Machine σ, Passable type stack none m [] m := hspans.nil
  unfold Procedure.initializeSuper
  -- observing and loading are accesses that move nothing
  refine Procedure.spanned_bind hspans (Procedure.spanned_lift_call (passable_step ih ?_ m))
    fun seen middle _ => ?_
  · exact fun _ _ => ⟨⟨trivial, fun _ access haccess => by cases haccess; exact id⟩,
      invokes_of_plain rfl⟩
  cases (seen.table.get? other).bind LoadedClass.superName? with
  | none => exact hnil middle
  | some superName =>
    refine Procedure.spanned_bind hspans (Procedure.spanned_load (passable_step ih ?_ middle))
      fun found last _ => ?_
    · exact fun _ _ => ⟨⟨trivial, fun _ access haccess => by cases haccess; exact id⟩,
        invokes_of_plain rfl⟩
    cases found with
    | none => exact hnil last
    | some superType =>
      -- the super class is left to its own request
      refine Procedure.spanned_initClass (passable_step ih ?_ last)
      exact fun _ _ => ⟨.of_not_instant trivial id, invokes_of_plain rfl⟩

/-- The call of an initialiser. It is seen if it is the one of the class that is watched, and then
there has to be room for it. -/
theorem passes_invoke {method : MethodRef} (hfits : watch.Fits type m)
    (hdeclaring : method.declaring = other) (hcalls : other = type → watch.calls < watch.attempts) :
    watch.Passes type (decide (other = type))
      (Machine.traceOf engine fuel (.request (.invoke thread method [])) m)
      (Machine.perform engine fuel (.request (.invoke thread method [])) m).2 := by
  -- what is seen as an invocation is one of the class that declares the method
  have hown : watch.invokes type (.request (.invoke thread method [])) = true → other = type := by
    intro hinvokes
    simp only [invokes, Step.runsInitializer, Bool.and_eq_true, decide_eq_true_eq] at hinvokes
    exact hdeclaring.symm.trans hinvokes.2.1
  have hfine : (watch.call (watch.invokes type (.request (.invoke thread method [])))).Fine := by
    cases hinvokes : watch.invokes type (.request (.invoke thread method [])) with
    | false => exact hfits.fine
    | true => exact ⟨hcalls (hown hinvokes), hfits.fine.open_le, hfits.fine.attempts_le⟩
  have hinvoke := ih watch (.request (.invoke thread method [])) m hfits
    (.of_not_instant trivial id) hfine
  exact hinvoke.mono fun hinvokes => decide_eq_true (hown hinvokes)

/-- Running the initialiser of a class, if it declares one. -/
theorem passes_invokeInitializer (hfits : watch.Fits type m)
    (hcalls : other = type → watch.calls < watch.attempts) :
    watch.Passes type (decide (other = type)) (Machine.traceAll engine fuel
        ((Procedure.invokeInitializer thread other).asked engine fuel m))
      ((Procedure.invokeInitializer thread other).exec engine fuel m).2 := by
  cases fuel with
  | zero => exact hfits.passes_nil _
  | succ fuel =>
    rw [Procedure.asked_invokeInitializer, Procedure.exec_invokeInitializer, Machine.traceAll_cons]
    have htakes := takes_observe type watch m
    refine (passes_instant (Step.instant_access _) htakes hfits id).append ?_
    rw [(after_instant engine (fuel + 1) (Step.instant_access _) htakes hfits.fine).1]
    cases hmethod : m.table.method? .static other Procedure.initializerKey with
    | none => exact hfits.passes_nil _
    | some method =>
      -- nothing is done with what the initialiser returns
      have hlast : (Procedure.exec engine (fuel + 1)
            (do let _ ← Procedure.invoke thread method []) m).2 =
          (Machine.perform engine (fuel + 1) (.request (.invoke thread method [])) m).2 := by
        rw [Procedure.exec_bind, Procedure.exec_invoke]
        rcases Machine.perform engine (fuel + 1) (.request (.invoke thread method [])) m with
          ⟨_ | _ | _, _⟩ <;> rfl
      dsimp only
      rw [Machine.traceAll_cons, Machine.traceAll_nil, List.append_nil, hlast]
      exact passes_invoke ih hfits (ClassTable.eq_of_method? hmethod).1 hcalls

/-- The initialisers of a request that has moved its class. -/
theorem passes_runInitializers (hfits : watch.Fits type m)
    (hcalls : other = type → watch.Taken ∧ watch.calls < watch.attempts) :
    watch.Passes type (decide (other = type)) (Machine.traceAll engine fuel
        ((Procedure.runInitializers thread other).asked engine fuel m))
      ((Procedure.runInitializers thread other).exec engine fuel m).2 := by
  have hsuper : (Procedure.initializeSuper thread other).Spanned (Passable type watch.stack) engine
      fuel m := passable_initializeSuper ih watch.stack m
  unfold Procedure.Spanned at hsuper
  rw [Procedure.runInitializers, Procedure.asked_bind, Procedure.exec_bind]
  -- an initialiser of the super class that fails keeps that of the class from being invoked
  rcases hrun : (Procedure.initializeSuper thread other).exec engine fuel m with
    ⟨halt | error | _, middle⟩ <;> rw [hrun] at hsuper
  · rw [List.append_nil]
    exact (hsuper watch rfl hfits).mono nofun
  · rw [List.append_nil]
    exact (hsuper watch rfl hfits).mono nofun
  · have hfirst := hsuper watch rfl hfits
    rw [Machine.traceAll_append]
    refine hfirst.append (passes_invokeInitializer ih hfirst.fits fun heq => ?_)
    -- what happened in between was no invocation, so there is still room for this one
    obtain ⟨htaken, hlt⟩ := hcalls heq
    have hkept := hfirst.kept htaken
    rw [hkept.attempts]
    exact Nat.lt_of_le_of_lt hkept.calls hlt

end Initialization

/-- The request has become an attempt, if it is about the class that is watched. -/
def opened (type : ClassId) (watch : Watch σ) (thread : ThreadId) (other : ClassId)
    (m : Machine σ) : Watch σ where
  stack := ⟨⟨.request (.initClass thread other), m⟩, decide (other = type)⟩ :: watch.stack
  attempts := watch.attempts + (decide (other = type)).toNat
  calls := watch.calls
  failures := watch.failures

/-- A class that is loaded has no attempt on it. -/
theorem Fits.not_taken (h : watch.Fits type m) (hloaded : m.table.stateOf type = .loaded) :
    ¬ watch.Taken := by
  intro htaken
  have hclaimed := h.claimed htaken
  simp [Machine.Claimed, hloaded] at hclaimed

/-- An attempt may begin on a class that is loaded. -/
theorem Fits.opened (h : watch.Fits type m) (hloaded : m.table.stateOf other = .loaded)
    (thread : ThreadId) : (watch.opened type thread other m).Fits type (m.begin other) := by
  obtain ⟨hcalls, hopen, hattempts⟩ := h.fine
  by_cases heq : other = type
  · -- nothing is left over from earlier attempts, so there is one attempt more than failures now
    subst heq
    have hfree := h.not_taken hloaded
    obtain ⟨c, hget⟩ := ClassTable.exists_get?_of_stateOf (by rw [hloaded]; decide)
    unfold Taken at hfree
    refine ⟨⟨?_, ?_, ?_⟩, fun _ => .inl (ClassTable.stateOf_setState_self hget)⟩
    · simp [Watch.opened]
      omega
    · simp [Watch.opened, openAttempts] at hopen ⊢
      omega
    · simp [Watch.opened]
      omega
  · -- another class: nothing is counted, and a claim outlasts the store
    refine ⟨⟨?_, ?_, ?_⟩, fun htaken => (h.claimed ?_).setState (.inl rfl)⟩
    · simpa [Watch.opened, heq] using hcalls
    · simpa [Watch.opened, openAttempts, heq] using hopen
    · simpa [Watch.opened, heq] using hattempts
    · simpa [Watch.opened, Taken, heq] using htaken

/-- The move that opens an attempt. -/
theorem after_move (engine : Engine σ) (fuel : Nat) (hfits : watch.Fits type m)
    (hloaded : m.table.stateOf other = .loaded) (thread : ThreadId) :
    (watch.push ⟨.request (.initClass thread other), m⟩).after type
        (Machine.traceOf engine (fuel + 1)
          (.request (.access (.transition other .loaded .beingInitialized))) m) =
      watch.opened type thread other m ∧
    (watch.push ⟨.request (.initClass thread other), m⟩).FineAlong type
      (Machine.traceOf engine (fuel + 1)
        (.request (.access (.transition other .loaded .beingInitialized))) m) := by
  generalize hstep :
    (.request (.access (.transition other .loaded .beingInitialized)) : Step σ) = step
  have hinstant : step.Instant := hstep ▸ Step.instant_access _
  -- the move is seen as an attempt exactly if it is about the class that is watched
  have htakes : (watch.push ⟨.request (.initClass thread other), m⟩).takes type (.begins step m) =
      decide (other = type) := by
    by_cases heq : other = type
    · subst heq
      obtain ⟨c, hget⟩ := ClassTable.exists_get?_of_stateOf (by rw [hloaded]; decide)
      have hmoved : (Mark.begins step m).tableAfter.stateOf other = .beingInitialized := by
        rw [← hstep, Mark.tableAfter, Machine.apply_transition hloaded]
        exact ClassTable.stateOf_setState_self hget
      simp [takes, Mark.takes, hmoved, push, frames, innermost?, Asked.initializing?, Mark.machine,
        hloaded]
    · simp [takes, push, frames, innermost?, Asked.initializing?, heq]
  have hbegun : (watch.push ⟨.request (.initClass thread other), m⟩).next type (.begins step m) =
      (watch.opened type thread other m).push ⟨step, m⟩ := by
    rw [next, htakes, invokes_instant hinstant]
    rfl
  have hended : ∀ result m', ((watch.opened type thread other m).push ⟨step, m⟩).next type
      (.ends step result m') = watch.opened type thread other m := fun _ _ => rfl
  have hopened := (hfits.opened hloaded thread).fine
  rw [Machine.traceOf_instant engine fuel hinstant]
  exact ⟨by simp [hbegun, hended],
    by simp [hbegun, hended, hfits.fine.push, hopened, hopened.push]⟩

/-- The steps that open an attempt. -/
theorem after_openingSteps (engine : Engine σ) (fuel : Nat) (hfits : watch.Fits type m)
    (hloaded : m.table.stateOf other = .loaded) (thread : ThreadId) :
    (watch.push ⟨.request (.initClass thread other), m⟩).after type
        (Machine.traceAll engine (fuel + 1) (Procedure.openingSteps other m)) =
      watch.opened type thread other m ∧
    (watch.push ⟨.request (.initClass thread other), m⟩).FineAlong type
      (Machine.traceAll engine (fuel + 1) (Procedure.openingSteps other m)) := by
  obtain ⟨hobserved, hfine⟩ := after_instant engine (fuel + 1) (Step.instant_access _)
    (takes_observe type (watch.push ⟨.request (.initClass thread other), m⟩) m) (hfits.fine.push _)
  obtain ⟨hmoved, hfine'⟩ := after_move engine fuel hfits hloaded thread
  rw [Procedure.openingSteps, Machine.traceAll_cons, Machine.traceAll_cons, Machine.traceAll_nil,
    List.append_nil, after_append, fineAlong_append, hobserved]
  exact ⟨hmoved, hfine, hfine'⟩

/-- A store of another state is no move. -/
theorem takes_setState {state : ClassState} (hstate : state ≠ .beingInitialized)
    (watch : Watch σ) (other : ClassId) (m : Machine σ) :
    watch.takes type (.begins (.request (.access (.setState other state))) m) = false := by
  refine takes_eq_false fun hloaded => ?_
  change (m.table.setState other state).stateOf type ≠ _
  by_cases heq : other = type
  · subst heq
    obtain ⟨c, hget⟩ : ∃ c, m.table.get? other = some c :=
      ClassTable.exists_get?_of_stateOf (by rw [show m.table.stateOf other = _ from hloaded]; decide)
    rwa [ClassTable.stateOf_setState_self hget]
  · rw [ClassTable.stateOf_setState_of_ne heq, show m.table.stateOf type = _ from hloaded]
    decide

/-- The store that closes an attempt. -/
theorem after_closing (engine : Engine σ) (fuel : Nat) (type other : ClassId) (hfine : watch.Fine)
    (result : Except Halt (Except Throwable Unit) × Machine σ) :
    watch.after type (Machine.traceAll engine fuel (Procedure.closing other result)) = watch ∧
      watch.FineAlong type (Machine.traceAll engine fuel (Procedure.closing other result)) := by
  rcases result with ⟨halt | error | _, middle⟩
  · exact ⟨rfl, fineAlong_nil.mpr hfine⟩
  · rw [Procedure.closing, Machine.traceAll_cons, Machine.traceAll_nil, List.append_nil]
    exact after_instant engine fuel (Step.instant_access _)
      (takes_setState ClassState.noConfusion watch other middle) hfine
  · rw [Procedure.closing, Machine.traceAll_cons, Machine.traceAll_nil, List.append_nil]
    exact after_instant engine fuel (Step.instant_access _)
      (takes_setState ClassState.noConfusion watch other middle) hfine

/-- The end of a request that has moved its class. If the attempt failed, the class is given back. -/
theorem Fits.ends_opened {last : Watch σ} {middle : Machine σ} (hfits : watch.Fits type m)
    (hloaded : m.table.stateOf other = .loaded) (hlast : last.Fits type middle)
    (hstack : last.stack = (watch.opened type thread other m).stack)
    (hkept : (watch.opened type thread other m).Taken →
      (watch.opened type thread other m).Keeps (decide (other = type)) last)
    {r : Except Halt (Except Throwable Unit)}
    (hclaimed : (other = type →
        (Mark.ends (.request (.initClass thread other)) r m').returnsError = false) →
      middle.Claimed type → m'.Claimed type) :
    (last.next type (.ends (.request (.initClass thread other)) r m')).Fits type m' ∧
    (last.next type (.ends (.request (.initClass thread other)) r m')).stack = watch.stack ∧
    (watch.Taken →
      watch.Keeps false (last.next type (.ends (.request (.initClass thread other)) r m'))) := by
  by_cases heq : other = type
  · subst heq
    have hfree := hfits.not_taken hloaded
    have hopen := hfits.fine.open_le
    have htaken : (watch.opened other thread other m).Taken := by
      unfold Taken at hfree
      simp [Taken, Watch.opened]
      omega
    -- the attempt is still the only one, so its end closes it and may count as a failure
    obtain ⟨hattempts, hfailures, -⟩ := hkept htaken
    simp only [Watch.opened, decide_true, Bool.toNat_true] at hattempts hfailures hstack
    have hended : last.next other (.ends (.request (.initClass thread other)) r m') =
        { last with
          stack := watch.stack
          failures := watch.failures +
            (Mark.ends (.request (.initClass thread other)) r m').returnsError.toNat } := by
      simp [next, fails, hstack, hfailures]
    unfold Taken at hfree
    have hcalls := hlast.fine.calls_le
    rw [hended]
    refine ⟨⟨⟨hcalls, ?_, ?_⟩, fun hleft => ?_⟩, rfl, fun htaken => absurd htaken hfree⟩
    · have hle := (Mark.ends (.request (.initClass thread other)) r m').returnsError.toNat_le
      change watch.failures + _ + watch.openAttempts ≤ last.attempts
      omega
    · change last.attempts ≤ watch.failures + _ + 1
      omega
    · have hopened : last.Taken := by
        unfold Taken
        omega
      refine hclaimed (fun _ => ?_) (hlast.claimed hopened)
      cases herror : (Mark.ends (.request (.initClass thread other)) r m').returnsError with
      | false => rfl
      | true =>
        -- the attempt is one of the failures now, and none is left
        rw [herror] at hleft
        change watch.failures + 1 < last.attempts at hleft
        omega
  · -- another class: the flag is not set, and the end is like that of any step
    have htop : last.stack = ⟨⟨.request (.initClass thread other), m⟩, false⟩ :: watch.stack := by
      rw [hstack, Watch.opened, decide_eq_false heq]
    rw [next_ends htop]
    refine ⟨⟨hlast.fine.pop, fun htaken => hclaimed (absurd · heq) (hlast.claimed htaken)⟩, ?_,
      fun htaken => ?_⟩
    · rw [pop, htop, List.tail_cons]
    · have hsame : watch.opened type thread other m =
          watch.push ⟨.request (.initClass thread other), m⟩ := by
        rw [Watch.opened, decide_eq_false heq]
        rfl
      rw [hsame, decide_eq_false heq] at hkept
      obtain ⟨hattempts, hfailures, hcalls⟩ := hkept htaken
      exact ⟨hattempts, hfailures, hcalls⟩

/-- A request to initialise a class leaves claimed classes claimed, unless it is an attempt on them
that returns an error. -/
theorem claimed_of_initialization {r r' : Except Halt (Except Throwable Unit)} {middle : Machine σ}
    (hloaded : m.table.stateOf other = .loaded)
    (harray : ((m.table.get? other).map LoadedClass.isArray).getD false = false)
    (hrun : (Procedure.runInitializers thread other).exec engine (fuel + 1) (m.begin other) =
      (r, middle))
    (hlast : Machine.perform engine (fuel + 2) (.request (.initClass thread other)) m = (r', m'))
    (hreturned : other = type →
      (Mark.ends (.request (.initClass thread other)) r' m').returnsError = false)
    (hclaimed : middle.Claimed type) : m'.Claimed type := by
  rw [Machine.perform_initClass, Procedure.exec_initialization_of_loaded hloaded harray, hrun]
    at hlast
  rcases r with halt | error | _
  · exact (Prod.mk.inj hlast).2 ▸ hclaimed
  · obtain ⟨rfl, rfl⟩ := Prod.mk.inj hlast
    have hne : other ≠ type := fun heq => nomatch hreturned heq
    have hset : (middle.finish other false).table.stateOf type = middle.table.stateOf type :=
      ClassTable.stateOf_setState_of_ne hne
    exact hclaimed.imp hset.trans hset.trans
  · exact (Prod.mk.inj hlast).2 ▸ hclaimed.setState (.inr rfl)

/-- An attempt, or a request for another class that is loaded. -/
theorem passes_attempt (ih : Orderly type engine (fuel + 1))
    (hfits : watch.Fits type m) (hloaded : m.table.stateOf other = .loaded)
    (harray : ((m.table.get? other).map LoadedClass.isArray).getD false = false) :
    watch.Passes type false
      (Machine.traceOf engine (fuel + 2) (.request (.initClass thread other)) m)
      (Machine.perform engine (fuel + 2) (.request (.initClass thread other)) m).2 := by
  rcases hrun : (Procedure.runInitializers thread other).exec engine (fuel + 1) (m.begin other) with
    ⟨r, middle⟩
  rcases hlast : Machine.perform engine (fuel + 2) (.request (.initClass thread other)) m with
    ⟨r', m'⟩
  -- the class that is watched, if it is this one, has an open attempt now and no call for it
  have hcalls : other = type → (watch.opened type thread other m).Taken ∧
      (watch.opened type thread other m).calls < (watch.opened type thread other m).attempts := by
    rintro rfl
    have hfree := hfits.not_taken hloaded
    have hle := hfits.fine.calls_le
    have hopen := hfits.fine.open_le
    unfold Taken at hfree
    simp only [Taken, Watch.opened, decide_true, Bool.toNat_true]
    omega
  have hinner : (watch.opened type thread other m).Passes type (decide (other = type))
      (Machine.traceAll engine (fuel + 1)
        ((Procedure.runInitializers thread other).asked engine (fuel + 1) (m.begin other)))
      ((Procedure.runInitializers thread other).exec engine (fuel + 1) (m.begin other)).2 :=
    passes_runInitializers ih (hfits.opened hloaded thread) hcalls
  rw [hrun] at hinner
  -- the two marks of the request, and what opens and closes the attempt
  have hbegun : watch.next type (.begins (.request (.initClass thread other)) m) =
      watch.push ⟨.request (.initClass thread other), m⟩ := by
    rw [next_begins (takes_begins id watch), invokes_of_plain rfl, call_false]
  obtain ⟨hopened, hopening⟩ := after_openingSteps engine fuel hfits hloaded thread
  obtain ⟨hclosed, hclosing⟩ :=
    after_closing engine (fuel + 1) type other hinner.fine.last (r, middle)
  obtain ⟨hfine, hstack, hkept⟩ := hfits.ends_opened hloaded hinner.fits hinner.stack hinner.kept
    (claimed_of_initialization hloaded harray hrun hlast)
  rw [Machine.traceOf_succ, Machine.asked_initClass,
    Procedure.asked_initialization_of_loaded hloaded harray, hrun, hlast, Machine.traceAll_append,
    Machine.traceAll_append]
  refine ⟨?_, ?_, ?_, ?_⟩
  · rw [fineAlong_cons, hbegun, fineAlong_append, fineAlong_append, fineAlong_append, after_append,
      after_append, hopened, hclosed, fineAlong_cons, fineAlong_nil]
    exact ⟨hfits.fine, ⟨hopening, hinner.fine, hclosing⟩, hinner.fine.last, hfine.fine⟩
  · rw [after_cons, hbegun, after_append, after_append, after_append, hopened, hclosed]
    exact hstack
  · rw [after_cons, hbegun, after_append, after_append, after_append, hopened, hclosed]
    exact hfine.claimed
  · rw [after_cons, hbegun, after_append, after_append, after_append, hopened, hclosed]
    exact hkept

/-- A request to initialise a class, in whatever state the class is. -/
theorem passes_initClass (ih : Orderly type engine (fuel + 1))
    (hfits : watch.Fits type m) :
    watch.Passes type false
      (Machine.traceOf engine (fuel + 2) (.request (.initClass thread other)) m)
      (Machine.perform engine (fuel + 2) (.request (.initClass thread other)) m).2 := by
  have hobserve : (watch.push ⟨.request (.initClass thread other), m⟩).Passes type false
      (Machine.traceOf engine (fuel + 1) (.request (.access .observe)) m) m :=
    passes_instant (Step.instant_access _) (takes_observe type _ m) (hfits.push _) id
  by_cases hloaded : m.table.stateOf other = .loaded
  · cases harray : ((m.table.get? other).map LoadedClass.isArray).getD false with
    | false => exact passes_attempt ih hfits hloaded harray
    | true =>
      rw [Machine.traceOf_succ, Machine.asked_initClass,
        Procedure.asked_initialization_of_array hloaded harray, Machine.perform_initClass,
        Procedure.exec_initialization_of_array hloaded harray, Machine.traceAll_cons,
        Machine.traceAll_cons, Machine.traceAll_nil, List.append_nil]
      have hstate : ClassState.fullyInitialized ≠ .beingInitialized := nofun
      refine Passes.enclose (invokes_of_plain rfl) id hfits.fine
        (hobserve.append ?_) _ id
      exact passes_instant (Step.instant_access _) (takes_setState hstate _ other m) hobserve.fits
        fun hclaimed => hclaimed.setState (.inr rfl)
  · rw [Machine.traceOf_succ, Machine.asked_initClass, Procedure.asked_initialization_of_ne hloaded,
      Machine.traceAll_cons, Machine.traceAll_nil, List.append_nil]
    refine hobserve.enclose (invokes_of_plain rfl) id hfits.fine _
      fun hclaimed => ?_
    rwa [Machine.perform_initClass, Procedure.eq_of_initialization_of_ne hloaded (Prod.eta _).symm]

-- ---------------------------------------------------------------------------
-- Runs
-- ---------------------------------------------------------------------------

/-- A routine access gives no class back. -/
theorem claimed_of_routine {access : Access σ} (h : Step.Routine (.request (.access access)))
    (hclaimed : m.Claimed type) : (access.apply m).2.Claimed type := by
  cases access with
  | setState other state => exact hclaimed.setState h
  | transition other source target => exact h.elim
  | _ => exact Machine.keepsClaims_of_unmoved (Access.unmoved id m) type hclaimed

/-- An access that may be asked for. If the step that asks is a request to initialise the class, the
access is none of its own stores, and leaves the class where it was. -/
theorem passes_access {access : Access σ} (hfits : watch.Fits type m)
    (hallows : watch.Allows (.request (.access access))) :
    watch.Passes type false (Machine.traceOf engine fuel (.request (.access access)) m)
      (access.apply m).2 := by
  refine passes_instant (Step.instant_access access) ?_ hfits (claimed_of_routine hallows.routine)
  by_cases hown : innermost? watch.frames = some type
  · have hstays := hallows.stays (by rw [hown]; rfl) access rfl
    exact takes_of_unmoved (Access.unmoved hstays m)
  · simp [takes, hown]

/-- **One step.** Whatever an engine does that sets no states, and whatever is open, every step
keeps what has been seen of a class in order and fitting the state of the class. -/
theorem orderly_perform (hengine : ∀ call, (engine.respond call).Only Request.LeavesStates)
    (fuel : Nat) : Orderly type engine fuel := by
  induction fuel with
  | zero => exact fun watch step m hfits _ _ => hfits.passes_nil _
  | succ fuel ih =>
    intro watch step m hfits hallows hcall
    -- what is asked for in a frame that initialises no class
    have hop : ∀ {frame : Asked σ} {stack : List (OpenStep σ)}, frame.initializing? = none →
        ∀ step : Step σ, step.Routine → ∀ m, Passable type (⟨frame, false⟩ :: stack)
          (halted (Machine.perform engine fuel step m).1) m (Machine.traceOf engine fuel step m)
          (Machine.perform engine fuel step m).2 := by
      intro frame stack hframe step hroutine m
      have hnone : innermost? ((⟨frame, false⟩ :: stack : List (OpenStep σ)).map OpenStep.frame) =
          none := hframe
      exact passable_routine ih hnone hroutine m
    have hpushed : ((watch.call (watch.invokes type step)).push ⟨step, m⟩).Fits type m :=
      ⟨hcall.push _, hfits.claimed⟩
    match step with
    | .request (.access access) =>
      rw [invokes_instant (Step.instant_access access)]
      exact passes_access hfits hallows
    | .upkeep upkeep =>
      have hinstant : Step.Instant (.upkeep upkeep : Step σ) := trivial
      rw [invokes_instant hinstant]
      refine passes_instant hinstant (takes_upkeep type watch upkeep m) hfits fun hclaimed => ?_
      rwa [Machine.perform_upkeep, Machine.Claimed, (upkeep.keeps m).1]
    | .request .panic =>
      exact Passes.enclose rfl id hfits.fine
        (hpushed.passes_nil false) _ id
    | .request (.initClass thread other) =>
      have hnone : watch.invokes type (.request (.initClass thread other)) = false :=
        invokes_of_plain rfl
      rw [hnone]
      cases fuel with
      | zero =>
        rw [Machine.traceOf_succ, Machine.traceAll_zero]
        exact Passes.enclose hnone id hfits.fine
          ((hfits.push _).passes_nil false) _ id
      | succ fuel => exact passes_initClass ih hfits
    | .request (.invoke thread method arguments) =>
      have hinner := spans_asked (spans_passable type _) (hop rfl)
        (Procedure.asks_invocation
          (fun _ h => Step.routine_of_restrained (Step.restrained_of_contained h))
          (fun _ => trivial) (fun _ => trivial) (fun _ => trivial) thread method arguments)
        m _ rfl hpushed
      exact hinner.enclose rfl id hfits.fine _ id
    | .request (.boot thread arguments) =>
      have hinner := spans_asked (spans_passable type _) (hop rfl)
        (Procedure.asks_booting (fun _ => Step.routine_of_ordinary) (fun _ => trivial) thread
          arguments) m _ rfl hpushed
      exact hinner.enclose rfl id hfits.fine _ id
    | .callEngine call =>
      have hinner := spans_asked (spans_passable type _)
        (fun request hrequest => hop rfl (.request request)
          (Request.routine_of_leavesStates hrequest))
        (hengine call) m _ rfl hpushed
      exact hinner.enclose rfl id hfits.fine _ id
    | .request (.supervise entry arguments) =>
      -- the thread is entered and left around the steps, which touches no class
      have hinner := spans_asked (spans_passable type _) (hop rfl)
        ((Procedure.asks_mainThread entry arguments).ordinary.mono
          fun _ => Step.routine_of_ordinary) m.entered _ rfl ⟨hpushed.fine, hpushed.claimed⟩
      refine hinner.enclose rfl id hfits.fine _ fun hclaimed => ?_
      rwa [Machine.Claimed, Machine.table_supervise]

end Watch

/-- **Initialisers and attempts.** Take any run of a guest on a new machine in which neither the
guest nor the engine sets states itself, any class, and any moment of the run. Requests to
initialise classes have invoked the initialiser of the class at most once more than attempts on it
have returned an error, and at most one attempt on it is open. -/
theorem initializer_calls_le {engine : Engine σ} {guest : Guest σ α}
    (hengine : ∀ call, (engine.respond call).Only Request.LeavesStates)
    (hguest : guest.Only Request.LeavesStates) (fuel : Nat) (classPath : Finder)
    (delegateClass : Option String) (memory : σ) {before after : List (Mark σ)}
    (hsplit : Machine.trace engine fuel guest (.new classPath delegateClass memory) =
      before ++ after) (type : ClassId) :
    (Watch.start.after type before).calls ≤ 1 + (Watch.start.after type before).failures ∧
    (Watch.start.after type before).openAttempts ≤ 1 := by
  have hstart : (Watch.start : Watch σ).Fits type (.new classPath delegateClass memory) :=
    ⟨⟨Nat.le_refl _, Nat.le_refl _, Nat.zero_le _⟩, fun htaken => absurd htaken (Nat.lt_irrefl _)⟩
  have hnone : innermost? (([] : List (OpenStep σ)).map OpenStep.frame) = none := rfl
  have hpasses : (Watch.start : Watch σ).Passes type false
      (Machine.trace engine fuel guest (.new classPath delegateClass memory)) _ :=
    spans_asked (Watch.spans_passable type [])
      (fun request hrequest => Watch.passable_routine (Watch.orderly_perform hengine fuel) hnone
        (Request.routine_of_leavesStates hrequest))
      hguest _ _ rfl hstart
  obtain ⟨hcalls, hopen, hattempts⟩ := hpasses.fine before after hsplit
  omega

/-- The file of a class `A` with an initialiser. -/
def initializerFile : Bytes :=
  [0xCA, 0xFE, 0xBA, 0xBE, 0, 0, 0, 52, 0, 5, 7, 0, 2, 1, 0, 1, 65,
    1, 0, 8, 60, 99, 108, 105, 110, 105, 116, 62, 1, 0, 3, 40, 41, 86,
    0, 0, 0, 1, 0, 0, 0, 0, 0, 0, 0, 1, 0, 8, 0, 3, 0, 4, 0, 0, 0, 0]

/-- An engine whose initialisers ask for their own class again, and of which the first one fails. -/
def stubbornEngine : Engine Nat where
  respond call :=
    .ask (.access .observe) fun m => .ask (.access (.remember (m.memory + 1))) fun _ =>
      .ask (.initClass call.thread call.method.declaring) fun _ =>
        .done (if m.memory = 0 then .error (.internal .noDefaultCharset) else .ok none)

/-- Loads the class and initialises it three times. -/
def stubbornGuest : Guest Nat Unit :=
  .ask (.access (.load "A")) fun _ => .ask (.initClass ⟨0⟩ ⟨0⟩) fun _ =>
    .ask (.initClass ⟨0⟩ ⟨0⟩) fun _ => .ask (.initClass ⟨0⟩ ⟨0⟩) fun _ => .done ()

/-- The marks of the three initialisations. -/
def stubbornTrace : List (Mark Nat) :=
  let finder : Finder := fun name =>
    if name = "A" then some ⟨.memory name, initializerFile⟩ else none
  Machine.trace stubbornEngine 9 stubbornGuest (.new finder none 0)

/-- In the second attempt, which follows one that returned an error, the initialiser has been
invoked for the second time and asks for its own class: as many invocations and as many open
attempts as there can be. -/
theorem stubborn_initializer_calls :
    ((Watch.start.after ⟨0⟩ (stubbornTrace.take 52)).calls = 2 ∧
      (Watch.start.after ⟨0⟩ (stubbornTrace.take 52)).failures = 1 ∧
      (Watch.start.after ⟨0⟩ (stubbornTrace.take 52)).openAttempts = 1 ∧
      (innermost? (openFrames [] (stubbornTrace.take 52)) = some ⟨0⟩ ∧
        (openFrames [] (stubbornTrace.take 52)).length = 4)) ∧
    (Watch.start.after ⟨0⟩ (stubbornTrace.take 52)).calls ≤
      1 + (Watch.start.after ⟨0⟩ (stubbornTrace.take 52)).failures ∧
    (Watch.start.after ⟨0⟩ (stubbornTrace.take 52)).openAttempts ≤ 1 := by
  have hengine : ∀ call, (stubbornEngine.respond call).Only Request.LeavesStates :=
    fun _ => ⟨trivial, fun _ => ⟨trivial, fun _ => ⟨trivial, fun _ => trivial⟩⟩⟩
  have hguest : stubbornGuest.Only Request.LeavesStates :=
    ⟨trivial, fun _ => ⟨trivial, fun _ => ⟨trivial, fun _ => ⟨trivial, fun _ => trivial⟩⟩⟩⟩
  have hsplit : stubbornTrace = stubbornTrace.take 52 ++ stubbornTrace.drop 52 :=
    (List.take_append_drop 52 stubbornTrace).symm
  exact ⟨by decide +kernel, initializer_calls_le hengine hguest 9 _ none 0 hsplit ⟨0⟩⟩

end ClassHost
