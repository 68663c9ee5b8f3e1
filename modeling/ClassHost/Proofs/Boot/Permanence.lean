import ClassHost.Proofs.Boot.Conduct
import ClassHost.Proofs.Boot.Started
import ClassHost.Proofs.Machine.InitializationSteps
import ClassHost.Proofs.Machine.Settling
import ClassHost.Proofs.Machine.TableSteps

/-!
# Initialised classes stay initialised

If no client sets states, the state of a class is written by initialisations and by starts. An
initialisation moves a class on, or takes back what it did itself. A start is not so careful: it
stores the states of the two classes that it claims without looking at them. So a class other than
these two that is initialised stays so, whatever runs and whatever becomes of it
(`initialized_lasts`).

One of the two may be initialised already when a start comes to claim it, and then it is so no more;
and if the start does not get to its last steps, it stays that way. `interruptedTrace` shows a
run in which that happens. The other way in which one of them is given back is an attempt on it that
fails, after a start inside the attempt has marked the class as initialised.

The stores are told apart by who makes them, which the call stack shows: `Mark.Reclaims`.
-/

namespace ClassHost

variable {σ α : Type}

-- ---------------------------------------------------------------------------
-- Giving a class back
-- ---------------------------------------------------------------------------

/-- A store that gives an initialised class back is about to be made: by a start that claims the
class, or at the end of an attempt on it that has failed. -/
inductive Mark.Reclaims (type : ClassId) : List (Asked σ) → Mark σ → Prop where
  | claimed {thread : ThreadId} {arguments : List String} {m m' : Machine σ}
      {frames : List (Asked σ)} (hname : m.className type ∈ CoreName.claimed) :
      Reclaims type (⟨.request (.boot thread arguments), m'⟩ :: frames)
        (.begins (.request (.access (.setState type .beingInitialized))) m)
  | failed {thread : ThreadId} {m m' : Machine σ} {frames : List (Asked σ)}
      (hname : m.className type ∈ CoreName.claimed) (hloaded : m'.table.stateOf type = .loaded) :
      Reclaims type (⟨.request (.initClass thread type), m'⟩ :: frames)
        (.begins (.request (.access (.setState type .loaded))) m)

/-- A class that is initialised at a mark is so behind it, unless it is given back there. -/
def Mark.Lasting (type : ClassId) (frames : List (Asked σ)) (mark : Mark σ) : Prop :=
  mark.machine.table.stateOf type = .fullyInitialized →
    mark.tableAfter.stateOf type = .fullyInitialized ∨ mark.Reclaims type frames

variable {frames : List (Asked σ)} {frame : Asked σ} {mark : Mark σ} {marks marks' : List (Mark σ)}
  {engine : Engine σ} {fuel : Nat} {step : Step σ} {m m' m'' : Machine σ} {thread : ThreadId}
  {type other : ClassId}

theorem Mark.lasting_of_eq (h : mark.tableAfter = mark.machine.table) : mark.Lasting type frames :=
  fun hfully => .inl (h ▸ hfully)

theorem ClassTable.Unmoved.stateOf_eq {table table' : ClassTable} (h : table.Unmoved table')
    (hstate : table.stateOf type ≠ .notLoaded) : table'.stateOf type = table.stateOf type := by
  rcases h.stateOf type with hsame | ⟨hnone, -⟩
  · exact hsame
  · simp [ClassTable.stateOf, hnone] at hstate

/-- A step of a stretch of a run leaves a class alone that is initialised, and one that counts as
being initialised unless a start may claim it. -/
structure Lasts (type : ClassId) (frames : List (Asked σ)) (_ : Option Halt) (m : Machine σ)
    (marks : List (Mark σ)) (m' : Machine σ) : Prop where
  balanced : openFrames frames marks = frames
  keeps : m.table.Keeps m'.table
  lasting : Along (Mark.Lasting type) frames marks
  busy : m.className type ∉ CoreName.claimed → m.table.stateOf type = .beingInitialized →
    m'.table.stateOf type = .beingInitialized

theorem className_of_busy (hkeeps : m.table.Keeps m'.table)
    (hbusy : m.table.stateOf type = .beingInitialized) : m'.className type = m.className type := by
  obtain ⟨c, hget⟩ := ClassTable.exists_get?_of_stateOf (by rw [hbusy]; decide)
  exact hkeeps.nameOf hget

theorem spans_lasts (type : ClassId) (frames : List (Asked σ)) : Spans (Lasts type frames) where
  nil m := ⟨rfl, .refl _, along_nil, fun _ hbusy => hbusy⟩
  append {halt m m' m'' marks marks'} h h' := by
    refine ⟨?_, h.keeps.trans h'.keeps, ?_, fun hname hbusy => ?_⟩
    · rw [openFrames_append, h.balanced, h'.balanced]
    · rw [along_append, h.balanced]
      exact ⟨h.lasting, h'.lasting⟩
    · have hbusy' := h.busy hname hbusy
      refine h'.busy ?_ hbusy'
      rwa [className_of_busy h.keeps hbusy]

-- ---------------------------------------------------------------------------
-- Who may set states
-- ---------------------------------------------------------------------------

/-- A step that moves no class itself. -/
def Step.Stays : Step σ → Prop
  | .request (.access access) => ¬ access.Moves
  | _ => True

theorem Step.stays_of_steady {step : Step σ} (h : step.Steady) : step.Stays := by
  cases step with
  | request request =>
    cases request with
    | access access => cases access <;> first | exact id | exact h.elim
    | _ => exact trivial
  | _ => exact trivial

theorem Request.stays_of_leavesStates {request : Request σ} (h : request.LeavesStates) :
    Step.Stays (.request request) := by
  cases request with
  | access access => cases access <;> first | exact id | exact h.elim
  | _ => exact trivial

theorem Procedure.asks_mainThread_stays (entry : EntryClass) (arguments : List String) :
    Procedure.Asks Step.Stays (Procedure.mainThread entry arguments : Procedure σ Fatal Unit) := by
  refine asks_bind (asks_access id) fun thread => asks_bind ⟨trivial, fun _ => trivial⟩ fun _ =>
    asks_bind ?_ fun type => asks_bind (asks_bind (asks_observe id) fun m => ?_) fun main =>
    asks_bind (asks_bind (asks_observe id) fun _ => asks_orFatal ⟨trivial, fun _ => trivial⟩)
      fun _ => asks_bind (asks_orFatal ⟨id, fun _ => trivial⟩) fun array =>
    asks_bind (asks_observe id) fun _ => asks_bind (asks_orFatal ⟨trivial, fun _ => trivial⟩)
      fun _ => asks_pure ()
  · cases entry with
    | ofBytes bytes => exact asks_orFatal ⟨id, fun _ => trivial⟩
    | named name =>
      refine asks_bind (asks_orFatal ⟨id, fun _ => trivial⟩) fun found => ?_
      cases found with
      | none => exact asks_throw _
      | some type => exact asks_pure type
  · cases m.table.method? .static type mainKey with
    | none => exact asks_throw _
    | some method => exact asks_pure method

/-- A step that moves no class, unless it is the store of a start to a class that it claims. -/
def Asked.MaySet (frames : List (Asked σ)) (part : Asked σ) : Prop :=
  part.step.Stays ∨ ∃ thread arguments m' rest other state,
    frames = ⟨.request (.boot thread arguments), m'⟩ :: rest ∧
    part.step = .request (.access (.setState other state)) ∧
    (state = .beingInitialized ∨ state = .fullyInitialized) ∧
    part.machine.className other ∈ CoreName.claimed

theorem Asked.maySet_of_inBoot {part : Asked σ} (h : part.InBoot) {arguments : List String} :
    part.MaySet (⟨.request (.boot thread arguments), m⟩ :: frames) := by
  obtain ⟨step, m'⟩ := part
  match step, h with
  | .request (.access access), h =>
    cases access with
    | setState other state =>
      exact .inr ⟨thread, arguments, m, frames, other, state, rfl, rfl, h.1, h.2⟩
    | transition _ _ _ => exact h.elim
    | _ => exact .inl id
  | .request (.initClass _ _), _ | .request (.invoke _ _ _), _ | .upkeep _, _ =>
    exact .inl trivial

-- ---------------------------------------------------------------------------
-- Stores
-- ---------------------------------------------------------------------------

theorem Mark.lasting_begins (hstep : ∀ access, step ≠ .request (.access access)) :
    (Mark.begins step m).Lasting type frames :=
  lasting_of_eq (tableAfter_begins hstep)

/-- An access that moves no class. -/
theorem Mark.lasting_unmoved {access : Access σ} (h : ¬ access.Moves) :
    (Mark.begins (.request (.access access)) m).Lasting type frames := by
  intro hfully
  have hpresent : m.table.stateOf type ≠ .notLoaded := by
    rw [show m.table.stateOf type = .fullyInitialized from hfully]
    decide
  exact .inl (((Access.unmoved h m).stateOf_eq hpresent).trans hfully)

/-- A store of the state of another class, or of one that is not initialised. -/
theorem Mark.lasting_setState {state : ClassState}
    (h : other = type → m.table.stateOf type ≠ .fullyInitialized) :
    (Mark.begins (.request (.access (.setState other state))) m).Lasting type frames := by
  intro hfully
  have hne : other ≠ type := fun heq => h heq hfully
  exact .inl ((ClassTable.stateOf_setState_of_ne hne).trans hfully)

/-- A store of the state that the class has. -/
theorem Mark.lasting_setState_fully :
    (Mark.begins (.request (.access (.setState other .fullyInitialized))) m).Lasting type frames := by
  intro hfully
  by_cases heq : other = type
  · subst heq
    have hpresent : m.table.stateOf other ≠ .notLoaded := by
      rw [show m.table.stateOf other = .fullyInitialized from hfully]
      decide
    obtain ⟨c, hget⟩ := ClassTable.exists_get?_of_stateOf hpresent
    exact .inl (ClassTable.stateOf_setState_self hget)
  · exact .inl ((ClassTable.stateOf_setState_of_ne heq).trans hfully)

/-- The trace of an instant step has nothing to say but at its beginning. -/
theorem lasting_instant (hstep : step.Instant) (h : (Mark.begins step m).Lasting type frames) :
    Along (Mark.Lasting type) frames (Machine.traceOf engine fuel step m) :=
  Machine.along_traceOf_instant hstep h fun _ _ => Mark.lasting_of_eq rfl

/-- A step whose inside lasts. -/
theorem lasts_frame {r : Except Halt step.Reply} {parts : List (Asked σ)}
    (hrun : Machine.perform engine (fuel + 1) step m = (r, m'))
    (hasked : Machine.asked engine fuel step m = parts)
    (hbegins : (Mark.begins step m).Lasting type frames)
    (hinner : Along (Mark.Lasting type) (⟨step, m⟩ :: frames) (Machine.traceAll engine fuel parts))
    (hbusy : m.className type ∉ CoreName.claimed → m.table.stateOf type = .beingInitialized →
      m'.table.stateOf type = .beingInitialized) {halt : Option Halt} :
    Lasts type frames halt m (Machine.traceOf engine (fuel + 1) step m) m' := by
  refine ⟨Machine.openFrames_traceOf _ _ _ _ _, ?_, ?_, hbusy⟩
  · have hkeeps := Machine.keeps_perform engine (fuel + 1) step m
    rwa [hrun] at hkeeps
  · rw [Machine.along_traceOf_succ, hrun, hasked]
    exact ⟨hbegins, hinner, Mark.lasting_of_eq rfl⟩

/-- A step that is no access, around a stretch that lasts. -/
theorem lasts_around (step : Step σ) (m : Machine σ)
    (hstep : ∀ access, step ≠ .request (.access access)) {first middle : Machine σ}
    (hfirst : first.table = m.table) {halt halt' : Option Halt}
    (hinner : Lasts type (⟨step, m⟩ :: frames) halt first
      (Machine.traceAll engine fuel (Machine.asked engine fuel step m)) middle)
    (hlast : (Machine.perform engine (fuel + 1) step m).2.table = middle.table) :
    Lasts type frames halt' m (Machine.traceOf engine (fuel + 1) step m)
      (Machine.perform engine (fuel + 1) step m).2 := by
  refine lasts_frame (Prod.eta _).symm rfl (Mark.lasting_begins hstep) hinner.lasting
    fun hname hbusy => ?_
  rw [hlast]
  refine hinner.busy ?_ (hfirst ▸ hbusy)
  rwa [Machine.className, hfirst]

-- ---------------------------------------------------------------------------
-- An initialisation
-- ---------------------------------------------------------------------------

/-- A class that is not loaded is only looked at. -/
theorem lasts_skipped (hstate : m.table.stateOf other ≠ .loaded)
    {r : Except Halt (Except Throwable Unit)}
    (hrun : Machine.perform engine (fuel + 2) (.request (.initClass thread other)) m = (r, m'))
    {halt : Option Halt} :
    Lasts type frames halt m
      (Machine.traceOf engine (fuel + 2) (.request (.initClass thread other)) m) m' := by
  obtain rfl := Procedure.eq_of_initialization_of_ne hstate hrun
  refine lasts_frame hrun ((Machine.asked_initClass engine (fuel + 1) thread other m').trans
    (Procedure.asked_initialization_of_ne hstate)) (Mark.lasting_begins nofun) ?_
    fun _ hbusy => hbusy
  refine Machine.along_traceAll fun part hmem => ?_
  obtain rfl := List.mem_singleton.mp hmem
  exact lasting_instant trivial (Mark.lasting_unmoved id)

/-- An array class is marked as initialised. -/
theorem lasts_array (hloaded : m.table.stateOf other = .loaded)
    (harray : ((m.table.get? other).map LoadedClass.isArray).getD false = true)
    {halt : Option Halt} :
    Lasts type frames halt m
      (Machine.traceOf engine (fuel + 2) (.request (.initClass thread other)) m)
      (m.withTable (m.table.setState other .fullyInitialized)) := by
  refine lasts_frame ((Machine.perform_initClass engine (fuel + 1) thread other m).trans
      (Procedure.exec_initialization_of_array hloaded harray))
    ((Machine.asked_initClass engine (fuel + 1) thread other m).trans
      (Procedure.asked_initialization_of_array hloaded harray)) (Mark.lasting_begins nofun) ?_ ?_
  · rw [Machine.traceAll_cons, Machine.traceAll_cons, Machine.traceAll_nil, List.append_nil,
      along_append, Machine.openFrames_traceOf]
    exact ⟨lasting_instant trivial (Mark.lasting_unmoved id),
      lasting_instant trivial Mark.lasting_setState_fully⟩
  · intro _ hbusy
    -- a class being initialised is not the loaded array class
    have hne : other ≠ type := by
      rintro rfl
      rw [hloaded] at hbusy
      exact nomatch hbusy
    exact (ClassTable.stateOf_setState_of_ne hne).trans hbusy

/-- The steps that open an attempt. The class that is moved is loaded. -/
theorem lasting_opening (hloaded : m.table.stateOf other = .loaded) :
    Along (Mark.Lasting type) frames
      (Machine.traceAll engine fuel (Procedure.openingSteps other m)) := by
  refine Machine.along_traceAll fun part hmem => ?_
  simp only [Procedure.openingSteps, List.mem_cons, List.not_mem_nil, or_false] at hmem
  obtain rfl | rfl := hmem
  · exact lasting_instant trivial (Mark.lasting_unmoved id)
  · refine lasting_instant trivial fun hfully => .inl ?_
    have hne : other ≠ type := by
      rintro rfl
      have hsame := hloaded.symm.trans hfully
      cases hsame
    rw [Mark.tableAfter, Machine.apply_transition hloaded]
    exact (ClassTable.stateOf_setState_of_ne hne).trans hfully

/-- The steps that close an attempt on a class that was loaded. If the attempt failed, the class is
marked until the store is made, unless a start may have claimed it. -/
theorem lasting_closing (hloaded : m.table.stateOf other = .loaded)
    {result : Except Halt (Except Throwable Unit) × Machine σ}
    (hbusy : other = type → result.2.className type ∉ CoreName.claimed →
      result.2.table.stateOf type = .beingInitialized) :
    Along (Mark.Lasting type) (⟨.request (.initClass thread other), m⟩ :: frames)
      (Machine.traceAll engine fuel (Procedure.closing other result)) := by
  refine Machine.along_traceAll fun part hmem => ?_
  rcases result with ⟨halt | error | _, middle⟩
  · exact absurd hmem List.not_mem_nil
  · obtain rfl := List.mem_singleton.mp hmem
    refine lasting_instant trivial ?_
    -- a failing attempt moves its class back: only a claimed class can be initialised by then
    by_cases hclaimed : other = type ∧ middle.className type ∈ CoreName.claimed
    · obtain ⟨rfl, hname⟩ := hclaimed
      exact fun _ => .inr (.failed hname hloaded)
    · refine Mark.lasting_setState fun heq => ?_
      rw [show middle.table.stateOf type = .beingInitialized from
        hbusy heq fun hname => hclaimed ⟨heq, hname⟩]
      decide
  · obtain rfl := List.mem_singleton.mp hmem
    exact lasting_instant trivial Mark.lasting_setState_fully

section Initialization

variable (ih : ∀ (frames : List (Asked σ)) (step : Step σ) (m : Machine σ),
    Asked.MaySet frames ⟨step, m⟩ →
    Lasts type frames (halted (Machine.perform engine (fuel + 1) step m).1) m
      (Machine.traceOf engine (fuel + 1) step m) (Machine.perform engine (fuel + 1) step m).2)

include ih

/-- An attempt. -/
theorem lasts_attempt (hloaded : m.table.stateOf other = .loaded)
    (harray : ((m.table.get? other).map LoadedClass.isArray).getD false = false)
    {r : Except Halt (Except Throwable Unit)}
    (hrun : Machine.perform engine (fuel + 2) (.request (.initClass thread other)) m = (r, m'))
    {halt : Option Halt} :
    Lasts type frames halt m
      (Machine.traceOf engine (fuel + 2) (.request (.initClass thread other)) m) m' := by
  obtain ⟨c, hget⟩ := ClassTable.exists_get?_of_stateOf (by rw [hloaded]; decide)
  have hasked := (Machine.asked_initClass engine (fuel + 1) thread other m).trans
    (Procedure.asked_initialization_of_loaded hloaded harray)
  have hresult := (Machine.perform_initClass engine (fuel + 1) thread other m).symm.trans hrun
  rw [Procedure.exec_initialization_of_loaded hloaded harray] at hresult
  have hinner : (Procedure.runInitializers thread other).Spanned
      (Lasts type (⟨.request (.initClass thread other), m⟩ :: frames)) engine (fuel + 1)
      (m.begin other) :=
    spans_asked (spans_lasts type _) (fun step hstep middle => ih _ step middle (.inl hstep))
      ((Procedure.steady_runInitializers thread other).mono fun _ => Step.stays_of_steady) _
  unfold Procedure.Spanned at hinner
  rcases hinitializers : (Procedure.runInitializers thread other).exec engine (fuel + 1)
    (m.begin other) with ⟨r', middle⟩
  rw [hinitializers] at hinner hasked hresult
  -- marking the class keeps every class's name, so both sides speak of one name below
  have hopened : m.table.Keeps (m.begin other).table :=
    ((Access.setState other .beingInitialized).touches m).table.keeps
  refine lasts_frame hrun hasked (Mark.lasting_begins nofun) ?_ fun hname hbusy => ?_
  · rw [Machine.traceAll_append, along_append, Machine.traceAll_append, along_append,
      Machine.openFrames_traceAll, Machine.openFrames_traceAll]
    refine ⟨lasting_opening hloaded, hinner.lasting, lasting_closing hloaded ?_⟩
    -- the class has been marked, and counts as being initialised ever since
    rintro rfl hname
    have hbegun : (m.begin other).table.stateOf other = .beingInitialized :=
      ClassTable.stateOf_setState_self hget
    exact hinner.busy (className_of_busy hinner.keeps hbegun ▸ hname) hbegun
  · have hne : other ≠ type := by
      rintro rfl
      exact nomatch hloaded.symm.trans hbusy
    have hmiddle : middle.table.stateOf type = .beingInitialized :=
      hinner.busy (className_of_busy hopened hbusy ▸ hname)
        ((ClassTable.stateOf_setState_of_ne hne).trans hbusy)
    -- however the attempt ends, the state it sets is of `other`
    rcases r' with halt | error | _
    · obtain ⟨-, rfl⟩ := Prod.mk.inj hresult
      exact hmiddle
    · obtain ⟨-, rfl⟩ := Prod.mk.inj hresult
      exact (ClassTable.stateOf_setState_of_ne hne).trans hmiddle
    · obtain ⟨-, rfl⟩ := Prod.mk.inj hresult
      exact (ClassTable.stateOf_setState_of_ne hne).trans hmiddle

/-- Initialising a class, in whatever state it is. -/
theorem lasts_initClass {r : Except Halt (Except Throwable Unit)}
    (hrun : Machine.perform engine (fuel + 2) (.request (.initClass thread other)) m = (r, m'))
    {halt : Option Halt} :
    Lasts type frames halt m
      (Machine.traceOf engine (fuel + 2) (.request (.initClass thread other)) m) m' := by
  by_cases hloaded : m.table.stateOf other = .loaded
  · cases harray : ((m.table.get? other).map LoadedClass.isArray).getD false with
    | true =>
      rw [Machine.perform_initClass, Procedure.exec_initialization_of_array hloaded harray] at hrun
      obtain ⟨-, rfl⟩ := Prod.mk.inj hrun
      exact lasts_array hloaded harray
    | false => exact lasts_attempt ih hloaded harray hrun
  · exact lasts_skipped hloaded hrun

end Initialization

-- ---------------------------------------------------------------------------
-- All steps
-- ---------------------------------------------------------------------------

/-- An access, which may be the store of a start. -/
theorem lasts_access {access : Access σ}
    (hmay : Asked.MaySet frames ⟨.request (.access access), m⟩) {halt : Option Halt} :
    Lasts type frames halt m
      (Machine.traceOf engine (fuel + 1) (.request (.access access)) m) (access.apply m).2 := by
  have hrun := Machine.perform_access engine fuel access m
  -- outside a start no access moves a class; a start moves the classes it claims
  rcases hmay with hstays | ⟨thread, arguments, m', rest, other, state, rfl, hstep, hstate, hname⟩
  · have hunmoved := Access.unmoved hstays m
    refine lasts_frame hrun rfl (Mark.lasting_unmoved hstays) along_nil fun _ hbusy => ?_
    rw [hunmoved.stateOf_eq (by rw [hbusy]; decide), hbusy]
  · obtain rfl := Request.access.inj (Step.request.inj hstep)
    refine lasts_frame hrun rfl ?_ along_nil fun hunclaimed hbusy => ?_
    · rcases hstate with rfl | rfl
      · by_cases heq : other = type
        · subst heq
          exact fun _ => .inr (.claimed hname)
        · exact Mark.lasting_setState fun h => absurd h heq
      · exact Mark.lasting_setState_fully
    · have hne : other ≠ type := by
        rintro rfl
        exact hunclaimed hname
      exact (ClassTable.stateOf_setState_of_ne hne).trans hbusy

/-- **One step.** Whatever a step does that sets no states for a client, initialised classes last,
unless a mark shows that one is given back. -/
theorem lasts_perform (type : ClassId)
    (hengine : ∀ call, (engine.respond call).Only Request.LeavesStates) (fuel : Nat)
    (frames : List (Asked σ)) (step : Step σ) (m : Machine σ)
    (hmay : Asked.MaySet frames ⟨step, m⟩) :
    Lasts type frames (halted (Machine.perform engine fuel step m).1) m
      (Machine.traceOf engine fuel step m) (Machine.perform engine fuel step m).2 := by
  induction fuel generalizing frames step m with
  | zero => exact ⟨rfl, .refl _, along_nil, fun _ hbusy => hbusy⟩
  | succ fuel ih =>
    -- what a procedure asks for that moves no class itself
    have hop : ∀ {frame : Asked σ} (step : Step σ), step.Stays → ∀ m,
        Lasts type (frame :: frames) (halted (Machine.perform engine fuel step m).1) m
          (Machine.traceOf engine fuel step m) (Machine.perform engine fuel step m).2 :=
      fun step hstep m => ih _ step m (.inl hstep)
    -- only an initialisation and a start move classes; every other step hands the bound on to its parts
    match step, hmay with
    | .request (.access access), hmay =>
      rw [Machine.perform_access]
      exact lasts_access hmay
    | .upkeep upkeep, _ =>
      have hrun := Machine.perform_upkeep engine fuel upkeep m
      have htable := (upkeep.keeps m).1
      rw [hrun]
      exact lasts_frame hrun rfl (Mark.lasting_begins nofun) along_nil
        fun _ hbusy => htable ▸ hbusy
    | .request .panic, _ =>
      have hrun : Machine.perform engine (fuel + 1) (.request .panic) m = (.error .panicked, m) := rfl
      rw [hrun]
      exact lasts_frame hrun rfl (Mark.lasting_begins nofun) along_nil fun _ hbusy => hbusy
    | .request (.initClass thread other), _ =>
      match fuel, ih with
      | 0, _ =>
        have hrun : Machine.perform engine 1 (.request (.initClass thread other)) m =
            (.error .exhausted, m) := rfl
        rw [hrun]
        refine lasts_frame hrun rfl (Mark.lasting_begins nofun) ?_ fun _ hbusy => hbusy
        rw [Machine.traceAll_zero]
        exact along_nil
      | fuel + 1, ih => exact lasts_initClass ih (Prod.eta _).symm
    | .request (.invoke thread method arguments), _ =>
      have hasks : Procedure.Asks Step.Stays
          (Procedure.invocation thread method arguments : Procedure σ Throwable _) :=
        Procedure.asks_invocation
          (fun _ hstep => Step.stays_of_steady (Step.steady_of_contained hstep)) (fun _ => trivial)
          (fun _ => trivial) (fun _ => trivial) thread method arguments
      exact lasts_around (.request (.invoke thread method arguments)) m nofun rfl
        (spans_asked (spans_lasts type _) hop hasks m) rfl
    | .request (.boot thread arguments), _ =>
      have hinner := spans_parts (spans_lasts type (⟨.request (.boot thread arguments), m⟩ :: frames))
        (fun step middle hmem => ih _ step middle (Asked.maySet_of_inBoot
          ((Procedure.conducts_booting thread arguments m).asks _ hmem)))
      exact lasts_around (.request (.boot thread arguments)) m nofun rfl hinner rfl
    | .callEngine call, _ =>
      exact lasts_around (.callEngine call) m nofun rfl (spans_asked (spans_lasts type _)
        (fun request hrequest => hop (.request request) (Request.stays_of_leavesStates hrequest))
        (hengine call) m) rfl
    | .request (.supervise entry arguments), _ =>
      have hbody := spans_asked
        (spans_lasts type (⟨.request (.supervise entry arguments), m⟩ :: frames)) hop
        (Procedure.asks_mainThread_stays entry arguments) m.entered
      exact lasts_around (.request (.supervise entry arguments)) m nofun
        (rfl : m.entered.table = m.table) hbody
        (Machine.table_supervise engine fuel entry arguments m)

-- ---------------------------------------------------------------------------
-- Runs
-- ---------------------------------------------------------------------------

/-- In a stretch in which initialised classes last, a class stays initialised or is given back. -/
theorem initialized_or_reclaims {table table' : ClassTable} (hchained : Chained table marks table')
    (hlasting : Along (Mark.Lasting type) frames marks)
    (hfully : table.stateOf type = .fullyInitialized) :
    table'.stateOf type = .fullyInitialized ∨
      ∃ first mark last, marks = first ++ mark :: last ∧
        mark.Reclaims type (openFrames frames first) := by
  -- along the marks, the class stays initialised up to the first mark that reclaims it
  induction marks generalizing table frames with
  | nil =>
    obtain rfl := hchained
    exact .inl hfully
  | cons mark marks ih =>
    obtain ⟨rfl, hrest⟩ := hchained
    obtain ⟨hmark, hmarks⟩ := along_cons.mp hlasting
    rcases hmark hfully with hafter | hreclaims
    · rcases ih hrest hmarks hafter with hstays | ⟨first, other, last, rfl, hreclaims⟩
      · exact .inl hstays
      · exact .inr ⟨mark :: first, other, last, rfl, hreclaims⟩
    · exact .inr ⟨[], mark, marks, rfl, hreclaims⟩

theorem Mark.Reclaims.className (h : mark.Reclaims type frames) :
    mark.machine.className type ∈ CoreName.claimed := by
  cases h with
  | claimed hname => exact hname
  | failed hname _ => exact hname

/-- **Initialised classes.** Take any run in which neither the guest nor the engine sets states,
with any steps in any order and nesting, and a mark of it at which a class is initialised. If the
class is none of the two that starts claim, it is initialised at every later mark. If it is one of
them, it is initialised at a later mark unless it is given back on the way, by a start that claims
it or by a failed attempt on it. -/
theorem initialized_lasts {guest : Guest σ α}
    (hengine : ∀ call, (engine.respond call).Only Request.LeavesStates)
    (hguest : guest.Only Request.LeavesStates) (fuel : Nat) (m : Machine σ)
    {before between after : List (Mark σ)} {mark later : Mark σ}
    (hsplit : Machine.trace engine fuel guest m = before ++ (mark :: between ++ later :: after))
    (hfully : mark.machine.table.stateOf type = .fullyInitialized) :
    (mark.machine.className type ∉ CoreName.claimed →
      later.machine.table.stateOf type = .fullyInitialized) ∧
    (later.machine.table.stateOf type = .fullyInitialized ∨
      ∃ first reclaiming last, mark :: between = first ++ reclaiming :: last ∧
        reclaiming.Reclaims type (openFrames [] (before ++ first))) := by
  have hlasts : Lasts type [] _ m (Machine.trace engine fuel guest m)
      (Machine.run engine fuel guest m).2 :=
    spans_asked (spans_lasts type []) (fun request hrequest m =>
      lasts_perform type hengine fuel [] (.request request) m
        (.inl (Request.stays_of_leavesStates hrequest))) hguest m
  -- the stretch between the two marks is a chain of its own, and the bound of the whole trace holds
  -- along it
  have hchained := Machine.chained_trace engine fuel guest m
  rw [hsplit] at hchained
  obtain ⟨table, -, hchained⟩ := hchained.of_append
  obtain ⟨table', hstretch, hlater, -⟩ := hchained.of_append
  obtain rfl : mark.machine.table = table := hstretch.1
  have hlasting := hlasts.lasting
  rw [hsplit, along_append, along_append] at hlasting
  have hor := initialized_or_reclaims hstretch hlasting.2.1 hfully
  rw [← hlater] at hor
  refine ⟨fun hname => ?_, ?_⟩
  · rcases hor with hstays | ⟨first, reclaiming, last, hfirst, hreclaims⟩
    · exact hstays
    · -- the class has had its name all the time
      obtain ⟨c, hget⟩ := ClassTable.exists_get?_of_stateOf (by rw [hfully]; decide)
      rw [hfirst] at hstretch
      obtain ⟨middle, hbefore, hnext, -⟩ := hstretch.of_append
      have hsame : middle.nameOf type = mark.machine.table.nameOf type := hbefore.keeps.nameOf hget
      have hclaimed := hreclaims.className
      rw [Machine.className, hnext, hsame] at hclaimed
      exact absurd hclaimed hname
  · rcases hor with hstays | ⟨first, reclaiming, last, hfirst, hreclaims⟩
    · exact .inl hstays
    · rw [← openFrames_append] at hreclaims
      exact .inr ⟨first, reclaiming, last, hfirst, hreclaims⟩

-- ---------------------------------------------------------------------------
-- A start that stops half way
-- ---------------------------------------------------------------------------

/-- A class that is initialised once is so for good. -/
def InitializationLasts (marks : List (Mark σ)) : Prop :=
  ∀ type before mark between later after,
    marks = before ++ (mark :: between ++ later :: after) →
    mark.machine.table.stateOf type = .fullyInitialized →
    later.machine.table.stateOf type = .fullyInitialized

/-- A class path without the first class that a start needs after it has claimed another. -/
def interruptedPath : Finder := fun name =>
  if name = CoreName.inputStream then none else libraryFinder name

/-- Initialises the class that a start claims first, and starts. -/
def interruptedGuest : Guest Unit Unit :=
  .ask (.access (.load CoreName.system)) fun _ => .ask (.initClass ⟨0⟩ ⟨0⟩) fun _ =>
    .ask (.boot ⟨0⟩ []) fun _ => .done ()

/-- The trace of a run that initialises the class that a start claims first, and starts. -/
def interruptedTrace : List (Mark Unit) :=
  Machine.trace inertEngine 6 interruptedGuest
    { Machine.new interruptedPath none () with threads := #[⟨"main", 1, none⟩] }

/-- The first mark that passes a test, and a later one that passes another. -/
theorem exists_mark_and_later (marks : List (Mark σ)) (test test' : Mark σ → Bool)
    (h : ((marks.dropWhile fun mark => !test mark).tail.any test') = true) :
    ∃ before mark between later after, marks = before ++ (mark :: between ++ later :: after) ∧
      test mark = true ∧ test' later = true := by
  have hsplit := List.takeWhile_append_dropWhile (p := fun mark => !test mark) (l := marks)
  have hhead := List.head?_dropWhile_not (fun mark => !test mark) marks
  cases hrest : marks.dropWhile fun mark => !test mark with
  | nil =>
    rw [hrest] at h
    exact nomatch h
  | cons mark rest =>
    rw [hrest] at h hsplit hhead
    obtain ⟨later, hmem, hlater⟩ := List.any_eq_true.mp h
    obtain ⟨between, after, rfl⟩ := List.append_of_mem hmem
    exact ⟨_, mark, between, later, after, hsplit.symm, by simpa using hhead, hlater⟩

/-- The class that the start claims is initialised before, like another class, and counts as being
initialised again later. -/
theorem exists_claimed_again :
    ∃ before mark between later after,
      interruptedTrace = before ++ (mark :: between ++ later :: after) ∧
      mark.machine.table.stateOf ⟨0⟩ = .fullyInitialized ∧
      mark.machine.className ⟨2⟩ ∉ CoreName.claimed ∧
      mark.machine.table.stateOf ⟨2⟩ = .fullyInitialized ∧
      later.machine.table.stateOf ⟨0⟩ = .beingInitialized := by
  obtain ⟨before, mark, between, later, after, hsplit, hmark, hlater⟩ :=
    exists_mark_and_later interruptedTrace
      (fun mark => mark.machine.table.stateOf ⟨0⟩ = .fullyInitialized ∧
        mark.machine.className ⟨2⟩ ∉ CoreName.claimed ∧
        mark.machine.table.stateOf ⟨2⟩ = .fullyInitialized)
      (fun mark => mark.machine.table.stateOf ⟨0⟩ = .beingInitialized) (by decide +kernel)
  obtain ⟨hsystem, hname, hother⟩ := of_decide_eq_true hmark
  exact ⟨before, mark, between, later, after, hsplit, hsystem, hname, hother,
    of_decide_eq_true hlater⟩

/-- The class that the start claims is given back, and the other class stays as it is. -/
theorem interruptedTrace_lasts :
    ∃ before mark between later after,
      interruptedTrace = before ++ (mark :: between ++ later :: after) ∧
      mark.machine.table.stateOf ⟨0⟩ = .fullyInitialized ∧
      mark.machine.table.stateOf ⟨2⟩ = .fullyInitialized ∧
      later.machine.table.stateOf ⟨2⟩ = .fullyInitialized ∧
      ∃ first reclaiming last, mark :: between = first ++ reclaiming :: last ∧
        reclaiming.Reclaims ⟨0⟩ (openFrames [] (before ++ first)) := by
  have hengine : ∀ call, (inertEngine.respond call).Only Request.LeavesStates := fun _ => trivial
  have hguest : interruptedGuest.Only Request.LeavesStates :=
    ⟨trivial, fun _ => ⟨trivial, fun _ => ⟨trivial, fun _ => trivial⟩⟩⟩
  obtain ⟨before, mark, between, later, after, hsplit, hsystem, hname, hother, hlater⟩ :=
    exists_claimed_again
  refine ⟨before, mark, between, later, after, hsplit, hsystem, hother,
    (initialized_lasts hengine hguest 6 _ hsplit hother).1 hname, ?_⟩
  -- the later mark shows `System` being initialised again, so it did not stay initialised
  rcases (initialized_lasts hengine hguest 6 _ hsplit hsystem).2 with hstays | hreclaims
  · exact nomatch hlater.symm.trans hstays
  · exact hreclaims

/-- A class that is initialised before a start need not be so afterwards. -/
theorem not_initializationLasts_interrupted : ¬ InitializationLasts interruptedTrace := by
  obtain ⟨before, mark, between, later, after, hsplit, hsystem, -, -, hlater⟩ := exists_claimed_again
  intro hlasts
  exact nomatch hlater.symm.trans (hlasts _ _ _ _ _ _ hsplit hsystem)

end ClassHost
