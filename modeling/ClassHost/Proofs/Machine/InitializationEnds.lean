import Mathlib.Data.Finset.Card
import Mathlib.Data.Set.Finite.Basic
import ClassHost.Proofs.Machine.HandsOffEngine

/-!
# Initialisations come to an end

Initialising a class follows the names of super classes, which come out of class files, and loads
new classes on the way, so neither the names nor the classes need run out by themselves. What does
run out, with a class path that knows finitely many names, is what is left to begin on
(`ClassTable.remaining`): the classes that are loaded and no arrays, and the names that may become
such classes yet. A load turns one of the latter into one of the former at most
(`Machine.remaining_load`), and an attempt takes a class away before it goes on to the super class
(`Machine.remaining_begin`).

The same order, mark first and then go on, keeps an attempt from beginning twice: a class that is
being initialised is not moved there again further in (`beginnings_initClass`).
-/

namespace ClassHost

-- ---------------------------------------------------------------------------
-- What is left to begin on
-- ---------------------------------------------------------------------------

/-- An attempt to initialise the class can begin. -/
def LoadedClass.isPending (c : LoadedClass) : Bool := c.state = .loaded ∧ c.isArray = false

namespace ClassTable

/-- The places of the classes on which an attempt can begin. -/
def pending (table : ClassTable) : Finset Nat :=
  (Finset.range table.classes.size).filter fun place =>
    (table.get? ⟨place⟩).any LoadedClass.isPending

/-- The names, out of some, that have not become classes. -/
def unknown (table : ClassTable) (names : Finset String) : Finset String :=
  names.filter fun name => table.find? name = none

/-- How many attempts can begin at most if only these names can become classes. -/
def remaining (table : ClassTable) (names : Finset String) : Nat :=
  table.pending.card + (table.unknown names).card

variable {table : ClassTable} {names : Finset String} {name : String} {type : ClassId}
  {c : LoadedClass} {place : Nat}

theorem mem_pending :
    place ∈ table.pending ↔ ∃ c, table.get? ⟨place⟩ = some c ∧ c.isPending = true := by
  have hlt : ∀ c, table.get? ⟨place⟩ = some c → place < table.classes.size :=
    fun c hget => index_lt_of_get? hget
  simp only [pending, Finset.mem_filter, Finset.mem_range, Option.any_eq_true]
  constructor
  · rintro ⟨-, hpending⟩
    exact hpending
  · rintro ⟨c, hget, hpending⟩
    exact ⟨hlt c hget, c, hget, hpending⟩

/-- A class that is moved on from loaded is not pending any more. -/
theorem pending_setState {state : ClassState} (hget : table.get? type = some c)
    (hpending : c.isPending = true) (hstate : state ≠ .loaded) :
    (table.setState type state).pending ⊂ table.pending := by
  have hmem : type.index ∈ table.pending := mem_pending.mpr ⟨c, hget, hpending⟩
  have hgone : type.index ∉ (table.setState type state).pending := by
    intro hmem'
    obtain ⟨c', hget', hpending'⟩ := mem_pending.mp hmem'
    obtain rfl := Option.some.inj ((get?_setState_self hget).symm.trans hget')
    simp [LoadedClass.isPending, hstate] at hpending'
  -- all other places are pending as before
  refine (Finset.ssubset_iff_of_subset fun place hplace => ?_).mpr ⟨type.index, hmem, hgone⟩
  obtain ⟨c', hget', hpending'⟩ := mem_pending.mp hplace
  have hne : type ≠ ⟨place⟩ := by
    rintro rfl
    exact hgone hplace
  rw [get?_setState_of_ne hne] at hget'
  exact mem_pending.mpr ⟨c', hget', hpending'⟩

/-- A class that is added may be pending, and no other is then that was not before. -/
theorem pending_push (table : ClassTable) (new : LoadedClass) :
    (table.push new).pending ⊆
      if new.isPending then insert table.classes.size table.pending else table.pending := by
  intro place hplace
  obtain ⟨c, hget, hpending⟩ := mem_pending.mp hplace
  rw [get?_push] at hget
  split at hget
  · rename_i hindex
    obtain rfl := Option.some.inj hget
    rw [if_pos hpending]
    exact Finset.mem_insert.mpr (.inl hindex)
  · have hmem : place ∈ table.pending := mem_pending.mpr ⟨c, hget, hpending⟩
    split
    · exact Finset.mem_insert_of_mem hmem
    · exact hmem

@[simp] theorem unknown_setState (table : ClassTable) (names : Finset String) (type : ClassId)
    (state : ClassState) : (table.setState type state).unknown names = table.unknown names := by
  simp [unknown]

theorem unknown_push (table : ClassTable) (names : Finset String) (new : LoadedClass) :
    (table.push new).unknown names ⊆ table.unknown names := by
  intro name hname
  simp only [unknown, Finset.mem_filter] at hname ⊢
  refine ⟨hname.1, ?_⟩
  cases hfind : table.find? name with
  | none => rfl
  | some id =>
    rw [find?_push_of_some hfind] at hname
    exact nomatch hname.2

/-- An array class adds nothing to what is left. -/
theorem remaining_push_of_isArray {new : LoadedClass} (h : new.isArray = true) :
    (table.push new).remaining names ≤ table.remaining names := by
  have hpending : new.isPending = false := by simp [LoadedClass.isPending, h]
  have hplaces := pending_push table new
  rw [hpending, if_neg Bool.false_ne_true] at hplaces
  exact Nat.add_le_add (Finset.card_le_card hplaces)
    (Finset.card_le_card (unknown_push table names new))

/-- A class whose name was left is left in its place. -/
theorem remaining_push_of_mem {new : LoadedClass} (hmem : new.name ∈ names)
    (hfree : table.find? new.name = none) :
    (table.push new).remaining names ≤ table.remaining names := by
  have hplaces : (table.push new).pending.card ≤ table.pending.card + 1 := by
    refine Nat.le_trans (Finset.card_le_card (pending_push table new)) ?_
    split
    · exact Finset.card_insert_le _ _
    · exact Nat.le_succ _
  have hnames : (table.push new).unknown names ⊂ table.unknown names := by
    refine (Finset.ssubset_iff_of_subset (unknown_push table names new)).mpr ⟨new.name, ?_, ?_⟩
    · exact Finset.mem_filter.mpr ⟨hmem, hfree⟩
    · simp [unknown, find?_push_of_none hfree]
  have hcard := Finset.card_lt_card hnames
  unfold remaining
  omega

end ClassTable

/-- **A load leaves no more to begin on.** -/
theorem Loader.Makes.remaining_le {finder : Finder} {name : String} {loader loader' : Loader}
    {id : ClassId} {names : Finset String} (hnames : ∀ name, finder name ≠ none → name ∈ names)
    (h : Makes finder name loader id loader') :
    loader'.table.remaining names ≤ loader.table.remaining names := by
  induction h with
  | present _ => exact Nat.le_refl _
  | @located name loader file source _ hfree hread =>
    obtain ⟨found, hfound, -⟩ := Finder.located_of_read hread
    exact ClassTable.remaining_push_of_mem (hnames name (by simp [hfound])) hfree
  | objectArray _ _ _ ih => exact Nat.le_trans (ClassTable.remaining_push_of_isArray rfl) ih
  | objectArrays _ _ _ _ ih => exact Nat.le_trans (ClassTable.remaining_push_of_isArray rfl) ih
  | primitiveArray _ _ => exact ClassTable.remaining_push_of_isArray rfl
  | primitiveArrays _ _ _ _ ih => exact Nat.le_trans (ClassTable.remaining_push_of_isArray rfl) ih

namespace Machine

variable {σ : Type} {engine : Engine σ} {fuel : Nat} {m m' : Machine σ} {names : Finset String}
  {thread : ThreadId} {type id : ClassId} {step : Step σ} {mark : Mark σ}

theorem remaining_load (hnames : ∀ name, m.classPath name ≠ none → name ∈ names) (name : String) :
    (load name m).2.table.remaining names ≤ m.table.remaining names := by
  rcases hrun : Loader.load m.classPath name m.loader with ⟨r, loader⟩
  have htable : (load name m).2.table = loader.table :=
    congrArg (fun last => Loader.table last.2) hrun
  rw [htable]
  cases Loader.loads_load hrun with
  | made h => exact h.remaining_le hnames
  | missed _ _ => exact Nat.le_refl _
  | malformed _ => exact Nat.le_refl _

/-- **An attempt leaves less to begin on.** -/
theorem remaining_begin (hloaded : m.table.stateOf type = .loaded)
    (hinstance : ((m.table.get? type).map LoadedClass.isArray).getD false = false)
    (names : Finset String) : (m.begin type).table.remaining names < m.table.remaining names := by
  obtain ⟨c, hget⟩ := ClassTable.exists_get?_of_stateOf (by rw [hloaded]; decide)
  have hpending : c.isPending = true := by
    rw [ClassTable.stateOf_of_get? hget] at hloaded
    rw [hget] at hinstance
    simpa [LoadedClass.isPending, hloaded] using hinstance
  have hplaces : (m.table.setState type .beingInitialized).pending ⊂ m.table.pending :=
    ClassTable.pending_setState hget hpending nofun
  have hcard := Finset.card_lt_card hplaces
  show (m.table.setState type .beingInitialized).remaining names < m.table.remaining names
  unfold ClassTable.remaining
  rw [ClassTable.unknown_setState]
  omega

/-- A class that no attempt can begin on is dealt with at once. -/
theorem exists_perform_of_ne (engine : Engine σ) (fuel : Nat) (thread : ThreadId)
    (hstate : m.table.stateOf type ≠ .loaded) :
    ∃ r m', perform engine (fuel + 2) (.request (.initClass thread type)) m = (.ok r, m') := by
  rcases hrun : (Procedure.initialization thread type).exec engine (fuel + 1) m with ⟨r, m'⟩
  rw [perform_initClass, hrun]
  cases Procedure.initializes_of_exec hrun with
  | skipped _ => exact ⟨_, _, rfl⟩
  | missing _ _ => exact ⟨_, _, rfl⟩
  | array hloaded => exact absurd hloaded hstate
  | succeeded hloaded _ => exact absurd hloaded hstate
  | failed hloaded _ => exact absurd hloaded hstate
  | halted hloaded _ => exact absurd hloaded hstate

/-- **Initialisations return.** The induction is on how many attempts can begin; one level takes one
of them and one unit of fuel. -/
theorem exists_perform_initClass (hengine : engine.HandsOff) (thread : ThreadId) {left : Nat}
    (hnames : ∀ name, m.classPath name ≠ none → name ∈ names)
    (hleft : m.table.remaining names ≤ left) (hfuel : left + 4 ≤ fuel) :
    ∃ r m', perform engine fuel (.request (.initClass thread type)) m = (.ok r, m') := by
  induction left using Nat.strongRecOn generalizing m type fuel with
  | ind left ih =>
    -- by strong induction on what is left: four levels of fuel for one attempt, the rest for the
    -- super classes
    obtain ⟨fuel, rfl⟩ : ∃ rest, fuel = rest + 4 := ⟨fuel - 4, by omega⟩
    by_cases hloaded : m.table.stateOf type = .loaded
    swap
    · exact exists_perform_of_ne engine (fuel + 2) thread hloaded
    cases hinstance : ((m.table.get? type).map LoadedClass.isArray).getD false with
    | true => exact ⟨_, _, Procedure.exec_initialization_of_array hloaded hinstance⟩
    | false =>
      -- beginning takes the class off what is left, and loading its super class adds nothing to it
      obtain ⟨r, middle, hsuper⟩ : ∃ r middle,
          (Procedure.initializeSuper thread type).exec engine (fuel + 3) (m.begin type) =
            (.ok r, middle) := by
        cases hname : ((m.begin type).table.get? type).bind LoadedClass.superName? with
        | none => exact ⟨_, _, Procedure.exec_initializeSuper_of_root hname⟩
        | some superName =>
          rw [Procedure.exec_initializeSuper hname]
          have hbegin := remaining_begin hloaded hinstance names
          have hload := remaining_load (m := m.begin type) hnames superName
          rcases hrun : load superName (m.begin type) with ⟨error | _ | superType, last⟩
          · exact ⟨_, _, rfl⟩
          · exact ⟨_, _, rfl⟩
          · obtain rfl : (load superName (m.begin type)).2 = last := congrArg Prod.snd hrun
            exact ih ((load superName (m.begin type)).2.table.remaining names) (by omega) hnames
              (Nat.le_refl _) (by omega)
      -- the super class may have failed, and then so does the class
      cases r with
      | error error => exact ⟨_, _, (perform_initClass_of_error hloaded hinstance hsuper).1⟩
      | ok _ =>
        obtain ⟨told, r, last, -, hrun, -⟩ :=
          perform_initClass_of_ok hloaded hinstance hengine hsuper
        exact ⟨r, _, hrun⟩

end Machine

-- ---------------------------------------------------------------------------
-- Beginnings
-- ---------------------------------------------------------------------------

variable {σ : Type} {engine : Engine σ} {fuel : Nat} {m m' : Machine σ} {thread : ThreadId}
  {type id : ClassId} {step : Step σ} {mark : Mark σ}

/-- The step that begins at the mark moves a class to being initialised. -/
def Mark.BeginsOn (id : ClassId) (mark : Mark σ) : Prop :=
  mark.machine.table.stateOf id ≠ .beingInitialized ∧
    mark.tableAfter.stateOf id = .beingInitialized

instance (id : ClassId) (mark : Mark σ) : Decidable (mark.BeginsOn id) :=
  inferInstanceAs (Decidable (_ ∧ _))

/-- How often a class is moved to being initialised. -/
def beginnings (id : ClassId) (marks : List (Mark σ)) : Nat := marks.countP fun mark => mark.BeginsOn id

@[simp] theorem beginnings_nil (id : ClassId) : beginnings id ([] : List (Mark σ)) = 0 := rfl

@[simp] theorem beginnings_append (id : ClassId) (marks marks' : List (Mark σ)) :
    beginnings id (marks ++ marks') = beginnings id marks + beginnings id marks' :=
  List.countP_append

theorem beginnings_eq_zero {marks : List (Mark σ)} (h : ∀ mark ∈ marks, ¬ mark.BeginsOn id) :
    beginnings id marks = 0 := by
  simpa [beginnings, List.countP_eq_zero] using h

/-- A mark behind which the classes are as they were. -/
theorem Mark.not_beginsOn_of_eq (h : mark.tableAfter = mark.machine.table) : ¬ mark.BeginsOn id := by
  rintro ⟨hbefore, hafter⟩
  exact hbefore (h ▸ hafter)

/-- Where no class is moved, none is begun on. -/
theorem Mark.not_beginsOn_of_unmoved (h : mark.machine.table.Unmoved mark.tableAfter) :
    ¬ mark.BeginsOn id := by
  rintro ⟨hbefore, hafter⟩
  rcases h.stateOf id with hsame | ⟨-, hnew⟩
  · exact hbefore (hsame ▸ hafter)
  · rw [hnew] at hafter
    exact nomatch hafter

/-- The steps that leave all classes alone with an engine that does. -/
def Step.Quiet : Step σ → Prop
  | .request (.access .observe) | .request (.access (.remember _)) => True
  | .request (.invoke _ method _) => method.key.Plain
  | .callEngine _ | .upkeep _ => True
  | _ => False

theorem Request.Private.quiet {request : Request σ} (h : request.Private) :
    Step.Quiet (.request request) := by
  match request, h with
  | .access .observe, _ | .access (.remember _), _ => trivial

namespace Procedure

theorem asks_invocation_of_plain {method : MethodRef} (hplain : method.key.Plain)
    (thread : ThreadId) (arguments : List Value) :
    Asks Step.Quiet (invocation thread method arguments : Procedure σ Throwable (Option Value)) := by
  refine asks_bind (asks_observe trivial) fun m => ?_
  rw [Overrides.find?_of_plain hplain]
  refine asks_bind (asks_upkeep trivial) fun _ =>
    asks_bind (asks_outcome ⟨trivial, fun _ => trivial⟩) fun result => ?_
  cases result with
  | ok value => exact asks_bind (asks_upkeep trivial) fun _ => asks_pure value
  | error error => exact asks_bind (asks_upkeep trivial) fun _ => asks_throw error

theorem asks_invokeInitializer_quiet (thread : ThreadId) (type : ClassId) :
    Asks Step.Quiet (invokeInitializer thread type : Procedure σ Throwable Unit) := by
  refine asks_bind (asks_observe trivial) fun m => ?_
  cases hmethod : m.table.method? .static type initializerKey with
  | none => exact asks_pure ()
  | some method =>
    have hplain : method.key.Plain :=
      (ClassTable.eq_of_method? hmethod).2 ▸ MethodKey.Plain.of_name (by decide)
    exact asks_bind ⟨hplain, fun _ => trivial⟩ fun _ => asks_pure ()

end Procedure

namespace Machine

/-- What a quiet step asks for is quiet. -/
theorem quiet_of_mem_asked (hengine : engine.HandsOff) (h : step.Quiet) {part : Asked σ}
    (hpart : part ∈ asked engine fuel step m) : part.step.Quiet := by
  match step, h with
  | .request (.access _), _ | .upkeep _, _ => exact nomatch hpart
  | .callEngine call, _ =>
    obtain ⟨request, hprivate, hstep⟩ := (hengine call).of_mem_asked hpart
    exact hstep ▸ hprivate.quiet
  | .request (.invoke thread method arguments), hplain =>
    obtain ⟨inner, hquiet, hstep⟩ :=
      (Procedure.asks_invocation_of_plain hplain thread arguments).of_mem_asked hpart
    exact hstep ▸ hquiet

/-- A quiet step changes no classes, nor does anything inside it. -/
theorem tableAfter_of_quiet (hengine : engine.HandsOff) (h : step.Quiet)
    (hmark : mark ∈ traceOf engine fuel step m) : mark.tableAfter = mark.machine.table := by
  induction fuel generalizing step m with
  | zero => exact nomatch hmark
  | succ fuel ih =>
    rw [traceOf_succ] at hmark
    rcases List.mem_cons.mp hmark with rfl | hmark
    · match step, h with
      | .request (.access .observe), _ | .request (.access (.remember _)), _ => rfl
      | .request (.invoke _ _ _), _ | .callEngine _, _ | .upkeep _, _ => rfl
    · rcases List.mem_append.mp hmark with hmark | hmark
      · obtain ⟨part, hpart, hinner⟩ := List.mem_flatMap.mp hmark
        exact ih (quiet_of_mem_asked hengine h hpart) hinner
      · obtain rfl := List.mem_singleton.mp hmark
        rfl

-- ---------------------------------------------------------------------------
-- Counting
-- ---------------------------------------------------------------------------

/-- A step that runs no code begins on a class at its beginning or not at all. -/
theorem beginnings_traceOf_instant (engine : Engine σ) (fuel : Nat) (id : ClassId)
    (hstep : step.Instant) (m : Machine σ) :
    beginnings id (traceOf engine fuel step m) ≤ if (Mark.begins step m).BeginsOn id then 1 else 0 := by
  cases fuel with
  | zero => exact Nat.zero_le _
  | succ fuel =>
    have hends : ∀ result last, ¬ (Mark.ends step result last).BeginsOn id :=
      fun _ _ => Mark.not_beginsOn_of_eq rfl
    rw [traceOf_succ, asked_instant hstep]
    simp [beginnings, List.countP_cons, hends]

theorem beginnings_of_not_beginsOn (hstep : step.Instant) (h : ¬ (Mark.begins step m).BeginsOn id) :
    beginnings id (traceOf engine fuel step m) = 0 := by
  have hle := beginnings_traceOf_instant engine fuel id hstep m
  rwa [if_neg h, Nat.le_zero] at hle

@[simp] theorem beginnings_observe (m : Machine σ) :
    beginnings id (traceOf engine fuel (.request (.access .observe)) m) = 0 :=
  beginnings_of_not_beginsOn trivial (Mark.not_beginsOn_of_eq rfl)

@[simp] theorem beginnings_upkeep (upkeep : Upkeep) (m : Machine σ) :
    beginnings id (traceOf engine fuel (.upkeep upkeep) m) = 0 :=
  beginnings_of_not_beginsOn trivial (Mark.not_beginsOn_of_eq rfl)

@[simp] theorem beginnings_load (name : String) (m : Machine σ) :
    beginnings id (traceOf engine fuel (.request (.access (.load name))) m) = 0 :=
  beginnings_of_not_beginsOn trivial (Mark.not_beginsOn_of_unmoved (unmoved_load name m))

/-- A store of another state begins on no class. -/
theorem beginnings_setState {state : ClassState} (hstate : state ≠ .beingInitialized) (type : ClassId)
    (m : Machine σ) :
    beginnings id (traceOf engine fuel (.request (.access (.setState type state))) m) = 0 := by
  refine beginnings_of_not_beginsOn trivial ?_
  rintro ⟨hbefore, hafter⟩
  have hstored : (m.table.setState type state).stateOf id = .beingInitialized := hafter
  obtain ⟨c, hget⟩ := ClassTable.exists_get?_of_stateOf (by rw [hstored]; decide)
  by_cases hid : type = id
  · subst hid
    rw [ClassTable.setState, ClassTable.get?_modify, if_pos rfl] at hget
    obtain ⟨old, hold, -⟩ := Option.map_eq_some_iff.mp hget
    rw [ClassTable.stateOf_setState_self hold] at hstored
    exact hstate hstored
  · rw [ClassTable.stateOf_setState_of_ne hid] at hstored
    exact hbefore hstored

/-- Opening an attempt begins on its class, once, and on no other. -/
theorem beginnings_openingSteps (engine : Engine σ) (fuel : Nat)
    (hloaded : m.table.stateOf type = .loaded) (id : ClassId) :
    beginnings id (traceAll engine (fuel + 1) (Procedure.openingSteps type m)) ≤
      if id = type then 1 else 0 := by
  have hmove : beginnings id (traceOf engine (fuel + 1)
      (.request (.access (.transition type .loaded .beingInitialized))) m) ≤
        if id = type then 1 else 0 := by
    have hinstant : Step.Instant (σ := σ)
        (.request (.access (.transition type .loaded .beingInitialized))) := trivial
    -- the observation before it moves nothing, so what counts is the move itself
    refine Nat.le_trans (beginnings_traceOf_instant engine (fuel + 1) id hinstant m) ?_
    by_cases hid : id = type
    · rw [if_pos hid]
      split <;> simp
    · -- the move is about another class
      rw [if_neg hid, if_neg]
      rintro ⟨hbefore, hafter⟩
      rw [Mark.tableAfter, apply_transition hloaded] at hafter
      exact hbefore ((ClassTable.stateOf_setState_of_ne (Ne.symm hid)).symm.trans hafter)
  simpa [Procedure.openingSteps] using hmove

theorem beginnings_closing (type : ClassId) (result : Except Halt (Except Throwable Unit) × Machine σ) :
    beginnings id (traceAll engine fuel (Procedure.closing type result)) = 0 := by
  rcases result with ⟨_ | _ | _, middle⟩
  · rfl
  · simp [Procedure.closing, beginnings_setState]
  · simp [Procedure.closing, beginnings_setState]

/-- The initialiser of a class begins on none. -/
theorem beginnings_invokeInitializer (hengine : engine.HandsOff) (thread : ThreadId) (type : ClassId)
    (m : Machine σ) :
    beginnings id (traceAll engine fuel ((Procedure.invokeInitializer thread type).asked engine fuel m)) =
      0 := by
  refine beginnings_eq_zero fun mark hmark => ?_
  obtain ⟨part, hpart, hinner⟩ := List.mem_flatMap.mp hmark
  obtain ⟨step, hquiet, hstep⟩ :=
    (Procedure.asks_invokeInitializer_quiet thread type).of_mem_asked hpart
  obtain rfl : part.step = step := hstep
  exact Mark.not_beginsOn_of_eq (tableAfter_of_quiet hengine hquiet hinner)

/-- What is begun on for the initialisers of a class is begun on for its super class. -/
theorem beginnings_runInitializers (hengine : engine.HandsOff) (m : Machine σ) :
    beginnings id (traceAll engine fuel ((Procedure.runInitializers thread type).asked engine fuel m)) =
      beginnings id (traceAll engine fuel
        ((Procedure.initializeSuper thread type).asked engine fuel m)) := by
  rw [Procedure.runInitializers, Procedure.asked_bind, traceAll_append, beginnings_append]
  rcases (Procedure.initializeSuper thread type).exec engine fuel m with ⟨halt | error | _, middle⟩
  · rfl
  · rfl
  · rw [beginnings_invokeInitializer hengine, Nat.add_zero]

/-- A class that is being initialised still is after a load. -/
theorem busy_load (hbusy : m.table.stateOf id = .beingInitialized) (name : String) :
    (load name m).2.table.stateOf id = .beingInitialized := by
  rcases (unmoved_load name m).stateOf id with hsame | ⟨hnone, -⟩
  · exact hsame.trans hbusy
  · simp [ClassTable.stateOf, hnone] at hbusy

/-- Before a class runs its own initialiser, the classes further in are begun on. -/
theorem beginnings_initializeSuper
    (ih : ∀ (type : ClassId) (m : Machine σ),
      beginnings id (traceOf engine (fuel + 1) (.request (.initClass thread type)) m) ≤ 1 ∧
      (m.table.stateOf id = .beingInitialized →
        beginnings id (traceOf engine (fuel + 1) (.request (.initClass thread type)) m) = 0))
    (type : ClassId) (m : Machine σ) :
    beginnings id (traceAll engine (fuel + 1)
      ((Procedure.initializeSuper thread type).asked engine (fuel + 1) m)) ≤ 1 ∧
    (m.table.stateOf id = .beingInitialized →
      beginnings id (traceAll engine (fuel + 1)
        ((Procedure.initializeSuper thread type).asked engine (fuel + 1) m)) = 0) := by
  cases hname : (m.table.get? type).bind LoadedClass.superName? with
  | none =>
    rw [Procedure.asked_initializeSuper_of_root hname]
    simp
  | some superName =>
    rw [Procedure.asked_initializeSuper hname]
    rcases hrun : load superName m with ⟨error | _ | superType, last⟩
    · simp
    · simp
    · obtain rfl : (load superName m).2 = last := congrArg Prod.snd hrun
      -- loading the super class begins nothing, and leaves a class busy that is
      obtain ⟨honce, hnever⟩ := ih superType (load superName m).2
      simp only [traceAll_append, traceAll_cons, traceAll_nil, List.append_nil, beginnings_append,
        beginnings_observe, beginnings_load, Nat.zero_add]
      exact ⟨honce, fun hbusy => hnever (busy_load hbusy superName)⟩

theorem beginnings_initClass_succ (m : Machine σ) :
    beginnings id (traceOf engine (fuel + 1) (.request (.initClass thread type)) m) =
      beginnings id (traceAll engine fuel
        ((Procedure.initialization thread type).asked engine fuel m)) := by
  have hbegins : ¬ (Mark.begins (.request (.initClass thread type)) m).BeginsOn id :=
    Mark.not_beginsOn_of_eq rfl
  have hends : ∀ result last,
      ¬ (Mark.ends (.request (.initClass thread type)) result last : Mark σ).BeginsOn id :=
    fun _ _ => Mark.not_beginsOn_of_eq rfl
  rw [traceOf_succ, asked_initClass]
  simp [beginnings, hbegins, hends]

/-- **Begun on once.** In one call to initialise a class, each class is moved to being initialised
at most once, and not at all if it was being initialised already. -/
theorem beginnings_initClass (hengine : engine.HandsOff) (fuel : Nat) (thread : ThreadId)
    (type id : ClassId) (m : Machine σ) :
    beginnings id (traceOf engine fuel (.request (.initClass thread type)) m) ≤ 1 ∧
    (m.table.stateOf id = .beingInitialized →
      beginnings id (traceOf engine fuel (.request (.initClass thread type)) m) = 0) := by
  induction fuel generalizing type m with
  | zero => exact ⟨Nat.zero_le 1, fun _ => rfl⟩
  | succ fuel ih =>
    cases fuel with
    | zero => simp [beginnings_initClass_succ]
    | succ fuel =>
      rw [beginnings_initClass_succ]
      by_cases hloaded : m.table.stateOf type = .loaded
      -- only a class that is loaded and no array is moved at all
      swap
      · rw [Procedure.asked_initialization_of_ne hloaded]
        simp
      cases hinstance : ((m.table.get? type).map LoadedClass.isArray).getD false with
      | true =>
        rw [Procedure.asked_initialization_of_array hloaded hinstance]
        simp [beginnings_setState]
      | false =>
        obtain ⟨hsuper, hbusy⟩ := beginnings_initializeSuper ih type (m.begin type)
        have hopen := beginnings_openingSteps engine fuel hloaded id
        rw [Procedure.asked_initialization_of_loaded hloaded hinstance, traceAll_append,
          traceAll_append, beginnings_append, beginnings_append, beginnings_runInitializers hengine,
          beginnings_closing]
        by_cases hid : id = type
        · -- the class itself: it begins here and is busy during the rest, which begins it no more
          subst hid
          obtain ⟨c, hget⟩ := ClassTable.exists_get?_of_stateOf (by rw [hloaded]; decide)
          have hmarked : (m.begin id).table.stateOf id = .beingInitialized :=
            ClassTable.stateOf_setState_self hget
          rw [if_pos rfl] at hopen
          rw [hbusy hmarked]
          exact ⟨hopen, fun h => absurd (hloaded.symm.trans h) nofun⟩
        · -- another class: it can only begin with the super classes
          rw [if_neg hid, Nat.le_zero] at hopen
          rw [hopen, Nat.zero_add, Nat.add_zero]
          refine ⟨hsuper, fun h => hbusy ?_⟩
          exact (ClassTable.stateOf_setState_of_ne (Ne.symm hid)).trans h

end Machine

/-- **Initialisations end.** With an engine that does not touch the machine, and a class path that
knows finitely many names, whatever their classes name as super classes, let any class be
initialised, with any classes in any states there. The call returns, given enough fuel for its
nesting; and however far it gets, each class is moved to being initialised at most once. -/
theorem initialization_ends (hengine : engine.HandsOff)
    (hfinite : {name | m.classPath name ≠ none}.Finite) (thread : ThreadId) (type : ClassId) :
    (∃ bound, ∀ fuel, bound ≤ fuel → ∃ r m',
      Machine.perform engine fuel (.request (.initClass thread type)) m = (.ok r, m')) ∧
    ∀ fuel id,
      beginnings id (Machine.traceOf engine fuel (.request (.initClass thread type)) m) ≤ 1 := by
  have hnames : ∀ name, m.classPath name ≠ none → name ∈ hfinite.toFinset :=
    fun name hname => hfinite.mem_toFinset.mpr hname
  refine ⟨⟨m.table.remaining hfinite.toFinset + 4, fun fuel hfuel => ?_⟩, fun fuel id => ?_⟩
  · exact Machine.exists_perform_initClass hengine thread hnames (Nat.le_refl _) hfuel
  · exact (Machine.beginnings_initClass hengine fuel thread type id m).1

/-- The other class is loaded on the way, its super class is the one that is being initialised
already, and both are moved just once. -/
theorem circleMachine_initialization_ends :
    {name | circleMachine.classPath name ≠ none}.Finite ∧
    (∃ bound, ∀ fuel, bound ≤ fuel → ∃ r m',
      Machine.perform answeringEngine fuel (.request (.initClass ⟨0⟩ ⟨0⟩)) circleMachine =
        (.ok r, m')) ∧
    ∀ id ∈ [(⟨0⟩ : ClassId), ⟨1⟩], beginnings id
      (Machine.traceOf answeringEngine 9 (.request (.initClass ⟨0⟩ ⟨0⟩)) circleMachine) = 1 := by
  have hfinite : {name | circleMachine.classPath name ≠ none}.Finite := by
    refine (Set.toFinite {"A", "B"}).subset fun name hname => ?_
    by_contra hother
    rw [Set.mem_insert_iff, Set.mem_singleton_iff, not_or] at hother
    have hnone : circlePath name = none := by
      rw [circlePath, if_neg hother.1, if_neg hother.2]
    exact hname hnone
  obtain ⟨hreturns, honce⟩ := initialization_ends handsOff_answeringEngine hfinite ⟨0⟩ ⟨0⟩
  -- that each of them begins at all is read off the run
  have hbegun : ∀ id ∈ [(⟨0⟩ : ClassId), ⟨1⟩], 0 < beginnings id
      (Machine.traceOf answeringEngine 9 (.request (.initClass ⟨0⟩ ⟨0⟩)) circleMachine) := by
    decide +kernel
  exact ⟨hfinite, hreturns, fun id hid => Nat.le_antisymm (honce 9 id) (hbegun id hid)⟩

end ClassHost
