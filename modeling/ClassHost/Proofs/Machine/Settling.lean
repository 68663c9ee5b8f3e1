import ClassHost.Proofs.Machine.Evolution

/-!
# Initialisations that settle

Initialising a class marks it while the initialisers run. These may initialise other classes, which
are marked in their turn, and any of them may fail; a super class may lead back to a class that is
marked already. However deep that goes, whoever marks a class takes the mark away again.

`Settles` relates the states of the classes before a run to those after it: the same classes are
marked, and no initialised class has been given back. An attempt settles if the run between its two
ends does (`Settles.attempt`), so all steps settle that set no states on their own account and
return (`settles_perform`). A start is none of these, since it marks classes of its own.

The main result is `initialization_settles`. It holds from any machine on and with any fuel, hence
of a request at any depth of other runs.
-/

namespace ClassHost

-- ---------------------------------------------------------------------------
-- States before and after
-- ---------------------------------------------------------------------------

/-- The same classes are being initialised, and the classes that were initialised still are. -/
structure Settles (table table' : ClassTable) : Prop where
  busy : ∀ id, table'.stateOf id = .beingInitialized ↔ table.stateOf id = .beingInitialized
  initialized : ∀ id, table.stateOf id = .fullyInitialized → table'.stateOf id = .fullyInitialized

namespace Settles

variable {table table' table'' : ClassTable} {id : ClassId} {state : ClassState}

theorem refl (table : ClassTable) : Settles table table := ⟨fun _ => Iff.rfl, fun _ h => h⟩

theorem trans (h : Settles table table') (h' : Settles table' table'') : Settles table table'' where
  busy id := (h'.busy id).trans (h.busy id)
  initialized id hfully := h'.initialized id (h.initialized id hfully)

/-- What touches no state settles. -/
theorem of_frame {touched : List Aspect} (h : TableFrame touched table table')
    (hstate : ∀ name, .state name ∉ touched) : Settles table table' where
  busy id := by
    cases hget : table.get? id with
    | some c =>
      obtain ⟨c', hget', hframe⟩ := h.get? hget
      rw [ClassTable.stateOf_of_get? hget, ClassTable.stateOf_of_get? hget']
      exact hframe.busy (hstate _)
    | none =>
      -- the place is free, or a new class has been put there
      have hbefore : table.stateOf id = .notLoaded := by simp [ClassTable.stateOf, hget]
      refine ⟨fun hbusy => ?_, fun hbusy => by simp [hbefore] at hbusy⟩
      obtain ⟨c', hget'⟩ := ClassTable.exists_get?_of_stateOf (by rw [hbusy]; decide)
      rw [ClassTable.stateOf_of_get? hget'] at hbusy
      exact absurd hbusy (h.fresh_state hget' hget (hstate _))
  initialized id hfully := by
    obtain ⟨c, hget⟩ := ClassTable.exists_get?_of_stateOf (by rw [hfully]; decide)
    obtain ⟨c', hget', hframe⟩ := h.get? hget
    rw [ClassTable.stateOf_of_get? hget] at hfully
    rw [ClassTable.stateOf_of_get? hget']
    exact hframe.initialized (hstate _) hfully

/-- A class that is marked when an attempt begins is still there, and marked, when it ends. -/
theorem exists_get?_of_attempt (hloaded : table.stateOf id = .loaded)
    (h : Settles (table.setState id .beingInitialized) table') : ∃ c, table'.get? id = some c := by
  obtain ⟨c, hget⟩ := ClassTable.exists_get?_of_stateOf (by rw [hloaded]; decide)
  have hbusy := (h.busy id).mpr (ClassTable.stateOf_setState_self hget)
  exact ClassTable.exists_get?_of_stateOf (by rw [hbusy]; decide)

/-- An attempt that is over, whatever it left the class as. The class was not marked before, so
taking the mark away restores what there was. -/
theorem attempt (hloaded : table.stateOf id = .loaded)
    (h : Settles (table.setState id .beingInitialized) table')
    (hstate : state ≠ .beingInitialized) :
    Settles table (table'.setState id state) where
  busy other := by
    by_cases hid : id = other
    · -- the own class was loaded before, and is not busy after the last store
      subst hid
      obtain ⟨c', hget'⟩ := exists_get?_of_attempt hloaded h
      rw [ClassTable.stateOf_setState_self hget', hloaded]
      simp [hstate]
    · rw [ClassTable.stateOf_setState_of_ne hid, h.busy, ClassTable.stateOf_setState_of_ne hid]
  initialized other hfully := by
    have hid : id ≠ other := by
      rintro rfl
      simp [hloaded] at hfully
    rw [ClassTable.stateOf_setState_of_ne hid]
    exact h.initialized other ((ClassTable.stateOf_setState_of_ne hid).trans hfully)

end Settles

-- ---------------------------------------------------------------------------
-- Steps that settle
-- ---------------------------------------------------------------------------

variable {σ α : Type} {m m' : Machine σ} {thread : ThreadId} {type : ClassId}

/-- A request that sets no states except by initialising classes: none is set directly, and no start
and no whole program is asked for. -/
def Request.Steady : Request σ → Prop
  | .access (.setState _ _) | .access (.transition _ _ _) | .boot _ _ | .supervise _ _ => False
  | _ => True

/-- A step that is no request, or a steady one. -/
def Step.Steady : Step σ → Prop
  | .request op => op.Steady
  | _ => True

theorem Step.steady_of_contained {step : Step σ} (h : step.Contained) : step.Steady := by
  cases step with
  | request op =>
    cases op with
    | access access => cases access <;> first | exact trivial | exact h.elim
    | boot thread arguments => exact h.elim
    | supervise entry arguments => exact h.elim
    | _ => exact trivial
  | _ => exact trivial

theorem Procedure.steady_runInitializers (thread : ThreadId) (type : ClassId) :
    Asks Step.Steady (runInitializers thread type : Procedure σ Throwable Unit) :=
  (asks_runInitializers thread type).mono fun _ => Step.steady_of_contained

namespace Machine

/-- A run that returned has settled. One that was stopped may have left marks behind. -/
abbrev LeadsSettled (x : Running σ α) : Prop :=
  Leads (fun m m' => Settles m.table m'.table) (fun _ _ => True) x

theorem follows_settles :
    Follows (σ := σ) (fun m m' => Settles m.table m'.table) fun _ _ => True where
  refl m := .refl m.table
  trans := .trans
  halt _ _ := trivial

theorem settles_access (access : Access σ) (h : (Request.access access).Steady) (m : Machine σ) :
    Settles m.table (access.apply m).2.table := by
  refine .of_frame (access.touches m).table fun name => ?_
  cases access with
  | setState type state => exact h.elim
  | transition type source target => exact h.elim
  | _ => simp [Access.touched]

theorem settles_upkeep (upkeep : Upkeep) (m : Machine σ) :
    Settles m.table (upkeep.apply m).2.table := by
  rw [(upkeep.keeps m).1]
  exact .refl _

/-- What has become of a request to initialise a class that returned, by the state that the class
was in. -/
structure Initialization (type : ClassId) (m : Machine σ) (r : Except Throwable Unit)
    (m' : Machine σ) : Prop where
  settles : Settles m.table m'.table
  succeeded : m.table.stateOf type = .loaded → r = .ok () →
    m'.table.stateOf type = .fullyInitialized
  failed : m.table.stateOf type = .loaded → ∀ e, r = .error e → m'.table.stateOf type = .loaded
  skipped : m.table.stateOf type = .fullyInitialized ∨ m.table.stateOf type = .beingInitialized →
    r = .ok () ∧ m' = m

/-- Initialising a class settles if its initialisers do, one case for each way in which it can
go. -/
theorem initialization_of_exec {engine : Engine σ} {fuel : Nat} {r : Except Throwable Unit}
    (hinitializers :
      LeadsSettled ((Procedure.runInitializers thread type).exec engine (fuel + 1)))
    (h : (Procedure.initialization thread type).exec engine (fuel + 1) m = (.ok r, m')) :
    Initialization type m r m' := by
  generalize hr : Except.ok r = r' at h
  -- one case for each way that a request can go, each with what it says about the own class
  cases Procedure.initializes_of_exec h with
  | skipped hstate =>
    obtain rfl := Except.ok.inj hr
    exact ⟨.refl _, fun hloaded _ => by simp [hloaded] at hstate, fun _ _ => nofun,
      fun _ => ⟨rfl, rfl⟩⟩
  | missing hstate error =>
    obtain rfl := Except.ok.inj hr
    exact ⟨.refl _, fun _ => nofun, fun hloaded _ _ => hloaded,
      fun hdone => by simp [hstate] at hdone⟩
  | array hloaded =>
    obtain rfl := Except.ok.inj hr
    obtain ⟨c, hget⟩ := ClassTable.exists_get?_of_stateOf (by rw [hloaded]; decide)
    have hframe : TableFrame [] m.table (m.table.setState type .fullyInitialized) :=
      .of_loaded hloaded nofun
    exact ⟨.of_frame hframe fun _ => List.not_mem_nil,
      fun _ _ => ClassTable.stateOf_setState_self hget, fun _ _ => nofun,
      fun hdone => by simp [hloaded] at hdone⟩
  | succeeded hloaded hrun =>
    obtain rfl := Except.ok.inj hr
    have hmiddle := hinitializers.of_ok hrun
    obtain ⟨c, hget⟩ := Settles.exists_get?_of_attempt hloaded hmiddle
    exact ⟨.attempt hloaded hmiddle nofun, fun _ _ => ClassTable.stateOf_setState_self hget,
      fun _ _ => nofun, fun hdone => by simp [hloaded] at hdone⟩
  | failed hloaded hrun =>
    obtain rfl := Except.ok.inj hr
    have hmiddle := hinitializers.of_ok hrun
    obtain ⟨c, hget⟩ := Settles.exists_get?_of_attempt hloaded hmiddle
    exact ⟨.attempt hloaded hmiddle nofun, fun _ => nofun,
      fun _ _ _ => ClassTable.stateOf_setState_self hget,
      fun hdone => by simp [hloaded] at hdone⟩
  | halted hloaded hrun => exact nomatch hr

/-- **One step.** With an engine that makes steady requests only, every steady step that returns
has settled. -/
theorem settles_perform {engine : Engine σ}
    (hengine : ∀ call, (engine.respond call).Only Request.Steady) (fuel : Nat) (step : Step σ)
    (hstep : step.Steady) : LeadsSettled (perform engine fuel step) := by
  induction fuel generalizing step with
  | zero => exact leads_throw (fun _ => trivial) .exhausted
  | succ fuel ih =>
    have hrun : ∀ {ε α : Type} {procedure : Procedure σ ε α}, procedure.Asks Step.Steady →
        LeadsSettled (procedure.exec engine fuel) :=
      fun hasks => leads_run follows_settles hasks ih
    -- a steady step sets no states itself, so only a request to initialise takes more than the
    -- induction
    match step with
    | .request (.access access) =>
      exact leads_perform_access (fun _ => trivial) (settles_access access hstep)
    | .request (.initClass thread type) =>
      refine ⟨fun h => ?_, fun _ => trivial⟩
      cases fuel with
      | zero => exact nomatch h
      | succ fuel =>
        exact (initialization_of_exec (hrun (Procedure.steady_runInitializers thread type)) h).settles
    | .request (.invoke thread method arguments) =>
      exact hrun (Procedure.asks_invocation (fun _ => Step.steady_of_contained) (fun _ => trivial)
        (fun _ => trivial) (fun _ => trivial) thread method arguments)
    | .request .panic => exact leads_throw (fun _ => trivial) .panicked
    | .callEngine call =>
      exact leads_run follows_settles (hengine call) fun request hrequest => ih _ hrequest
    | .upkeep upkeep => exact leads_perform_upkeep (fun _ => trivial) (settles_upkeep upkeep)

end Machine

/-- **Initialisations settle.** With an engine that sets no states itself and starts nothing, let a
request to initialise a class return, from whatever machine it was made and however deep in other
runs. Then the classes being initialised are those that were, and an initialised class still is. A
class that was loaded is initialised if the request succeeded, and loaded again if it failed. If the
class was initialised before, or being initialised, the request succeeds and nothing at all has
changed. -/
theorem initialization_settles {engine : Engine σ}
    (hengine : ∀ call, (engine.respond call).Only Request.Steady) {fuel : Nat}
    {r : Except Throwable Unit}
    (h : Machine.perform engine fuel (.request (.initClass thread type)) m = (.ok r, m')) :
    (∀ id, m'.table.stateOf id = .beingInitialized ↔ m.table.stateOf id = .beingInitialized) ∧
    (∀ id, m.table.stateOf id = .fullyInitialized → m'.table.stateOf id = .fullyInitialized) ∧
    (m.table.stateOf type = .loaded →
      (r = .ok () → m'.table.stateOf type = .fullyInitialized) ∧
      (∀ e, r = .error e → m'.table.stateOf type = .loaded)) ∧
    (m.table.stateOf type = .beingInitialized ∨ m.table.stateOf type = .fullyInitialized →
      r = .ok () ∧ m' = m) := by
  match fuel with
  | 0 => exact nomatch h
  | 1 => exact nomatch h
  | fuel + 2 =>
    have hinitializers : Machine.LeadsSettled
        ((Procedure.runInitializers thread type).exec engine (fuel + 1)) :=
      leads_run Machine.follows_settles (Procedure.steady_runInitializers thread type)
        (Machine.settles_perform hengine (fuel + 1))
    have hdone := Machine.initialization_of_exec hinitializers h
    exact ⟨hdone.settles.busy, hdone.settles.initialized,
      fun hloaded => ⟨hdone.succeeded hloaded, hdone.failed hloaded⟩,
      fun hstate => hdone.skipped hstate.symm⟩

/-- A class with an initialiser of its own. -/
def initializable (superClass : Option String) (name : String) : ClassKind :=
  .instances ⟨0, 52, ⟨#[]⟩, 0, name, superClass, [], [], [⟨8, "<clinit>", "()V", []⟩], []⟩ none

/-- Two classes, `A` and its super class `B`. -/
def familyTable : ClassTable :=
  ((ClassTable.empty.define "A" (initializable (some "B") "A")).2.define "B"
    (initializable none "B")).2

def familyMachine : Machine Unit :=
  (Machine.new (fun _ => none) none ()).withTable familyTable

/-- An engine whose initialisers ask for both classes, and of which that of `A` fails. -/
def familyEngine : Engine Unit where
  respond call :=
    .ask (.initClass call.thread ⟨0⟩) fun _ => .ask (.initClass call.thread ⟨1⟩) fun _ =>
      .done (if call.method.declaring = ⟨0⟩ then .error (.internal .noDefaultCharset) else .ok none)

/-- The request to initialise `A`, and what comes of it. -/
def familyRun : Except Halt (Except Throwable Unit) × Machine Unit :=
  Machine.perform familyEngine 9 (.request (.initClass ⟨0⟩ ⟨0⟩)) familyMachine

/-- `A` is loaded again and `B` stays initialised; neither is being initialised any more. -/
theorem familyRun_settles :
    (familyRun.1 = .ok (.error (.internal .noDefaultCharset)) ∧
      familyMachine.table.stateOf ⟨0⟩ = .loaded ∧
      familyRun.2.table.stateOf ⟨1⟩ = .fullyInitialized) ∧
    (∀ id, familyRun.2.table.stateOf id ≠ .beingInitialized) ∧
    familyRun.2.table.stateOf ⟨0⟩ = .loaded := by
  have hengine : ∀ call, (familyEngine.respond call).Only Request.Steady :=
    fun _ => ⟨trivial, fun _ => ⟨trivial, fun _ => trivial⟩⟩
  have hfailed : familyRun.1 = .ok (.error (.internal .noDefaultCharset)) := by
    with_unfolding_all rfl
  have hloaded : familyMachine.table.stateOf ⟨0⟩ = .loaded := by decide +kernel
  -- before the run no class is busy
  have hready : ∀ id, familyMachine.table.stateOf id ≠ .beingInitialized := by
    intro id hbusy
    obtain ⟨c, hget⟩ := ClassTable.exists_get?_of_stateOf (by rw [hbusy]; decide)
    rw [ClassTable.stateOf_of_get? hget] at hbusy
    have hall : ∀ c ∈ familyTable.classes, c.state = .loaded := by decide +kernel
    simp [hall c (Array.mem_of_getElem? hget)] at hbusy
  obtain ⟨hbusy, -, hout, -⟩ := initialization_settles hengine (Prod.ext hfailed rfl)
  exact ⟨⟨hfailed, hloaded, by decide +kernel⟩, fun id h => hready id ((hbusy id).mp h),
    (hout hloaded).2 _ rfl⟩

end ClassHost
