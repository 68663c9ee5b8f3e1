import ClassHost.Proofs.Machine.Execution

/-!
# What procedures ask for

The machine's own procedures are long, but what they may ask for is little. `Step.Routine` leaves
out what only an attempt to initialise a class does: to give a class back and to move it on
condition. Starting, invoking and running a main thread ask for routine steps only (`asks_booting`,
`asks_invocation`, `asks_mainThread`). The sequence of a start and a main thread ask for even less:
their steps are `Step.Ordinary`, so a start moves its state only around its sequence. Most parts of
the sequence, and a main thread, ask for requests only (`Step.Errand`). `Step.Contained` is what
remains where no start is asked for: initialising a super class and running an override
(`asks_runOverride`) do no more. None of them asks for the access that puts all overrides in place;
that is left to engines.
-/

namespace ClassHost

variable {σ ε ε' α β : Type}

/-- A step that is no part of an attempt to initialise a class. -/
def Step.Routine : Step σ → Prop
  | .request (.access (.setState _ state)) =>
    state = .beingInitialized ∨ state = .fullyInitialized
  | .request (.access (.transition _ _ _)) => False
  | _ => True

/-- A routine step other than a call to the engine, a note in the journal, a move of the boot state,
a panic or the access that puts overrides in place. Starting and running a main thread leave all of
these to what they ask for. -/
def Step.Ordinary : Step σ → Prop
  | .callEngine _ | .upkeep (.note _) | .upkeep (.setBoot _) | .request .panic => False
  | .request (.access .installOverrides) => False
  | step => step.Routine

theorem Step.routine_of_ordinary {step : Step σ} (h : step.Ordinary) : step.Routine := by
  cases step with
  | request op =>
    cases op with
    | access access => cases access <;> first | exact h | exact h.elim
    | _ => first | exact h | exact h.elim
  | callEngine call => exact h.elim
  | upkeep op => cases op <;> first | exact h | exact h.elim

/-- An ordinary step that is a request. -/
def Step.Errand : Step σ → Prop
  | .request op => (Step.request op).Ordinary
  | _ => False

theorem Step.ordinary_of_errand {step : Step σ} (h : step.Errand) : step.Ordinary := by
  cases step with
  | request op => exact h
  | _ => exact h.elim

/-- A request that sets no state, role, static, field or delegate, and runs no program of its own.
It may load, initialise, invoke, intern, start, and write to arrays. A program of its own would run
on another thread, and a panic there leaves classes half initialised without stopping the rest. -/
def Request.Restrained : Request σ → Prop
  | .access (.setState _ _) | .access (.transition _ _ _) | .access (.tag _ _)
  | .access (.setStatic _ _ _) | .access (.setField _ _ _) | .access (.setDelegate _)
  | .supervise _ _ => False
  | _ => True

/-- A step that is a restrained request. -/
def Step.Restrained : Step σ → Prop
  | .request op => op.Restrained
  | _ => False

/-- A step that is a restrained request for anything but a start, a panic or the access that puts
overrides in place. -/
def Step.Contained : Step σ → Prop
  | .request (.boot _ _) | .request .panic | .request (.access .installOverrides) => False
  | step => step.Restrained

theorem Step.restrained_of_contained {step : Step σ} (h : step.Contained) : step.Restrained := by
  cases step with
  | request op =>
    cases op with
    | access access => cases access <;> first | exact h | exact h.elim
    | _ => first | exact h | exact h.elim
  | _ => exact h

/-- Restrained requests are routine, so a contained step is an errand. -/
theorem Step.errand_of_contained {step : Step σ} (h : step.Contained) : step.Errand := by
  cases step with
  | request op =>
    cases op with
    | access access => cases access <;> first | exact trivial | exact h.elim
    | _ => first | exact trivial | exact h.elim
  | _ => exact h.elim

theorem Step.routine_of_restrained {step : Step σ} (h : step.Restrained) : step.Routine := by
  cases step with
  | request op =>
    cases op with
    | access access => cases access <;> first | exact trivial | exact h.elim
    | _ => exact trivial
  | _ => exact h.elim

/-- Nobody sets the state of a class directly. -/
def Request.LeavesStates : Request σ → Prop
  | .access (.setState _ _) | .access (.transition _ _ _) => False
  | _ => True

theorem Request.routine_of_leavesStates {request : Request σ} (h : request.LeavesStates) :
    Step.Routine (.request request) := by
  cases request with
  | access access =>
    cases access with
    | setState type state => exact h.elim
    | transition type source target => exact h.elim
    | _ => exact trivial
  | _ => exact trivial

namespace Procedure

/-- Whatever the replies are, the procedure asks for good steps only. -/
def Asks (good : Step σ → Prop) (procedure : Procedure σ ε α) : Prop := procedure.run.Only good

variable {good : Step σ → Prop}

theorem asks_pure (a : α) : Asks good (pure a : Procedure σ ε α) := trivial

theorem asks_throw (e : ε) : Asks good (throw e : Procedure σ ε α) := trivial

theorem asks_bind {x : Procedure σ ε α} {f : α → Procedure σ ε β} (hx : Asks good x)
    (hf : ∀ a, Asks good (f a)) : Asks good (x >>= f) := by
  refine Program.only_bind hx fun result => ?_
  cases result with
  | ok a => exact hf a
  | error e => exact trivial

theorem asks_orFatal {blame : Throwable → Fatal} {procedure : Procedure σ Throwable α}
    (h : Asks good procedure) : Asks good (orFatal blame procedure) :=
  Program.only_bind h fun _ => trivial

theorem asks_outcome {procedure : Procedure σ ε α} (h : Asks good procedure) :
    Asks good (outcome procedure : Procedure σ ε' (Except ε α)) :=
  Program.only_bind h fun _ => trivial

theorem Asks.restrained {procedure : Procedure σ ε α} (h : Asks Step.Contained procedure) :
    Asks Step.Restrained procedure :=
  h.mono fun _ => Step.restrained_of_contained

theorem Asks.ordinary {procedure : Procedure σ ε α} (h : Asks Step.Errand procedure) :
    Asks Step.Ordinary procedure :=
  h.mono fun _ => Step.ordinary_of_errand

theorem Asks.routine {procedure : Procedure σ ε α} (h : Asks Step.Restrained procedure) :
    Asks Step.Routine procedure :=
  h.mono fun _ => Step.routine_of_restrained

-- ---------------------------------------------------------------------------
-- Single steps
-- ---------------------------------------------------------------------------

theorem asks_access {access : Access σ} (h : good (.request (.access access))) :
    Asks good (Procedure.access access : Procedure σ ε access.Reply) :=
  ⟨h, fun _ => trivial⟩

theorem asks_upkeep {upkeep : Upkeep} (h : good (.upkeep upkeep)) :
    Asks good (Procedure.upkeep upkeep : Procedure σ ε upkeep.Reply) :=
  ⟨h, fun _ => trivial⟩

theorem asks_observe (h : good (.request (.access .observe))) :
    Asks good (observe : Procedure σ ε (Machine σ)) :=
  asks_access h

-- ---------------------------------------------------------------------------
-- Starting
-- ---------------------------------------------------------------------------

theorem asks_loadRequired (name : String) :
    Asks Step.Errand (loadRequired name : Procedure σ Fatal ClassId) := by
  refine asks_bind (asks_orFatal ⟨trivial, fun _ => trivial⟩) fun found => ?_
  cases found with
  | none => exact asks_throw _
  | some type => exact asks_pure type

theorem asks_initialized (thread : ThreadId) (type : ClassId) :
    Asks Step.Errand (initialized thread type : Procedure σ Fatal Unit) :=
  asks_bind (asks_observe trivial) fun _ => asks_orFatal ⟨trivial, fun _ => trivial⟩

theorem asks_require (thread : ThreadId) (name : String) :
    Asks Step.Errand (require thread name : Procedure σ Fatal ClassId) :=
  asks_bind (asks_loadRequired name) fun type =>
    asks_bind (asks_initialized thread type) fun _ => asks_pure type

theorem asks_newObject (type : ClassId) :
    Asks Step.Errand (newObject type : Procedure σ Fatal ObjectId) :=
  asks_bind (asks_observe trivial) fun _ => asks_orFatal ⟨trivial, fun _ => trivial⟩

theorem asks_setObjectField (object : ObjectId) (key : FieldKey) (value : Value) :
    Asks Step.Errand (setObjectField object key value : Procedure σ Fatal Unit) :=
  asks_bind (asks_observe trivial) fun _ => asks_orFatal ⟨trivial, fun _ => trivial⟩

theorem asks_internRequired (text : String) :
    Asks Step.Errand (internRequired text : Procedure σ Fatal ObjectId) :=
  asks_orFatal ⟨trivial, fun _ => trivial⟩

theorem asks_declared (kind : MethodKind) (type : ClassId) (key : MethodKey) :
    Asks Step.Errand (declared kind type key : Procedure σ Fatal MethodRef) := by
  refine asks_bind (asks_observe trivial) fun m => ?_
  cases m.table.method? kind type key with
  | none => exact asks_throw _
  | some method => exact asks_pure method

theorem asks_invokeRequired (thread : ThreadId) (method : MethodRef) (arguments : List Value) :
    Asks Step.Errand (invokeRequired thread method arguments : Procedure σ Fatal Unit) :=
  asks_bind (asks_observe trivial) fun _ =>
    asks_bind (asks_orFatal ⟨trivial, fun _ => trivial⟩) fun _ => asks_pure ()

theorem asks_callDeclared (thread : ThreadId) (kind : MethodKind) (type : ClassId)
    (key : MethodKey) {arguments : Procedure σ Fatal (List Value)}
    (harguments : Asks Step.Errand arguments) :
    Asks Step.Errand (callDeclared thread kind type key arguments : Procedure σ Fatal Unit) :=
  asks_bind (asks_declared kind type key) fun _ => asks_bind harguments fun _ =>
    asks_invokeRequired thread _ _

theorem asks_tagAll (role : ClassRole) (types : List ClassId) :
    Asks Step.Errand (tagAll role types : Procedure σ Fatal Unit) := by
  induction types with
  | nil => exact asks_pure ()
  | cons type types ih => exact asks_bind (asks_access trivial) fun _ => ih

theorem asks_findWellKnown (thread : ThreadId) :
    Asks Step.Errand (findWellKnown thread : Procedure σ Fatal WellKnown) := by
  have hrequire := fun name => asks_require (σ := σ) thread name
  exact asks_bind (hrequire _) fun classObject => asks_bind (hrequire _) fun object =>
    asks_bind (hrequire _) fun string =>
    asks_bind (asks_orFatal ⟨trivial, fun _ => trivial⟩) fun _ =>
    asks_bind (hrequire _) fun cloneable => asks_bind (hrequire _) fun serializable =>
    asks_bind (hrequire _) fun nullPointer => asks_bind (hrequire _) fun arrayIndex =>
    asks_bind (hrequire _) fun classNotFound => asks_bind (hrequire _) fun internalError =>
    asks_bind (hrequire _) fun inputOutput => asks_pure _

theorem asks_captureWellKnown (thread : ThreadId) :
    Asks Step.Ordinary (captureWellKnown thread : Procedure σ Fatal Unit) := by
  refine asks_bind (asks_findWellKnown thread).ordinary fun known =>
    asks_bind (asks_tagAll _ _).ordinary fun _ =>
    asks_bind (asks_tagAll _ _).ordinary fun _ => asks_bind (asks_access trivial) fun _ =>
    asks_bind (asks_upkeep trivial) fun captured => ?_
  split
  · exact asks_throw _
  · exact asks_pure ()

theorem asks_newPeer (thread : ThreadId) (threadType : ClassId) :
    Asks Step.Errand (newPeer thread threadType : Procedure σ Fatal ObjectId) :=
  asks_bind (asks_newObject threadType) fun peer => asks_bind (asks_observe trivial) fun _ =>
    asks_bind (asks_setObjectField _ _ _) fun _ => asks_bind (asks_setObjectField _ _ _) fun _ =>
    asks_bind (asks_orFatal ⟨trivial, fun _ => trivial⟩) fun _ => asks_pure peer

theorem asks_checkDeclared (type : ClassId) (methods : List (MethodKey × Override)) :
    Asks Step.Errand (checkDeclared type methods : Procedure σ Fatal Unit) := by
  induction methods with
  | nil => exact asks_pure ()
  | cons entry rest ih => exact asks_bind (asks_declared .any type entry.1) fun _ => ih

theorem asks_installModules (modules : List OverrideModule) :
    Asks Step.Ordinary (installModules modules : Procedure σ Fatal Unit) := by
  induction modules with
  | nil => exact asks_pure ()
  | cons entry rest ih =>
    exact asks_bind (asks_loadRequired _).ordinary fun type =>
      asks_bind (asks_checkDeclared type _).ordinary fun _ =>
      asks_bind (asks_upkeep trivial) fun _ => ih

theorem asks_applyOverrides (thread : ThreadId) :
    Asks Step.Ordinary (applyOverrides thread : Procedure σ Fatal Unit) := by
  refine asks_bind (asks_require thread _).ordinary fun charsetType =>
    asks_bind (asks_require thread _).ordinary fun utf8Type =>
    asks_bind (asks_newObject utf8Type).ordinary fun utf8 =>
    asks_bind (asks_access trivial) fun _ => asks_bind (asks_upkeep trivial) fun set => ?_
  split
  · exact asks_throw _
  · exact asks_installModules _

theorem asks_installDelegate (thread : ThreadId) (arguments : List String) :
    Asks Step.Errand (installDelegate thread arguments : Procedure σ Fatal Unit) := by
  refine asks_bind (asks_observe trivial) fun m => ?_
  cases m.delegateClass with
  | none => exact asks_pure ()
  | some name =>
    refine asks_bind (asks_orFatal ⟨trivial, fun _ => trivial⟩) fun found => ?_
    cases found with
    | none => exact asks_pure ()
    | some type =>
      exact asks_bind (asks_initialized thread type) fun _ =>
        asks_bind (asks_newObject type) fun _ =>
        asks_bind (asks_declared .any type _) fun _ => asks_bind (asks_observe trivial) fun _ =>
        asks_bind (asks_orFatal ⟨trivial, fun _ => trivial⟩) fun _ =>
        asks_bind (asks_invokeRequired thread _ _) fun _ => asks_orFatal ⟨trivial, fun _ => trivial⟩

theorem asks_newMainThread (thread : ThreadId) :
    Asks Step.Errand (newMainThread thread : Procedure σ Fatal MainThread) :=
  asks_bind (asks_require thread _) fun _ => asks_bind (asks_require thread _) fun _ =>
    asks_bind (asks_newPeer thread _) fun _ => asks_bind (asks_newObject _) fun _ =>
    asks_bind (asks_callDeclared thread _ _ _ (asks_pure _)) fun _ =>
    asks_bind (asks_newObject _) fun _ => asks_bind (asks_setObjectField _ _ _) fun _ => asks_pure _

theorem asks_claimSystem (thread : ThreadId) :
    Asks Step.Errand (claimSystem thread : Procedure σ Fatal ClassId) :=
  asks_bind (asks_loadRequired _) fun type => asks_bind (asks_access trivial) fun _ =>
    asks_bind (asks_access (.inl rfl)) fun _ => asks_bind (asks_require thread _) fun _ =>
    asks_bind (asks_require thread _) fun _ => asks_bind (asks_require thread _) fun _ =>
    asks_pure type

theorem asks_constructMainGroup (thread : ThreadId) (main : MainThread) :
    Asks Step.Errand (constructMainGroup thread main : Procedure σ Fatal Unit) :=
  asks_callDeclared thread _ _ _ (asks_bind (asks_internRequired _) fun _ => asks_pure _)

theorem asks_constructMainThread (thread : ThreadId) (main : MainThread) :
    Asks Step.Errand (constructMainThread thread main : Procedure σ Fatal Unit) :=
  asks_callDeclared thread _ _ _ (asks_bind (asks_internRequired _) fun _ => asks_pure _)

theorem asks_layFoundation (thread : ThreadId) :
    Asks Step.Ordinary (layFoundation thread : Procedure σ Fatal Claimed) :=
  asks_bind (asks_captureWellKnown thread) fun _ =>
    asks_bind (asks_newMainThread thread).ordinary fun main =>
    asks_bind (asks_claimSystem thread).ordinary fun _ =>
    asks_bind (asks_constructMainGroup thread main).ordinary fun _ =>
    -- security logging is claimed
    asks_bind (asks_loadRequired _).ordinary fun _ => asks_bind (asks_access (.inl rfl)) fun _ =>
    asks_bind (asks_constructMainThread thread main).ordinary fun _ => asks_pure _

theorem asks_finishLibrary (thread : ThreadId) (claimed : Claimed) :
    Asks Step.Ordinary (finishLibrary thread claimed : Procedure σ Fatal Unit) :=
  asks_bind (asks_applyOverrides thread) fun _ =>
    asks_bind (asks_callDeclared thread _ _ _ (asks_pure _)).ordinary fun _ =>
    -- both claimed classes are finished
    asks_bind (asks_access (.inr rfl)) fun _ => asks_access (.inr rfl)

theorem asks_bootSequence (thread : ThreadId) (arguments : List String) :
    Asks Step.Ordinary (bootSequence thread arguments : Procedure σ Fatal Unit) :=
  asks_bind (asks_layFoundation thread) fun claimed =>
    asks_bind (asks_finishLibrary thread claimed) fun _ =>
    (asks_installDelegate thread arguments).ordinary

/-- A start moves the boot state around its sequence. -/
theorem asks_booting (hordinary : ∀ step : Step σ, step.Ordinary → good step)
    (hmove : ∀ state, good (.upkeep (.setBoot state))) (thread : ThreadId)
    (arguments : List String) :
    Asks good (booting thread arguments : Procedure σ Fatal Unit) := by
  have hsequence := (asks_bootSequence (σ := σ) thread arguments).mono hordinary
  refine asks_bind (asks_observe (hordinary _ trivial)) fun m => ?_
  cases m.boot with
  | failed => exact asks_throw _
  | booting => exact asks_pure ()
  | booted => exact asks_pure ()
  | notBooted =>
    refine asks_bind (asks_upkeep (hmove _)) fun _ =>
      asks_bind (asks_outcome hsequence) fun result => ?_
    cases result with
    | ok _ => exact asks_upkeep (hmove _)
    | error fatal => exact asks_bind (asks_upkeep (hmove _)) fun _ => asks_throw fatal

-- ---------------------------------------------------------------------------
-- Initialising a class
-- ---------------------------------------------------------------------------

/-- The part of an attempt that comes before its own initialiser. -/
theorem asks_initializeSuper (thread : ThreadId) (type : ClassId) :
    Asks Step.Contained (initializeSuper thread type : Procedure σ Throwable Unit) := by
  refine asks_bind (asks_observe trivial) fun m => ?_
  cases (m.table.get? type).bind LoadedClass.superName? with
  | none => exact asks_pure ()
  | some superName =>
    refine asks_bind ⟨trivial, fun _ => trivial⟩ fun found => ?_
    cases found with
    | none => exact asks_throw _
    | some superType => exact ⟨trivial, fun _ => trivial⟩

theorem asks_invokeInitializer (thread : ThreadId) (type : ClassId) :
    Asks Step.Contained (invokeInitializer thread type : Procedure σ Throwable Unit) := by
  refine asks_bind (asks_observe trivial) fun m => ?_
  cases m.table.method? .static type initializerKey with
  | none => exact asks_pure ()
  | some method => exact asks_bind ⟨trivial, fun _ => trivial⟩ fun _ => asks_pure ()

/-- The initialisers of an attempt. -/
theorem asks_runInitializers (thread : ThreadId) (type : ClassId) :
    Asks Step.Contained (runInitializers thread type : Procedure σ Throwable Unit) :=
  asks_bind (asks_initializeSuper thread type) fun _ => asks_invokeInitializer thread type

/-- Initialising a class moves its state, around the initialisers. -/
theorem asks_initialization (hcontained : ∀ step : Step σ, step.Contained → good step)
    (hset : ∀ type state, good (.request (.access (.setState type state))))
    (htransition : ∀ type source target,
      good (.request (.access (.transition type source target))))
    (thread : ThreadId) (type : ClassId) :
    Asks good (initialization thread type : Procedure σ Throwable Unit) := by
  have hattempt : Asks good (attempt thread type : Procedure σ Throwable Unit) := by
    have hinitializers := (asks_runInitializers thread type).mono hcontained
    refine asks_bind (asks_outcome hinitializers) fun result => ?_
    cases result with
    | ok _ => exact asks_access (hset _ _)
    | error error => exact asks_bind (asks_access (hset _ _)) fun _ => asks_throw error
  refine asks_bind (asks_observe (hcontained _ trivial)) fun m => ?_
  cases m.table.stateOf type with
  | fullyInitialized => exact asks_pure ()
  | beingInitialized => exact asks_pure ()
  | notLoaded => exact asks_throw _
  | loaded =>
    dsimp only
    split
    · exact asks_access (hset _ _)
    · refine asks_bind (asks_access (htransition _ _ _)) fun moved => ?_
      split
      · exact hattempt
      · exact asks_pure ()

-- ---------------------------------------------------------------------------
-- Invoking, and the main thread
-- ---------------------------------------------------------------------------

theorem asks_newStreamEncoder (thread : ThreadId) (method : MethodRef) (arguments : List Value) :
    Asks Step.Contained
      (newStreamEncoder thread method arguments : Procedure σ Throwable (Option Value)) := by
  unfold newStreamEncoder
  dsimp only
  split
  · exact asks_bind ⟨trivial, fun _ => trivial⟩ fun _ => trivial
  · refine asks_bind (asks_observe trivial) fun m => ?_
    cases m.charset with
    | none => exact asks_throw _
    | some charset =>
      dsimp only
      cases m.table.method? .nonStatic method.declaring encoderConstructor with
      | none => exact asks_throw _
      | some constructor =>
        exact asks_bind ⟨trivial, fun _ => trivial⟩ fun _ =>
          asks_bind ⟨trivial, fun _ => trivial⟩ fun _ =>
          asks_bind ⟨trivial, fun _ => trivial⟩ fun _ => asks_pure _

/-- What runs an override asks the engine for nothing by itself. -/
theorem asks_runOverride (thread : ThreadId) (method : MethodRef) (arguments : List Value)
    (entry : Override) :
    Asks Step.Contained
      (runOverride thread method arguments entry : Procedure σ Throwable (Option Value)) := by
  cases entry with
  | newStreamEncoder => exact asks_newStreamEncoder thread method arguments
  | skipLibrary => exact asks_pure none

/-- Invoking a method calls the engine and records the call, unless the method is overridden. -/
theorem asks_invocation (hcontained : ∀ step : Step σ, step.Contained → good step)
    (hcall : ∀ call, good (.callEngine call))
    (hcalled : ∀ call, good (.upkeep (.note (.called call))))
    (hreturned : ∀ succeeded, good (.upkeep (.note (.returned succeeded))))
    (thread : ThreadId) (method : MethodRef) (arguments : List Value) :
    Asks good (invocation thread method arguments : Procedure σ Throwable (Option Value)) := by
  refine asks_bind (asks_observe (hcontained _ trivial)) fun m => ?_
  cases m.overrides.find? (m.className method.declaring) method.key with
  | some entry => exact (asks_runOverride thread method arguments entry).mono hcontained
  | none =>
    refine asks_bind (asks_upkeep (hcalled _)) fun _ =>
      asks_bind (asks_outcome ⟨hcall _, fun _ => trivial⟩) fun result => ?_
    cases result with
    | ok value => exact asks_bind (asks_upkeep (hreturned _)) fun _ => asks_pure value
    | error error => exact asks_bind (asks_upkeep (hreturned _)) fun _ => asks_throw error

theorem asks_entryType (entry : EntryClass) :
    Asks Step.Errand (entryType entry : Procedure σ Fatal ClassId) := by
  cases entry with
  | named name => exact asks_loadRequired name
  | ofBytes bytes => exact asks_orFatal ⟨trivial, fun _ => trivial⟩

theorem asks_mainThread (entry : EntryClass) (arguments : List String) :
    Asks Step.Errand (mainThread entry arguments : Procedure σ Fatal Unit) :=
  asks_bind (asks_access trivial) fun _ => asks_bind ⟨trivial, fun _ => trivial⟩ fun _ =>
    asks_bind (asks_entryType entry) fun _ => asks_bind (asks_declared _ _ _) fun _ =>
    asks_bind (asks_initialized _ _) fun _ =>
    asks_bind (asks_orFatal ⟨trivial, fun _ => trivial⟩) fun _ =>
    asks_bind (asks_observe trivial) fun _ =>
    asks_bind (asks_orFatal ⟨trivial, fun _ => trivial⟩) fun _ => asks_pure ()

end Procedure

end ClassHost
