import ClassHost.Machine.Request

/-!
# Initialising classes

A class is initialised at most once at a time: the attempt moves it from loaded to being
initialised, runs the initialiser of the super class and then its own, and leaves it fully
initialised, or loaded again if anything failed. Whoever finds a class being initialised goes on
as if it were, which ends cycles.
-/

namespace ClassHost.Procedure

variable {σ : Type}

/-- The initialiser of a class. -/
def initializerKey : MethodKey := ⟨"<clinit>", ⟨[], .base .void⟩⟩

/-- Initialises the super class, if the class names one. -/
def initializeSuper (thread : ThreadId) (type : ClassId) : Procedure σ Throwable Unit := do
  let m ← observe
  if let some superName := (m.table.get? type).bind LoadedClass.superName? then
    let some superType ← load superName
      | throw (.internal (.superClassNotFound superName (m.className type)))
    initClass thread superType

/-- Invokes the initialiser of the class itself, if it declares one. -/
def invokeInitializer (thread : ThreadId) (type : ClassId) : Procedure σ Throwable Unit := do
  if let some method := (← observe).table.method? .static type initializerKey then
    let _ ← invoke thread method []

/-- Runs the initialiser of the super class and then that of the class itself. -/
def runInitializers (thread : ThreadId) (type : ClassId) : Procedure σ Throwable Unit := do
  initializeSuper thread type
  invokeInitializer thread type

/-- An attempt on a class that has just been moved to being initialised. -/
def attempt (thread : ThreadId) (type : ClassId) : Procedure σ Throwable Unit := do
  match ← outcome (runInitializers thread type) with
  | .ok () => access (.setState type .fullyInitialized)
  | .error error =>
    access (.setState type .loaded)
    throw error

/-- Initialises a class unless that has happened or is under way. -/
def initialization (thread : ThreadId) (type : ClassId) : Procedure σ Throwable Unit := do
  let m ← observe
  match m.table.stateOf type with
  | .fullyInitialized | .beingInitialized => return
  | .notLoaded => throw (.internal (.classNotLoaded (m.className type)))
  | .loaded =>
    if ((m.table.get? type).map LoadedClass.isArray).getD false then
      access (.setState type .fullyInitialized)
    else if ← access (.transition type .loaded .beingInitialized) then
      attempt thread type

end ClassHost.Procedure
