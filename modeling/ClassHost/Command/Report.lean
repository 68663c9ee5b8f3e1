import ClassHost.ClassPath
import ClassHost.Command.Help
import ClassHost.Loader

/-!
# Reports

What a command prints: one line for each name, in order, which says what the name is or why it is
nothing. The status is 0 if all is well, 1 if a name or a path failed, and 2 if the command line
was no good.

`Command.run` is the whole program as a function of the files it reads, and `Command.reads` lists
these.
-/

namespace ClassHost

/-- A line about one name, and whether the name was good. -/
structure ReportLine where
  text : String
  succeeded : Bool
  deriving Repr, DecidableEq

namespace ReportLine

/-- A line that describes an array class. -/
def arrayText (name kind : String) (dimension : Nat) (element : String) : String :=
  name ++ ": " ++ kind ++ " array, dimension " ++ toString dimension ++ ", element " ++ element

/-- What stands in for the name of an element that is not there. -/
def unknownElement : String := "?"

/-! ## Plans -/

/-- What the outermost array of a plan holds. -/
def elementText {Component : Type} (describe : Component → String) : ArrayPlan Component → String
  | .last _ component => describe component
  | .level _ inner => inner.descriptor

def planText : LoadPlan → String
  | .instanceClass name => name ++ ": instance"
  | .objectArray plan => arrayText plan.descriptor "object" plan.dimension (elementText id plan)
  | .primitiveArray plan =>
    arrayText plan.descriptor "primitive" plan.dimension (elementText BaseType.text plan)

/-- The line about how a name would be loaded. -/
def ofPlan (name : String) : ReportLine :=
  match LoadPlan.resolve name with
  | .ok plan => ⟨planText plan, true⟩
  | .error error => ⟨name ++ ": " ++ error.message, false⟩

/-! ## Classes -/

/-- The name of the class that an array class holds. -/
def elementName (table : ClassTable) (id : ClassId) : String :=
  match (table.elementClass? id).bind table.get? with
  | some element => element.name
  | none => unknownElement

def classText (table : ClassTable) (id : ClassId) : String :=
  let name := table.nameOf id
  match (table.get? id).map LoadedClass.kind with
  | some (.instances file source) =>
    name ++ ": instance, from " ++ (source.map Source.text).getD Loader.streamName ++ ", " ++
      toString file.methods.length ++ " methods"
  | some (.objectArray shape) => arrayText name "object" shape.dimension (elementName table id)
  | some (.primitiveArray ⟨dimension, .component type⟩) =>
    arrayText name "primitive" dimension type.text
  | some (.primitiveArray ⟨dimension, .down _⟩) =>
    arrayText name "primitive" dimension (elementName table id)
  | none => name

/-- The line about what loading a name came to. -/
def ofLoad (table : ClassTable) (name : String) : Except Throwable (Option ClassId) → ReportLine
  | .ok (some id) => ⟨classText table id, true⟩
  | .ok none => ⟨name ++ ": not found", false⟩
  | .error error => ⟨name ++ ": " ++ error.message, false⟩

end ReportLine

/-- Loads a name and reports it. -/
def Loader.report (finder : Finder) (name : String) : StateM Loader ReportLine := do
  let result ← (Loader.load finder name).run
  return .ofLoad (← get).table name result

/-- Loads names one after the other and reports each. -/
def Loader.reports (finder : Finder) (names : List String) : StateM Loader (List ReportLine) :=
  names.mapM (Loader.report finder)

/-- What a run leaves behind. A complaint is for whoever ran the program and no part of the
report. -/
structure Outcome where
  status : Nat
  output : String
  complaint : Option String
  deriving Repr, DecidableEq

namespace Outcome

/-- A text, and nothing went wrong. -/
def success (output : String) : Outcome := ⟨0, output, none⟩

/-- Nothing could be reported. -/
def failure (complaint : String) : Outcome := ⟨1, "", some complaint⟩

/-- The command line was no good. -/
def misuse (fault : UsageFault) : Outcome := ⟨2, "", some fault.message⟩

/-- All lines, each with its end. -/
def ofLines (lines : List ReportLine) : Outcome :=
  ⟨if lines.all ReportLine.succeeded then 0 else 1,
    String.join (lines.map fun line => line.text ++ "\n"), none⟩

end Outcome

namespace Command

def run (files : FileSystem) : Command → Outcome
  | resolve names => .ofLines (names.map ReportLine.ofPlan)
  | load classPath names =>
    match classPath.mapM (ClassPath.Entry.ofPath files) with
    | .ok entries => .ofLines ((Loader.reports (ClassPath.search files entries) names).run .empty).1
    | .error fault => .failure fault.message
  | help topic => .success topic.page.text
  | version verb => .success (versionText verb)

def runArguments (files : FileSystem) (arguments : List String) : Outcome :=
  match ofArguments arguments with
  | .ok command => command.run files
  | .error fault => .misuse fault

/-- The class that has to be found for a name, if there is one. -/
def classFor? (name : String) : Option String :=
  match LoadPlan.resolve name with
  | .ok (.instanceClass name) => some name
  | .ok (.objectArray plan) => some plan.component
  | .ok (.primitiveArray _) | .error _ => none

/-- The files that a command may read: archives, and in directories the files of classes. -/
def reads : Command → List String
  | load classPath names =>
    classPath.flatMap fun path =>
      if ClassPath.Entry.isArchivePath path then [path]
      else
        (names.filterMap classFor?).filterMap fun name =>
          if ClassPath.isRelativeName name then some (ClassPath.classFilePath path name) else none
  | resolve _ | help _ | version _ => []

end Command

end ClassHost
