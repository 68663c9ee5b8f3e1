import ClassHost.ClassFile.Basic
import ClassHost.Object.Value
import ClassHost.Text.LogLines

/-!
# Failures

Three ranks of failure.

* A `RaisedError` is an exception that the machine itself raises in a running program.
* A `Throwable` is what calls, loads and initialisers fail with; programs may handle it.
* A `Fatal` ends a start: nothing after it would make sense.

Each is a type of causes; `message` puts a cause into words.
-/

namespace ClassHost

/-- Exceptions that the machine raises on its own behalf. -/
inductive RaisedError where
  | arrayIndexOutOfBounds (index : Int64)
  | nullPointer (context : String)
  | classNotFound (name : String)
  | internalError (text : String)
  | inputOutput (text : String)
  deriving Repr, DecidableEq

namespace RaisedError

/-- The class of the exception. -/
def className : RaisedError → String
  | arrayIndexOutOfBounds _ => "java/lang/ArrayIndexOutOfBoundsException"
  | nullPointer _ => "java/lang/NullPointerException"
  | classNotFound _ => "java/lang/ClassNotFoundException"
  | internalError _ => "java/lang/InternalError"
  | inputOutput _ => "java/io/IOException"

/-- What the exception says about itself. -/
def detail : RaisedError → String
  | arrayIndexOutOfBounds index => "OOB @ " ++ toString index.toInt
  | nullPointer context => "NPE (" ++ context ++ ")"
  | classNotFound name => name
  | internalError text => text
  | inputOutput text => text

/-- Class and detail. -/
def message (error : RaisedError) : String := error.className ++ ": " ++ error.detail

end RaisedError

/-- A place that an exception went through. -/
structure Frame where
  className : String
  methodName : String
  deriving Repr, DecidableEq

/-- The place in words. -/
def Frame.text (frame : Frame) : String := "at " ++ frame.className ++ "." ++ frame.methodName

/-- An exception under way: its object and the places it went through, innermost first. -/
structure RuntimeException where
  message : String
  type : ClassId
  object : Value
  frames : List Frame
  deriving Repr, DecidableEq

/-- Why found bytes do not become a class. -/
inductive FormatFault where
  | unreadable (origin : String) (fault : ClassFileFault)
  | wrongName (found : String)
  /-- A cause that a program gives for a fault of its own making. -/
  | other (text : String)
  deriving Repr, DecidableEq

def FormatFault.message : FormatFault → String
  | unreadable origin fault => "parsing class file from " ++ origin ++ ": " ++ fault.message
  | wrongName found => "wrong name: " ++ found
  | other text => text

/-- Failures inside the machine. -/
inductive InternalFault where
  | duplicateClass (name : String)
  | delegateAlreadySet
  | arrayInstance (className : String)
  | notAnArrayClass (className : String)
  | fieldOfNonInstance (key : FieldKey) (className : String)
  | notAnArray (className : String)
  | indexOutOfBounds (index length : Nat)
  | stringsAlreadyBound
  | stringsUnbound (text : String)
  | classNotLoaded (className : String)
  | superClassNotFound (superName className : String)
  | stringArrayNotLoaded
  | raisedBeforeBoot (error : RaisedError)
  | unknownException (error : RaisedError)
  | peerAlreadySet (threadName : String)
  | noDefaultCharset
  | noCharsetConstructor (className : String)
  /-- A failure that a program reports in its own words. -/
  | other (text : String)
  deriving Repr, DecidableEq

/-- The failure in words. -/
def InternalFault.message : InternalFault → String
  | duplicateClass name => "duplicate class definition: " ++ name
  | delegateAlreadySet => "delegate loader was already set"
  | arrayInstance className => "cannot create an instance of array class " ++ className
  | notAnArrayClass className => className ++ " is not an array class"
  | fieldOfNonInstance key className =>
    "cannot set field " ++ key.text ++ " on non-instance of " ++ className
  | notAnArray className => className ++ " is not an array"
  | indexOutOfBounds index length => s!"index {index} out of bounds for length {length}"
  | stringsAlreadyBound => "string interner was already bound"
  | stringsUnbound text => "cannot intern " ++ Text.quoted text ++ ", java/lang/String is not loaded"
  | classNotLoaded className => "cannot initialize " ++ className ++ ", it is not loaded"
  | superClassNotFound superName className =>
    "super class " ++ superName ++ " of " ++ className ++ " not found"
  | stringArrayNotLoaded => "could not load [Ljava/lang/String;"
  | raisedBeforeBoot error => "cannot raise " ++ error.className ++ " before bootstrap"
  | unknownException error => error.className ++ " is not a known exception"
  | peerAlreadySet threadName => "thread " ++ threadName ++ " already has a peer"
  | noDefaultCharset => "no default charset installed"
  | noCharsetConstructor className => "no charset constructor on " ++ className
  | other text => text

/-- What loads, calls and initialisers fail with. -/
inductive Throwable where
  | descriptor (error : DescriptorError)
  | classFormat (className : String) (cause : FormatFault)
  | runtime (exception : RuntimeException)
  | internal (fault : InternalFault)
  deriving Repr, DecidableEq

/-- The failure in words. -/
def Throwable.message : Throwable → String
  | descriptor error => error.message
  | classFormat className cause => "class format error in " ++ className ++ ": " ++ cause.message
  | runtime exception => exception.message
  | internal fault => fault.message

/-- Failures of a start that have no class to blame. -/
inductive StartFault where
  | earlierBootFailed
  | wellKnownAlreadyCaptured
  | charsetAlreadyInstalled
  | interning (text : String) (cause : Throwable)
  | threadPanicked (threadName : String)
  deriving Repr, DecidableEq

/-- The failure in words. -/
def StartFault.message : StartFault → String
  | earlierBootFailed => "an earlier boot attempt failed"
  | wellKnownAlreadyCaptured => "well-known classes were already captured"
  | charsetAlreadyInstalled => "default charset was already installed"
  | interning text cause => "interning " ++ Text.quoted text ++ ": " ++ cause.message
  | threadPanicked threadName => threadName ++ " panicked"

/-- What ends a start. -/
inductive Fatal where
  | classNotFound (className : String)
  | load (className : String) (cause : Throwable)
  | initialization (className : String) (cause : Throwable)
  | missingMethod (className : String) (key : MethodKey)
  | invocation (className : String) (key : MethodKey) (cause : Throwable)
  | uncaughtException (className : String) (cause : Throwable)
  | internal (fault : StartFault)
  deriving Repr, DecidableEq

namespace Fatal

/-- The failure in words. -/
def message : Fatal → String
  | classNotFound className => "class not found: " ++ className
  | load className cause => "could not load " ++ className ++ ": " ++ cause.message
  | initialization className cause => "class init failed: " ++ className ++ ": " ++ cause.message
  | missingMethod className key => "method " ++ key.text ++ " not found in " ++ className
  | invocation className key cause =>
    className ++ "." ++ key.text ++ " failed: " ++ cause.message
  | uncaughtException className cause =>
    "uncaught exception in " ++ className ++ ".main: " ++ cause.message
  | internal fault => fault.message

/-- The failure that is behind this one, if any. -/
def cause? : Fatal → Option Throwable
  | load _ cause | initialization _ cause | invocation _ _ cause | uncaughtException _ cause =>
    some cause
  | classNotFound _ | missingMethod _ _ | internal _ => none

/-- What to report before giving up: the failure, and the places an uncaught exception went
through, outermost first. -/
def report (fatal : Fatal) : List String :=
  fatal.message ::
    match fatal with
    | uncaughtException _ (.runtime exception) =>
      exception.frames.reverse.map fun frame => "  " ++ frame.text
    | _ => []

/-- The lines of the log that the report leaves behind. -/
def logLines (fatal : Fatal) : List String := fatal.report.flatMap Text.logLines

end Fatal

end ClassHost
