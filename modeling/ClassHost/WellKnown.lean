import ClassHost.ClassTable
import ClassHost.Fault

/-!
# Well-known classes

The classes that the machine refers to by name: those it keeps for good once a start has found
them, and those it only needs on the way.
-/

namespace ClassHost

/-! ## Names of the core library that a start depends on -/

namespace CoreName

def object : String := "java/lang/Object"
def classObject : String := "java/lang/Class"
def string : String := "java/lang/String"
def stringArray : String := "[Ljava/lang/String;"
def cloneable : String := "java/lang/Cloneable"
def serializable : String := "java/io/Serializable"
def nullPointerException : String := "java/lang/NullPointerException"
def arrayIndexOutOfBoundsException : String := "java/lang/ArrayIndexOutOfBoundsException"
def classNotFoundException : String := "java/lang/ClassNotFoundException"
def internalError : String := "java/lang/InternalError"
def inputOutputException : String := "java/io/IOException"
def thread : String := "java/lang/Thread"
def threadGroup : String := "java/lang/ThreadGroup"
def system : String := "java/lang/System"
def inputStream : String := "java/io/InputStream"
def printStream : String := "java/io/PrintStream"
def securityManager : String := "java/lang/SecurityManager"
def securityDebug : String := "sun/security/util/Debug"
def charset : String := "java/nio/charset/Charset"
def utf8 : String := "sun/nio/cs/UTF_8"

end CoreName

/-! ## Classes -/

/-- The classes that a start finds first and keeps. -/
structure WellKnown where
  object : ClassId
  classObject : ClassId
  string : ClassId
  cloneable : ClassId
  serializable : ClassId
  nullPointerException : ClassId
  arrayIndexOutOfBoundsException : ClassId
  classNotFoundException : ClassId
  internalError : ClassId
  inputOutputException : ClassId
  deriving Repr, DecidableEq

namespace WellKnown

/-- The core of the library. -/
def core (known : WellKnown) : List ClassId :=
  [known.object, known.classObject, known.string, known.cloneable, known.serializable]

/-- The exceptions that the machine raises itself. -/
def exceptions (known : WellKnown) : List ClassId :=
  [known.nullPointerException, known.arrayIndexOutOfBoundsException,
    known.classNotFoundException, known.internalError, known.inputOutputException]

/-- The exception class of a name. -/
def exception? (known : WellKnown) (table : ClassTable) (name : String) : Option ClassId :=
  known.exceptions.find? fun id => table.nameOf id = name

end WellKnown

end ClassHost
