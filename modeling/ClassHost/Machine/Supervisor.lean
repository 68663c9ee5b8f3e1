import ClassHost.Machine.Boot

/-!
# The main thread

A program runs on a main thread of its own: the thread starts the machine, finds the entry class,
initialises it and invokes its main method with the program's arguments.
-/

namespace ClassHost.Procedure

variable {σ : Type}

/-- The name of the main thread. -/
def mainThreadName : String := "JavaMainThread"

/-- The method that a program starts with. -/
def mainKey : MethodKey := ⟨"main", ⟨[.array (.object CoreName.string)], .base .void⟩⟩

/-- The entry class, found by name or defined from bytes. -/
def entryType : EntryClass → Procedure σ Fatal ClassId
  | .named name => loadRequired name
  | .ofBytes bytes => orFatal (.load Loader.streamName) (loadBytes bytes)

/-- What the main thread does. -/
def mainThread (entry : EntryClass) (arguments : List String) : Procedure σ Fatal Unit := do
  let thread ← access (.newThread mainThreadName)
  boot thread arguments
  let type ← entryType entry
  let main ← declared .static type mainKey
  initialized thread type
  let array ← orFatal (.load CoreName.stringArray) (newStringArray arguments)
  let m ← observe
  let _ ← orFatal (.uncaughtException (m.className type)) (invoke thread main [.object array])

end ClassHost.Procedure
