import ClassHost.ClassTable

/-!
# Overrides

Some methods of the core library are not run by the engine but by the machine itself. They come in
modules, one for a class; a call is looked up by class name and method key.
-/

namespace ClassHost

/-- What the machine does in place of a method. -/
inductive Override where
  /-- Makes a stream encoder with the default charset, whatever charset was asked for. -/
  | newStreamEncoder
  /-- Loads no native library and returns. -/
  | skipLibrary
  deriving Repr, DecidableEq

/-- The overrides of one class. -/
inductive OverrideModule where
  | streamEncoder
  | system
  deriving Repr, DecidableEq

namespace OverrideModule

/-- The class whose methods are replaced. -/
def className : OverrideModule → String
  | streamEncoder => "sun/nio/cs/StreamEncoder"
  | system => "java/lang/System"

/-- The key of a method that takes a text and returns nothing. -/
def textConsumer (name : String) : MethodKey :=
  ⟨name, ⟨[.object "java/lang/String"], .base .void⟩⟩

def methods : OverrideModule → List (MethodKey × Override)
  | streamEncoder =>
    [(⟨"forOutputStreamWriter",
        ⟨[.object "java/io/OutputStream", .object "java/lang/Object", .object "java/lang/String"],
          .object "sun/nio/cs/StreamEncoder"⟩⟩, .newStreamEncoder)]
  | system => [(textConsumer "load", .skipLibrary), (textConsumer "loadLibrary", .skipLibrary)]

/-- The modules that come with the machine, in the order in which they are put in. -/
def builtin : List OverrideModule := [streamEncoder, system]

end OverrideModule

/-- The modules that are in place, one for a class. -/
structure Overrides where
  modules : List OverrideModule
  deriving Repr, DecidableEq

namespace Overrides

def empty : Overrides := ⟨[]⟩

/-- Puts a module in, in place of one for the same class. -/
def install (overrides : Overrides) (entry : OverrideModule) : Overrides :=
  ⟨overrides.modules.filter (fun other => other.className ≠ entry.className) ++ [entry]⟩

/-- The override of a method, if there is one. -/
def find? (overrides : Overrides) (className : String) (key : MethodKey) : Option Override :=
  match overrides.modules.find? fun entry => entry.className = className with
  | some entry => entry.methods.lookup key
  | none => none

def count (overrides : Overrides) : Nat :=
  (overrides.modules.flatMap OverrideModule.methods).length

end Overrides

end ClassHost
