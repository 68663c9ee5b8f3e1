import ClassHost.Machine.Request

/-!
# Invoking methods

A call goes to the machine itself if the method is overridden and to the engine otherwise.
-/

namespace ClassHost.Procedure

variable {σ : Type}

/-- The constructor of an encoder that writes to a stream with a lock and a charset. -/
def encoderConstructor : MethodKey :=
  ⟨"<init>", ⟨[.object "java/io/OutputStream", .object "java/lang/Object",
    .object "java/nio/charset/Charset"], .base .void⟩⟩

/-- Makes a stream encoder of the called method's class. The charset that was asked for is
ignored and every encoder gets the default one. -/
def newStreamEncoder (thread : ThreadId) (method : MethodRef) (arguments : List Value) :
    Procedure σ Throwable (Option Value) := do
  let out := arguments.getD 0 .null
  let lock := arguments.getD 1 .null
  if out = .null then
    throw (.runtime (← raise (.nullPointer "StreamEncoder.forOutputStreamWriter: out")))
  let m ← observe
  let some charset := m.charset | throw (.internal .noDefaultCharset)
  let some constructor := m.table.method? .nonStatic method.declaring encoderConstructor
    | throw (.internal (.noCharsetConstructor (m.className method.declaring)))
  initClass thread method.declaring
  let encoder ← newInstance method.declaring
  let _ ← invoke thread constructor [.object encoder, out, lock, .object charset]
  return some (.object encoder)

def runOverride (thread : ThreadId) (method : MethodRef) (arguments : List Value) :
    Override → Procedure σ Throwable (Option Value)
  | .newStreamEncoder => newStreamEncoder thread method arguments
  | .skipLibrary => return none

def invocation (thread : ThreadId) (method : MethodRef) (arguments : List Value) :
    Procedure σ Throwable (Option Value) := do
  let m ← observe
  match m.overrides.find? (m.className method.declaring) method.key with
  | some entry => runOverride thread method arguments entry
  | none =>
    let call : Call := ⟨thread, method, arguments⟩
    upkeep (.note (.called call))
    match ← outcome (callEngine call) with
    | .ok result =>
      upkeep (.note (.returned true))
      return result
    | .error error =>
      upkeep (.note (.returned false))
      throw error

end ClassHost.Procedure
