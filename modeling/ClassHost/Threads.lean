import ClassHost.Object.Value
import ClassHost.Fault

/-!
# Threads

A control block gives a thread a name, a handle, and once, a peer: the object that stands for it in
the running program. The registry counts the threads that run; whoever waits for all of them waits
for the count to reach zero.

Workers run beside the rest, and what becomes visible of one is what it does to the engine's
memory when it ends. Until the registry is told that it ended, it counts as running.
-/

namespace ClassHost

/-- A thread's control block, by its place among those made. -/
structure ThreadId where
  index : Nat
  deriving Repr, DecidableEq, Inhabited

/-- A thread's control block. -/
structure ThreadBlock where
  name : String
  handle : Int64
  peer : Option ObjectId
  deriving Repr, DecidableEq

/-- Records the peer of a thread, once. -/
def ThreadBlock.attach (thread : ThreadBlock) (peer : ObjectId) : Except Throwable ThreadBlock :=
  match thread.peer with
  | some _ => .error (.internal (.peerAlreadySet thread.name))
  | none => .ok { thread with peer := some peer }

/-- The priority of an ordinary thread. -/
def normalPriority : Int32 := 5

/-- A launched thread that has not ended, and what it does to the engine's memory `σ`. -/
structure Worker (σ : Type) where
  name : String
  effect : σ → σ

/-- How many threads run, and which of them are workers. -/
structure Registry (σ : Type) where
  running : Nat
  workers : List (Worker σ)

namespace Registry

variable {σ : Type}

def empty : Registry σ := ⟨0, []⟩

def enter (registry : Registry σ) : Registry σ :=
  { registry with running := registry.running + 1 }

def leave (registry : Registry σ) : Registry σ :=
  { registry with running := registry.running - 1 }

/-- Launches a worker. -/
def launch (registry : Registry σ) (worker : Worker σ) : Registry σ :=
  { registry.enter with workers := registry.workers ++ [worker] }

/-- Every worker ends, in the order of their launch. -/
def settle (registry : Registry σ) (memory : σ) : Registry σ × σ :=
  (⟨registry.running - registry.workers.length, []⟩,
    registry.workers.foldl (fun memory worker => worker.effect memory) memory)

end Registry

end ClassHost
