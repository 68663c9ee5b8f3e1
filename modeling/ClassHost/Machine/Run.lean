import ClassHost.Machine.Initialization
import ClassHost.Machine.Invocation
import ClassHost.Machine.Supervisor

/-!
# Running a machine

`perform` carries out one step with a given engine. Steps nest: an initialiser calls the engine,
which initialises another class, and so on. Each level of nesting takes one unit of fuel, so a run
that nests without end is `exhausted`; more fuel changes nothing about a run that is not.

A panic unwinds everything up to the end of the thread it happened on. The supervisor of a main
thread reports it like any other failure, and only after a main method that returned does it wait
for the other threads.
-/

namespace ClassHost

/-- Why a run stopped without a reply. -/
inductive Halt where
  | panicked
  /-- Nested too deeply for the fuel, or waiting for a thread that waits in its turn. -/
  | exhausted
  deriving Repr, DecidableEq

/-- A run that changes a machine and may stop. -/
abbrev Running (σ α : Type) := ExceptT Halt (StateM (Machine σ)) α

namespace Machine

variable {σ α : Type}

/-- Runs a thread to its end. What stops it, stops only the thread. -/
def onThread (body : Running σ (Except Fatal Unit)) : Running σ (Except Fatal Unit) := fun m =>
  let (result, m) := body { m with registry := m.registry.enter }
  let m := { m with registry := m.registry.leave }
  match result with
  | .ok reply => (.ok reply, m)
  | .error .panicked => (.ok (.error (.internal (.threadPanicked Procedure.mainThreadName))), m)
  | .error .exhausted => (.error .exhausted, m)

/-- Waits until no thread runs any more. -/
def awaitThreads : Running σ Unit := do
  modify Machine.settle
  if (← get).registry.running ≠ 0 then throw .exhausted

/-- Runs a main thread and, if all went well, waits for the threads it left behind. -/
def supervised (body : Running σ (Except Fatal Unit)) : Running σ (Except Fatal Unit) := do
  match ← onThread body with
  | .error fatal => return .error fatal
  | .ok () =>
    awaitThreads
    return .ok ()

/-- Carries out a step; `fuel` bounds how deeply steps nest. -/
def perform (engine : Engine σ) : Nat → (step : Step σ) → Running σ step.Reply
  | 0, _ => throw .exhausted
  | fuel + 1, step =>
    match step with
    | .request (.access access) => ExceptT.lift access.apply
    | .request (.initClass thread type) =>
      (Procedure.initialization thread type).run.run (perform engine fuel)
    | .request (.invoke thread method arguments) =>
      (Procedure.invocation thread method arguments).run.run (perform engine fuel)
    | .request (.boot thread arguments) =>
      (Procedure.booting thread arguments).run.run (perform engine fuel)
    | .request (.supervise entry arguments) =>
      supervised ((Procedure.mainThread entry arguments).run.run (perform engine fuel))
    | .request .panic => throw .panicked
    | .callEngine call => (engine.respond call).run fun request =>
      perform engine fuel (.request request)
    | .upkeep upkeep => ExceptT.lift upkeep.apply

def run (engine : Engine σ) (fuel : Nat) (guest : Guest σ α) : Running σ α :=
  guest.run fun request => perform engine fuel (.request request)

end Machine

end ClassHost
