import ClassHost.Machine.Initialization
import ClassHost.Proofs.Machine.Frame

/-!
# The calls of a stretch of the journal

Calls to the engine nest: what the engine asks for may call it again. `ownCalls` picks from a
journal the calls that are not inside another one, which are those that were made for the sake of
whoever began. Initialisers are left out, since they are called for the sake of their class. That
the journal has the calls that the marks of a run are about is `Machine.events_run`.

A stretch of events is `Closed` if every call in it returns in it. Such stretches can be put one
after the other, and their own calls with them (`Closed.append`), and a closed stretch inside a call
shows nothing of its own (`Closed.call`). `Evolves` is how a machine gets on by closed stretches.
-/

namespace ClassHost

/-- What has happened so far. -/
def Machine.events {σ : Type} (m : Machine σ) : List Event := m.journal.toList

theorem Machine.events_note {σ : Type} (event : Event) (m : Machine σ) :
    (m.note event).events = m.events ++ [event] := by
  simp [events, note]

/-- The call runs the initialiser of a class. -/
def Call.isInitializer (call : Call) : Bool := call.method.key = Procedure.initializerKey

/-- A call as part of a list of own calls. -/
def Call.own (call : Call) : List Call := if call.isInitializer then [] else [call]

theorem Call.own_of_ne {call : Call} (h : call.method.key ≠ Procedure.initializerKey) :
    call.own = [call] := by
  rw [own, isInitializer, decide_eq_false h]
  rfl

/-- The calls that are made at no depth, seen from a depth on. -/
def ownCalls : Nat → List Event → List Call
  | _, [] => []
  | 0, .called call :: events => call.own ++ ownCalls 1 events
  | depth + 1, .called _ :: events => ownCalls (depth + 2) events
  | depth, .returned _ :: events => ownCalls (depth - 1) events

/-- All calls in a stretch of events return in it, and these are its own. -/
def Closed (calls : List Call) (events : List Event) : Prop :=
  ∀ depth rest, ownCalls depth (events ++ rest) =
    (if depth = 0 then calls else []) ++ ownCalls depth rest

namespace Closed

variable {calls calls' : List Call} {events events' : List Event}

theorem nil : Closed [] [] := by
  intro depth rest
  simp

theorem append (h : Closed calls events) (h' : Closed calls' events') :
    Closed (calls ++ calls') (events ++ events') := by
  intro depth rest
  rw [List.append_assoc, h, h']
  split <;> simp

/-- A call, what happens inside, and its return. -/
theorem call {call : Call} (h : Closed calls events) (succeeded : Bool) :
    Closed call.own (.called call :: (events ++ [.returned succeeded])) := by
  intro depth rest
  cases depth with
  | zero => simp [ownCalls, h 1]
  | succ depth => simp [ownCalls, h (depth + 2)]

theorem ownCalls_eq (h : Closed calls events) : ownCalls 0 events = calls := by
  have hrest := h 0 []
  simpa [ownCalls] using hrest

end Closed

end ClassHost
