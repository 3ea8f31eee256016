import Intake.Action
import Intake.Event

/-!
# Event logs

What a log of events and sightings can do, whatever keeps it. The log that keeps nothing takes every
write and finds nothing.
-/
namespace Intake

/-- Which ingestions a question is about. -/
inductive Scope where
  /-- The ingestion of an id. -/
  | exactly (id : String)
  /-- The ingestions whose ids start with a text. -/
  | startingWith (text : String)
  deriving DecidableEq, Repr, Inhabited

def Scope.text : Scope → String
  | exactly s => s
  | startingWith s => s

/-- A log of events and sightings, kept in a state of type `σ`. -/
structure EventLog (σ : Type) where
  insertEvent : Event → Action σ Unit
  insertSighting : Sighting → Action σ Unit
  events : Scope → Action σ (List Event)
  sightings : Scope → Action σ (List Sighting)
  /-- Removes all of a blob, and gives the number of what is gone. -/
  purge : String → Action σ Nat

def EventLog.nothing (σ : Type) : EventLog σ where
  insertEvent _ := pure ()
  insertSighting _ := pure ()
  events _ := pure []
  sightings _ := pure []
  purge _ := pure 0

end Intake
