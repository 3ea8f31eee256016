import Intake.Outside

/-!
# Transcripts

A transcript keeps every line that the tools of one attempt print, and forwards some of them as signs of
life: the first, and then each one that comes more than a throttle after the last one forwarded.
-/
namespace Intake

/-- The lines printed so far, and when a line was forwarded last. -/
structure Transcript where
  lines : List String
  lastNote : Option Float
  deriving DecidableEq, Repr, Inhabited

namespace Transcript

def empty : Transcript := ⟨[], none⟩

/-- The seconds between two signs of life unless something else is asked for. -/
def defaultThrottle : Float := 5.0

/-- Whether a line that comes at `now` is to be forwarded. -/
def due (throttle : Float) (last : Option Float) (now : Float) : Bool :=
  match last with
  | none => true
  | some last => decide (throttle < now - last)

def text (t : Transcript) : String := "\n".intercalate t.lines

/-- Forwards a line. One that the event log does not take is dropped. -/
def forward (send : Option (String → Action Outside Unit)) (line : String) : Action Outside Unit :=
  match send with
  | none => pure ()
  | some send => (send line).onFault fun e => if e.kind = .storageWrite then pure () else .fail e

/-- Takes a line. It is kept, and its time counts, whatever becomes of forwarding it. -/
def append (throttle : Float) (send : Option (String → Action Outside Unit)) (line : String) :
    Action (Outside × Transcript) Unit := do
  .second (.modify fun t => { t with lines := t.lines ++ [line] })
  let now ← .first Outside.readClock
  let t ← .second .get
  if due throttle t.lastNote now then
    .second (.modify fun t => { t with lastNote := some now })
    .first (forward send line)

end Transcript

end Intake
