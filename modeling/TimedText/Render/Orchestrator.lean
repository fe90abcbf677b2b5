import TimedText.Filter.Clause
import TimedText.Fault
import TimedText.Log.Record
import TimedText.Disk.Basic

/-!
# The state of rendering

One render at a time goes from idle over staging, compiling and encoding to done or failed. What it
made, or why it failed, stays readable until the next one begins or everything is reset.
-/

namespace TimedText.Render

/-- How far a render has come. -/
inductive State where
  | idle
  | staging
  | compiling
  | encoding
  | done
  | failed
  deriving DecidableEq, Repr

namespace State

/-- The name of a state. -/
def name : State → String
  | .idle => "idle"
  | .staging => "staging"
  | .compiling => "compiling"
  | .encoding => "encoding"
  | .done => "done"
  | .failed => "failed"

/-- Whether a render is under way. -/
def isInFlight : State → Bool
  | .staging | .compiling | .encoding => true
  | .idle | .done | .failed => false

end State

/-- A finished video. -/
structure Artifact where
  name : String := Filter.outputName
  data : Bytes
  mime : String := "video/mp4"
  deriving DecidableEq

/-- What is readable about rendering, and the duration that progress is measured against. -/
structure Orchestrator where
  state : State := .idle
  artifact : Option Artifact := none
  failure : Option String := none
  total : Double := .zero
  deriving DecidableEq, Inhabited

/-- What every render of a studio is given. -/
structure Config where
  /-- The name of the font file. -/
  font : String
  box : Filter.Box := {}
  /-- Whether someone wants to know about progress. -/
  reportsProgress : Bool := true
  deriving DecidableEq

namespace Orchestrator

/-- Whether a render is under way. -/
def isInFlight (o : Orchestrator) : Bool := o.state.isInFlight

/-- Goes to another state, and tells so. Whoever listens is told next. -/
def enter (o : Orchestrator) (s : State) : Orchestrator × List Log.Record :=
  ({ o with state := s },
    [Log.record .info .render ("Render state: " ++ o.state.name ++ " -> " ++ s.name)])

/-- What a request to reset comes to. -/
inductive Reset where
  /-- Nothing is told: a render is under way, or everything was idle already. -/
  | quiet (o : Orchestrator)
  /-- The state becomes idle, and whoever listens is told. -/
  | told (o : Orchestrator) (records : List Log.Record)

/-- Forgets the last result. A render under way is not disturbed. -/
def reset (o : Orchestrator) : Reset :=
  if o.isInFlight then .quiet o
  else
    let o := { o with artifact := none, failure := none }
    if o.state = .idle then .quiet o
    else
      let (o, records) := o.enter .idle
      .told o records

/-- What a request to render comes to. -/
inductive Start where
  /-- There is no video to render. -/
  | refused
  /-- A render is under way; nothing changes. -/
  | ignored (records : List Log.Record)
  /-- The state becomes staging, whoever listens is told, and the work is handed on. -/
  | accepted (o : Orchestrator) (records : List Log.Record)

/-- Begins a render of a video, if there is one and no other render is under way. -/
def start (o : Orchestrator) (source : Option Bytes) (total : Double) : Start :=
  match source with
  | none => .refused
  | some _ =>
    if o.isInFlight then
      .ignored [Log.record .info .render
        ("Render already in progress (" ++ o.state.name ++ "); ignoring request")]
    else
      let (o, records) := { o with artifact := none, failure := none, total }.enter .staging
      .accepted o records

/-- What is said when there is no video to render. -/
def noVideoMessage : String := "Upload a video before rendering"

end Orchestrator

end TimedText.Render
