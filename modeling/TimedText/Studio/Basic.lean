import TimedText.Studio.Engine
import TimedText.Render.Save
import TimedText.Session

/-!
# The studio

A session together with what its renders need: an engine, a font, a place for metrics, and a queue
of renders that wait for their turn. Where renders are deferred they wait until the queue is run,
else each has its turn at once.

The studio answers what a render requests. It notes whom it would have told, and what there was to
tell.
-/

namespace TimedText

/-- What whoever listens to a studio is told. -/
inductive Studio.Notice where
  | state (s : Render.State)
  | progress (percent : Double)
  | failure (message : Option String)
  deriving DecidableEq

/-- A session with an engine and everything else that renders need. -/
structure Studio where
  session : Session
  engine : Studio.Engine
  config : Render.Config
  /-- The font file, as its path is written. -/
  font : String
  /-- The disk with the font, the files that are written, and the directory of the engine. -/
  disk : Disk
  /-- Where paths start from. -/
  origin : PathText.Origin := {}
  metrics : Render.MetricsPolicy := {}
  stamp : Render.Metrics.Stamp := {}
  deferred : Bool := true
  queue : List Render.Run := []
  /-- Whom it may concern was told of these, since the notices were last taken. -/
  notices : List Studio.Notice := []
  /-- What there was to tell, since the records were last taken. -/
  records : List Log.Record := []

namespace Studio

open Render (Run Request Reply)

/-- Something was worth telling. -/
def log (s : Studio) (records : List Log.Record) : Studio :=
  { s with records := s.records ++ records }

/-- Whoever listens is told. -/
def tell (s : Studio) (n : Notice) : Studio := { s with notices := s.notices ++ [n] }

/-- The bytes of the font file. -/
def readFont (s : Studio) : Except Fault Bytes :=
  match s.disk.read (PathText.join (Path.ofTexts s.origin.directory) s.font) with
  | .ok data => .ok data
  | .error cause =>
    .error ⟨if cause = .permission then .permission else .os,
      (Disk.Error.mk cause (PathText.normalize s.font)).message, ""⟩

/-! ## Answering a render -/

/-- A result as the reply that says nothing more than that it is there. -/
def replyOf : Except Fault Unit → Reply
  | .ok () => .done
  | .error f => .fault f

/-- Bytes as a reply. -/
def replyOfBytes : Except Fault Bytes → Reply
  | .ok data => .bytes data
  | .error f => .fault f

/-- The answer to a request, other than that the engine should work. -/
def answer (s : Studio) : Request → Reply × Studio
  | .turn => (.done, s)
  | .readFont => (replyOfBytes s.readFont, s)
  | .stage name data =>
    let (result, engine, disk, records) := s.engine.stage s.disk name data
    (replyOf result, { s with engine, disk }.log records)
  | .tellState state => (.done, s.tell (.state state))
  | .encode _ => (.done, s)
  | .tellProgress percent => (.done, s.tell (.progress percent))
  | .read name => (replyOfBytes (s.engine.read s.disk name), s)
  | .tellFailure message => (.done, s.tell (.failure message))
  | .record m =>
    let (result, disk) := s.metrics.log s.disk s.stamp m
    (replyOf result, { s with disk })

/-- A reply reaches a render. -/
def resume (s : Studio) (r : Run) (reply : Reply) : Run × Studio :=
  let (orchestrator, r, records) := r.resume s.config s.session.orchestrator reply
  (r, { s with session := { s.session with orchestrator } }.log records)

/-- Answers so many requests of a render, up to the one that the engine should work. -/
def settle : Nat → Studio → Run → Run × Studio
  | 0, s, r => (r, s)
  | n + 1, s, r =>
    match r.request s.config with
    | none => (r, s)
    | some (.encode _) => (r, s)
    | some request =>
      let (reply, s) := s.answer request
      let (r, s) := s.resume r reply
      settle n s r

/-- A render makes no more than so many requests in a row without the engine. -/
def maxRequests : Nat := 8

/-- A line of the engine reaches a render. -/
def hear (rs : Run × Studio) (line : Encoder.Event) : Run × Studio :=
  let (r, s) := rs.2.resume rs.1 (.line line.kind line.message)
  settle 1 s r

/-- Up to the work of the engine: the render and what it asks the engine for, unless it is over
before. -/
def beginRun (s : Studio) (r : Run) : Run × Option (List String) × Studio :=
  let (r, s) := settle maxRequests s r
  match r.request s.config with
  | some (.encode arguments) => (r, some arguments, { s with engine := s.engine.ask arguments })
  | _ => (r, none, s)

/-- The work of the engine and everything behind it. -/
def endRun (s : Studio) (r : Run) (arguments : List String) : Run × Studio :=
  let (lines, result, engine, disk) := s.engine.work s.disk arguments
  let (r, s) := lines.foldl hear (r, { s with engine, disk })
  let (r, s) := s.resume r (replyOf result)
  settle maxRequests s r

/-- What a render has come to, once it is over. -/
def outcomeOf (r : Run) : Render.Outcome := r.outcome?.getD (.ok none)

/-- A whole render. -/
def run (s : Studio) (r : Run) : Render.Outcome × Studio :=
  match s.beginRun r with
  | (r, none, s) => (outcomeOf r, s)
  | (r, some arguments, s) =>
    let (r, s) := s.endRun r arguments
    (outcomeOf r, s)

/-! ## Changes of the session -/

/-- Adds a cue; answers where it stands. -/
def addCue (s : Studio) (c : Cue) : Nat × Studio :=
  let (index, session, records) := s.session.addCue c
  (index, { s with session }.log records)

/-- The player knows the duration. -/
def setDuration (s : Studio) (d : Double) : Studio :=
  let (session, records) := s.session.setDuration d
  { s with session }.log records

/-- What is left to do of a command of the session; the outcome if a render was made. -/
def complete (s : Studio) : Session.Pending → Option Render.Outcome × Studio
  | .return => (none, s)
  | .loaded size => (none, s.log [Session.loadedRecord size])
  | .submit r =>
    if s.deferred then (none, { s with queue := s.queue ++ [r] })
    else
      let (outcome, s) := s.run r
      (some outcome, s)

/-- A change of the session: what there is to tell is told, and the rest is done. -/
def change (s : Studio) (c : Session.Change) : Option Render.Outcome × Studio :=
  let s := { s with session := c.session }.log c.records
  let s := match c.told with
    | none => s
    | some state => s.tell (.state state)
  s.complete c.pending

/-- Loads another video. -/
def upload (s : Studio) (data : Bytes) : Studio := (s.change (s.session.upload data)).2

/-- Whether a render was accepted, and its outcome if it was made. -/
structure Acceptance where
  accepted : Bool
  result : Option Render.Outcome := none

/-- What a request to render comes to. -/
def beginRender (s : Studio) : Session.Start → Except Session.Error Acceptance × Studio
  | .refused => (.error .noVideo, s)
  | .ignored records => (.ok { accepted := false }, s.log records)
  | .accepted c =>
    let (result, s) := s.change c
    (.ok { accepted := true, result }, s)

/-- Asks for a render of the committed cues and the loaded video. -/
def startRender (s : Studio) : Except Session.Error Acceptance × Studio :=
  s.beginRender s.session.startRender

end Studio

end TimedText
