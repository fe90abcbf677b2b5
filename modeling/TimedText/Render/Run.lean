import TimedText.Render.Orchestrator
import TimedText.Render.Metrics
import TimedText.Sanitize
import TimedText.Progress

/-!
# One render

A render stages the video and the font, compiles the cues it was given when it was accepted, lets
the encoder work, and reads the result. It never acts by itself: `request` says what it wants from
outside next, and `resume` takes the reply, so that everything that can happen to a render is a list
of replies.

Whoever listens is told of each state after it is entered. A fault on the way to the result makes
the render fail; a fault while the failure is being told is the outcome itself.
-/

namespace TimedText.Render

/-- What a render wants from outside. -/
inductive Request where
  /-- To be given the turn. -/
  | turn
  | readFont
  | stage (name : String) (data : Bytes)
  | tellState (s : State)
  /-- To let the encoder work. It is wanted again after each line that the encoder tells. -/
  | encode (arguments : List String)
  | tellProgress (percent : Double)
  | read (name : String)
  | tellFailure (message : Option String)
  | record (m : Metrics)
  deriving Inhabited

/-- What comes back from outside. -/
inductive Reply where
  | done
  | bytes (data : Bytes)
  /-- A log event of the encoder while it works. -/
  | line (kind message : String)
  | fault (f : Fault)
  deriving DecidableEq

/-- How a render ends: with a video or without one, or by a fault that nobody took care of. -/
abbrev Outcome := Except Fault (Option Artifact)

/-- Where a render stands: what it waits for. -/
inductive Point where
  | queued
  | readingFont
  | stagingSource (font : Bytes)
  | stagingFont (font : Bytes)
  | enteringCompiling
  | enteringEncoding (graph : Filter.Graph)
  | encoding (graph : Filter.Graph)
  | reporting (graph : Filter.Graph) (percent : Double)
  | reading
  | enteringDone
  | enteringFailed
  | tellingFailure (message : Option String)
  | recording (outcome : Outcome)
  | finished (outcome : Outcome)

/-- A render: the video and the cues it was given, what it notes down, and where it stands. -/
structure Run where
  source : Bytes
  cues : List Cue
  metrics : Metrics
  point : Point := .queued

namespace Run

/-- A render that waits for its turn. -/
def queue (source : Bytes) (cues : List Cue) : Run where
  source := source
  cues := cues
  metrics := { cueCount := cues.length, inputBytes := source.length }

/-- What a render wants next; nothing once it is over. -/
def request (c : Config) (r : Run) : Option Request :=
  match r.point with
  | .queued => some .turn
  | .readingFont => some .readFont
  | .stagingSource _ => some (.stage Filter.inputName r.source)
  | .stagingFont font => some (.stage c.font font)
  | .enteringCompiling => some (.tellState .compiling)
  | .enteringEncoding _ => some (.tellState .encoding)
  | .encoding graph => some (.encode graph.encoderArguments)
  | .reporting _ percent => some (.tellProgress percent)
  | .reading => some (.read Filter.outputName)
  | .enteringDone => some (.tellState .done)
  | .enteringFailed => some (.tellState .failed)
  | .tellingFailure message => some (.tellFailure message)
  | .recording _ => some (.record r.metrics)
  | .finished _ => none

/-- What a step leaves: what is readable, the render, and what is worth telling. -/
abbrev Step := Orchestrator × Run × List Log.Record

/-- The render at another point. -/
def goto (r : Run) (p : Point) : Run := { r with point := p }

/-- The time of a step is noted. How long it took is not followed here. -/
def ended (r : Run) (name : String) : Run := { r with metrics := r.metrics.step name .zero }

/-- The end of a diagnosis that is told with a failure. -/
def diagnosticTail (s : String) : String :=
  String.ofList (s.toList.drop (s.toList.length - 2000))

/-- What is told about a fault. -/
def faultRecord (o : Orchestrator) (f : Fault) : Log.Record :=
  if f.isExpected then
    { Log.record .error .render ("Render failed during " ++ o.state.name ++ ": " ++ f.message) with
      data :=
        if f.diagnostic = "" then none
        else some (.dict [("diagnostic", .str (diagnosticTail f.diagnostic))]) }
  else
    { Log.record .error .render ("Unexpected error during " ++ o.state.name) with
      exception := some (.ofFault f) }

/-- What a user is told about a fault. -/
def failureMessage (f : Fault) : String :=
  Sanitize.message ("Video processing failed: " ++ f.message)

/-- The render fails. -/
def fail (o : Orchestrator) (r : Run) (f : Fault) : Step :=
  let told := faultRecord o f
  let o := { o with failure := some (failureMessage f), artifact := none }
  let (o, records) := o.enter .failed
  (o, { r with metrics := { r.metrics with error := some f.message }, point := .enteringFailed },
    told :: records)

/-- The render is over but for its row. -/
def close (o : Orchestrator) (r : Run) (outcome : Outcome) : Step :=
  (o, { r with metrics := r.metrics.finish .zero, point := .recording outcome }, [])

/-- Staging is over; the next state is entered. -/
def enterCompiling (o : Orchestrator) (r : Run) : Step :=
  let (o, records) := o.enter .compiling
  (o, (r.ended "staging").goto .enteringCompiling, records)

/-- The expression of cues, or the fault that it cannot be written. -/
def compiled (c : Config) (cues : List Cue) : Except Fault Filter.Graph :=
  (Filter.compile? c.font c.box (cues.map Cue.values)).mapError Filter.Obstacle.fault

/-- The cues are compiled; the next state is entered. -/
def beginEncoding (o : Orchestrator) (r : Run) (graph : Filter.Graph) : Step :=
  let quiet :=
    if graph.isEmpty then
      [Log.record .info .render "No visible cues; encoding without an overlay stage"]
    else []
  let r := r.ended "compile"
  let r := { r with metrics := { r.metrics with filterStage := !graph.isEmpty } }
  let (o, records) := o.enter .encoding
  (o, r.goto (.enteringEncoding graph), quiet ++ records)

/-- Whoever listens was told of compiling, and the cues are compiled. -/
def compile (c : Config) (o : Orchestrator) (r : Run) : Step :=
  match compiled c r.cues with
  | .ok graph => beginEncoding o r graph
  | .error f => fail o (r.ended "compile") f

/-- The encoder told a line; progress is passed on if someone wants to know. -/
def hear (c : Config) (o : Orchestrator) (r : Run) (graph : Filter.Graph) (kind message : String) :
    Step :=
  let told := [Log.record .debug .render ("transcoder " ++ kind ++ ": " ++ message)]
  match if c.reportsProgress then Progress.ofLine? message (some o.total) else none with
  | some percent => (o, r.goto (.reporting graph percent), told)
  | none => (o, r.goto (.encoding graph), told)

/-- The result is there; the last state is entered. -/
def enterDone (o : Orchestrator) (r : Run) (data : Bytes) : Step :=
  let r := r.ended "encode"
  let r := { r with metrics := { r.metrics with outputBytes := some data.length } }
  let (o, records) := { o with artifact := some { data } }.enter .done
  (o, r.goto .enteringDone, records)

/-- The fault that a result which cannot be read comes to. -/
def outputFault (f : Fault) : Fault :=
  if f.kind = .notFound then ⟨.encode, "Output missing after encode: " ++ f.message, ""⟩ else f

/-- The fault that a font which cannot be read comes to. -/
def fontFault (f : Fault) : Fault :=
  if f.kind.isSystem then ⟨.staging, "Font resource unreadable: " ++ f.message, ""⟩ else f

/-- What a reply leads to. Replies to something else leave everything as it is. -/
def resume (c : Config) (o : Orchestrator) (r : Run) (reply : Reply) : Step :=
  match r.point, reply with
  | .queued, .done =>
    (o, { r with metrics := { r.metrics with duration := .double o.total }, point := .readingFont },
      [])
  | .readingFont, .bytes font => (o, r.goto (.stagingSource font), [])
  | .readingFont, .fault f => fail o (r.ended "staging") (fontFault f)
  | .stagingSource font, .done => (o, r.goto (.stagingFont font), [])
  | .stagingSource _, .fault f => fail o (r.ended "staging") f
  | .stagingFont _, .done => enterCompiling o r
  | .stagingFont _, .fault f => fail o (r.ended "staging") f
  | .enteringCompiling, .done => compile c o r
  | .enteringCompiling, .fault f => fail o r f
  | .enteringEncoding graph, .done => (o, r.goto (.encoding graph), [])
  | .enteringEncoding _, .fault f => fail o r f
  | .encoding graph, .line kind message => hear c o r graph kind message
  | .encoding _, .done => (o, r.goto .reading, [])
  | .encoding _, .fault f => fail o (r.ended "encode") f
  | .reporting graph _, .done => (o, r.goto (.encoding graph), [])
  -- the encoder, which told the line, decides what becomes of the fault
  | .reporting graph _, .fault _ => (o, r.goto (.encoding graph), [])
  | .reading, .bytes data => enterDone o r data
  | .reading, .fault f => fail o (r.ended "encode") (outputFault f)
  | .enteringDone, .done => close o r (.ok o.artifact)
  | .enteringDone, .fault f => fail o r f
  | .enteringFailed, .done => (o, r.goto (.tellingFailure o.failure), [])
  | .enteringFailed, .fault f => close o r (.error f)
  | .tellingFailure _, .done => close o r (.ok none)
  | .tellingFailure _, .fault f => close o r (.error f)
  | .recording outcome, .done => (o, r.goto (.finished outcome), [])
  | .recording _, .fault f => (o, r.goto (.finished (.error f)), [])
  | _, _ => (o, r, [])

/-- How the render ended, once it is over. -/
def outcome? (r : Run) : Option Outcome :=
  match r.point with
  | .finished outcome => some outcome
  | _ => none

end Run

end TimedText.Render
