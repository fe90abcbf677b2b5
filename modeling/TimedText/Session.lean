import TimedText.Cue.Build
import TimedText.Timeline
import TimedText.Clock
import TimedText.Preview
import TimedText.Number
import TimedText.Render.Run

/-!
# The editing session

One timeline, one clock, one video and the state of rendering, with the commands that an editor
gives. A command that fails leaves the session as it was. Commands that change the state of
rendering do not return at once: whoever listens is told first, and a `Pending` says what is still
to be done after that.
-/

namespace TimedText

/-- What an editor works on. -/
structure Session where
  timeline : Timeline := {}
  clock : Clock
  source : Option Bytes := none
  orchestrator : Render.Orchestrator := {}
  deriving Inhabited

namespace Session

/-- Why a command fails. -/
inductive Error where
  | invalidCue (issues : List Field.Issue)
  | outOfRange (e : Timeline.OutOfRange)
  | noVideo
  deriving DecidableEq

/-- A session that is opened on a timeline. A timeline without cues gives way to a new one. -/
def openOn (clock : Clock) (timeline : Timeline) : Session where
  timeline := if timeline.cues.isEmpty then {} else timeline
  clock := clock

/-- The cues of the live preview. -/
def effectiveCues (s : Session) : List Cue := s.timeline.effectiveCues

/-- The cues on screen. -/
def visibleCues (s : Session) : List Cue := Preview.visible s.effectiveCues s.clock.time

/-! ## Cues -/

/-- A warning about a cue that reaches past the known duration. -/
def pastEnd (s : Session) (c : Cue) : List Log.Record :=
  if c.exceeds s.clock.duration then
    [Log.record .warning .editor ("Cue " ++ c.label ++ " extends past the video duration ("
      ++ s.clock.duration.fixed 3 ++ "s); kept as entered")]
  else []

/-- What is told about a cue that was added. -/
def addedRecord (index : Nat) (c : Cue) : Log.Record :=
  Log.record .debug .timeline ("Added cue " ++ toString index ++ ": " ++ c.label)

/-- Adds a cue; answers where it stands. -/
def addCue (s : Session) (c : Cue) : Nat × Session × List Log.Record :=
  let (index, timeline) := s.timeline.add c
  (index, { s with timeline }, s.pastEnd c ++ [addedRecord index c])

/-- Lets the draft edit a committed cue. -/
def beginEdit (s : Session) (index : Int) : Except Error Session :=
  match s.timeline.beginEdit index with
  | .ok timeline => .ok { s with timeline }
  | .error e => .error (.outOfRange e)

/-- Gives the draft up. -/
def cancelEdit (s : Session) : Session := { s with timeline := s.timeline.cancelEdit }

/-- The number that a raw value is, text not being read as one. -/
def numberOf? : Raw → Option Number
  | .bool b => some (.whole b.toNat)
  | .int i => some (.whole i)
  | .float d => some (.double d)
  | _ => none

/-- Where only one end of a span is given and lies past the other, the other is dragged along. -/
def dragged (draft : Cue) (fields : Fields) : Fields :=
  let start := (fields.lookup "start_time").getD (.float draft.start)
  let stop := (fields.lookup "end_time").getD (.float draft.stop)
  match numberOf? start, numberOf? stop with
  | some a, some b =>
    if b.lt a then
      if (fields.lookup "end_time").isNone then fields ++ [("end_time", start)]
      else if (fields.lookup "start_time").isNone then fields ++ [("start_time", stop)]
      else fields
    else fields
  | _, _ => fields

/-- Changes fields of the draft; answers the new draft. -/
def updateDraft (s : Session) (fields : Fields) : Except Error (Cue × Session) :=
  match s.timeline.draft.replace (dragged s.timeline.draft fields) with
  | .ok draft => .ok (draft, { s with timeline := s.timeline.setDraft draft })
  | .error issues => .error (.invalidCue issues)

/-- Starts the draft where the player is. -/
def stamp (s : Session) : Except Error (Cue × Session) :=
  let (start, stop) := s.clock.seedRange
  s.updateDraft [("start_time", .float start), ("end_time", .float stop)]

/-- Writes the draft into the timeline. The second part is told even if that fails. -/
def commitDraft (s : Session) : Except Error (Option Nat × Session) × List Log.Record :=
  let warned := s.pastEnd s.timeline.draft
  match s.timeline.commitDraft with
  | .error e => (.error (.outOfRange e), warned)
  | .ok (index, timeline) =>
    let added :=
      match s.timeline.target, index with
      | none, some i => [addedRecord i s.timeline.draft]
      | _, _ => []
    (.ok (index, { s with timeline }), warned ++ added)

/-- Takes a cue out; answers it. An edit of that cue or one behind it is given up. -/
def deleteCue (s : Session) (index : Int) : Except Error (Cue × Session) :=
  match s.timeline.delete index with
  | .error e => .error (.outOfRange e)
  | .ok (cue, timeline) =>
    let timeline :=
      match timeline.target with
      | some target => if index ≤ target then timeline.cancelEdit else timeline
      | none => timeline
    .ok (cue, { s with timeline })

/-! ## The player -/

/-- The player is somewhere else. -/
def setTime (s : Session) (t : Double) : Session := { s with clock := s.clock.setTime t }

/-- The player knows the duration. -/
def setDuration (s : Session) (d : Double) : Session × List Log.Record :=
  ({ s with clock := s.clock.setDuration d },
    [Log.record .info .playback ("Video duration resolved: " ++ d.fixed 3 ++ "s")])

/-! ## Rendering -/

/-- What is still to be done after whoever listens has been told of a state. -/
inductive Pending where
  /-- Nothing but to return. -/
  | return
  /-- To say that a video of this size was loaded. -/
  | loaded (size : Nat)
  /-- To hand on the work of a render. -/
  | submit (run : Render.Run)

/-- What a command that may change the state of rendering comes to. -/
structure Change where
  session : Session
  records : List Log.Record
  /-- The state that whoever listens is told of, before the rest is done. -/
  told : Option Render.State
  pending : Pending

/-- What is told about a loaded video. -/
def loadedRecord (size : Nat) : Log.Record :=
  Log.record .info .editor ("Loaded source video (" ++ toString size ++ " bytes)")

/-- Forgets the last result. -/
def reset (s : Session) (pending : Pending) : Change :=
  match s.orchestrator.reset with
  | .quiet orchestrator => ⟨{ s with orchestrator }, [], none, pending⟩
  | .told orchestrator records => ⟨{ s with orchestrator }, records, some .idle, pending⟩

/-- Loads another video. -/
def upload (s : Session) (data : Bytes) : Change :=
  { s with source := some data, clock := s.clock.reset }.reset (.loaded data.length)

/-- What a request to render comes to. -/
inductive Start where
  | refused
  | ignored (records : List Log.Record)
  | accepted (change : Change)

/-- Begins a render of given cues and a given video. -/
def start (s : Session) (source : Option Bytes) (cues : List Cue) (total : Double) : Start :=
  match s.orchestrator.start source total with
  | .refused => .refused
  | .ignored records => .ignored records
  | .accepted orchestrator records =>
    .accepted ⟨{ s with orchestrator }, records, some .staging,
      .submit (Render.Run.queue (source.getD []) cues)⟩

/-- Begins a render of the committed cues and the loaded video. -/
def startRender (s : Session) : Start := s.start s.source s.timeline.cues s.clock.duration

end Session

end TimedText
