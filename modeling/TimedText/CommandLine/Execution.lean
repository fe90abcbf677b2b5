import TimedText.CommandLine.Request
import TimedText.Settings.Basic
import TimedText.Studio.Basic
import TimedText.Probe
import TimedText.Log.Line
import TimedText.Log.Threshold

/-!
# Carrying out a command line

A command line is carried out in given surroundings: settings, files, and the programs that encode
and probe. What it comes to is an exit status or a failure, together with everything that was
written, which programs were started, and the files that are left. What was written before a
failure stays written.
-/

namespace TimedText.CommandLine

/-- What a command line is carried out in. -/
structure Surroundings where
  settings : Settings
  place : Place
  /-- What makes the video. -/
  engine : Studio.Engine
  /-- What the program answers that is asked for the duration of a video. -/
  prober : Probe.Reply
  /-- Where saving the video breaks off, if it does. -/
  breaking : Option Disk.Break := none
  /-- Why the line that tells of the saved video is not written, if it is not. -/
  untold : Option Fault := none
  /-- Whether the program runs under its own tests. -/
  underTest : Bool := false
  /-- The time at which log lines are stamped. -/
  time : String := Log.epochText
  /-- The time and the host that rows of metrics are stamped with. -/
  rowTime : String := "1970-01-01T00:00:00+00:00"
  host : String := "localhost"

/-- Why a command line is not carried out to its end. -/
inductive Failure where
  | problem (p : Problem)
  | threshold (e : Log.ThresholdError)
  | probe (e : Probe.Error)
  /-- A fault that nobody took care of. -/
  | fault (f : Fault)
  | save (e : Render.SaveError)
  deriving DecidableEq

/-- What a command line comes to. -/
structure Ending where
  result : Except Failure Nat
  output : String := ""
  errors : String := ""
  /-- The command lines of programs that were started. -/
  started : List (List String) := []
  disk : Disk

/-- The encoder, in a directory of its own, when its process follows a script. -/
def scriptedEncoder (binary : String) (timeout : Option Number) (script : Encoder.Script) :
    Studio.Engine :=
  .external
    { config := { binary, timeout }
      script
      workspace :=
        { directory := ["tmp", "timed-text"], label := "/tmp/timed-text", owned := true } }

/-! ## Reading -/

/-- What a word stands for that is to be a command. -/
inductive Named where
  | command (c : Command)
  /-- It stood behind the end of the options, and asks how the program is used. -/
  | help

/-- The commands that the first of some words is close to. -/
def closeCommands (words : List String) : List String :=
  words.head?.elim [] fun word => Text.closeWords word (Command.all.map Command.name)

/-- The command that the first of some words stands for. Behind the end of the options the word may
look like an option; then it is read as one before it is refused, and what is close is looked for
among the words that are left. -/
def commandOf (words : List String) (name : String) : Except Problem Named :=
  match Command.ofName? name with
  | some c => .ok (.command c)
  | none =>
    match readWords generalParameters false words with
    | .error refusal => .error (refusal.problem.withCommands (closeCommands refusal.left))
    | .ok again =>
      if again.has .help then .ok .help else .error (.noSuchCommand name (closeCommands again.free))

/-- The cues that are typed on the command line. -/
def readCues (cues : List String) (style : Cue.Style) : Except Problem (List Cue) :=
  cues.mapM fun value => (Cue.ofOption style value).mapError .badCue

/-- The studio with the duration of its video, if that is known and not zero. -/
def resolveDuration (studio : Studio) (reply : Probe.Reply) : Except Failure Studio :=
  match Probe.duration reply with
  | .ok (some d) => .ok (if d.isZero then studio else studio.setDuration d)
  | .ok none => .ok studio
  | .error e => if e.isTolerated then .ok studio else .error (.probe e)

/-! ## What is said -/

/-- How the program is used. -/
def usage : String :=
  "Usage: [--log-level LEVEL] " ++ String.intercalate "|" (Command.all.map Command.name)
    ++ " [OPTIONS] ..."

/-- What is said about the completion of words by the shell. -/
def completionText : String := "Words are not completed."

/-- What is said of a render that fails without a reason. -/
def failedText : String := "Video processing failed."

/-- The line about a cue on screen. -/
def cueLine (c : Cue) : String :=
  c.label ++ " @ bottom " ++ Anchor.percentText (Anchor.ofPosition c.position).bottom

/-- Which cues are on screen at a time. -/
def previewText (cues : List Cue) (time : Double) : String :=
  match Preview.visible cues time with
  | [] => "No cues visible at " ++ time.general ++ "s"
  | visible => String.intercalate "\n" (visible.map cueLine)

namespace Surroundings

/-! ## Endings -/

/-- Nothing comes of it. -/
def refuse (s : Surroundings) (f : Failure) : Ending := { result := .error f, disk := s.place.disk }

/-- A line that is written. -/
def lineOf (text : String) : String := Text.plain (text ++ "\n")

/-- A line is written, and that is all. -/
def say (s : Surroundings) (text : String) : Ending :=
  { result := .ok 0, output := lineOf text, disk := s.place.disk }

/-- The log lines of records, as far as they are kept. -/
def logLines (s : Surroundings) (threshold : Log.Level) (records : List Log.Record) : String :=
  String.join ((records.filter fun r => Log.isKept threshold r.level).map fun r =>
    r.line s.time ++ "\n")

/-! ## Commands -/

/-- The font that is used where none is named. -/
def defaultFont (s : Surroundings) : Except Problem String :=
  let path := s.settings.fontPath
  match PathText.lookUp s.place.disk s.place.origin.directory path with
  | some (.file _) => .ok path
  | _ => .error (.noFont (PathText.lastName path))

/-- A studio that renders at once, tells nobody but the log, and keeps rows of metrics as the
settings say. -/
def studio (s : Surroundings) (font : String) : Studio where
  session := Session.openOn { offset := s.settings.cueOffset } {}
  engine := s.engine
  config :=
    { font := PathText.lastName font, box := s.settings.box, reportsProgress := false }
  font := font
  disk := s.place.disk
  origin := s.place.origin
  metrics := s.settings.metricsPolicy s.place.origin s.underTest
  stamp := { time := s.rowTime, host := s.host, environment := s.settings.environment.name }
  deferred := false

/-- What is left to do of a render that was asked for, with what came of it and the studio it was
made in: a fault that nobody took care of ends the command, and else the video is saved, or it is
told that there is none. -/
def finish (s : Surroundings) (threshold : Log.Level) (output : String) (probing : List String)
    (made : Except Session.Error Studio.Acceptance × Studio) : Ending :=
  let studio := made.2
  let started := probing :: studio.engine.runs
  let errors := s.logLines threshold studio.records
  let rendering := studio.session.orchestrator
  match made.1 with
  | .ok { result := some (.error f), .. } =>
    { result := .error (.fault f), errors, started, disk := studio.engine.close studio.disk }
  | _ =>
    match rendering.state, rendering.artifact with
    | .done, some artifact =>
      match artifact.save studio.disk s.place.origin output s.breaking with
      | (.error e, disk) =>
        { result := .error (.save e), errors, started, disk := studio.engine.close disk }
      | (.ok path, disk) =>
        let disk := studio.engine.close disk
        match s.untold with
        | some f => { result := .error (.fault f), errors, started, disk }
        | none =>
          let told := lineOf ("Rendered video saved to: " ++ PathText.ofPath path)
          { result := .ok 0, output := told, errors, started, disk }
    | _, _ =>
      { result := .ok 1, errors := errors ++ lineOf (rendering.failure.getD failedText), started
        disk := studio.engine.close studio.disk }

/-- Renders a video with the cues burned in. -/
def render (s : Surroundings) (threshold : Log.Level) (video : SourceFile) (output : String)
    (font : String) (cues : List Cue) : Ending :=
  let probing := Probe.command s.settings.prober video.path
  let studio := (s.studio font).upload video.data
  match resolveDuration studio s.prober with
  | .error f =>
    { s.refuse f with errors := s.logLines threshold studio.records, started := [probing] }
  | .ok studio =>
    let studio := cues.foldl (fun studio c => (studio.addCue c).2) studio
    s.finish threshold output probing studio.startRender

/-- Writes the expression that cues are compiled to. -/
def filtergraph (s : Surroundings) (cues : List Cue) : Ending :=
  let font := PathText.lastName s.settings.fontPath
  match Filter.compile? font s.settings.box (cues.map Cue.values) with
  | .error obstacle => s.refuse (.fault obstacle.fault)
  | .ok graph => s.say (if graph.isEmpty then "(no overlay stage)" else graph.expression)

/-- Carries a request out. -/
def perform (s : Surroundings) (threshold : Log.Level) (request : Request) : Ending :=
  match request with
  | .help => s.say usage
  | .render video output font cues style =>
    let prepared : Except Problem (List Cue × String) := do
      let cues ← readCues cues style
      match font with
      | some file => return (cues, file.path)
      | none => return (cues, ← s.defaultFont)
    match prepared with
    | .error p => s.refuse (.problem p)
    | .ok (cues, font) => s.render threshold video output font cues
  | .filtergraph cues style =>
    match readCues cues style with
    | .error p => s.refuse (.problem p)
    | .ok cues => s.filtergraph cues
  | .preview time cues style =>
    match readCues cues style with
    | .error p => s.refuse (.problem p)
    | .ok cues => s.say (previewText cues time)

/-! ## The whole line -/

/-- The threshold of the log: the one that is given, unless it is empty, or that of the settings. -/
def thresholdOf (s : Surroundings) (general : Words) : Except Log.ThresholdError Log.Level :=
  match general.value? .logLevel with
  | none | some "" => Log.thresholdOfWord s.settings.logLevel
  | some word => Log.thresholdOfWord word

/-- Carries a command line out. The log is set up before the words behind the command are read. -/
def run (s : Surroundings) (words : List String) : Ending :=
  match readWords generalParameters false words with
  | .error refusal => s.refuse (.problem refusal.problem)
  | .ok general =>
    if general.has .help then s.say usage
    else if general.has .installCompletion || general.has .showCompletion then s.say completionText
    else
      match general.free with
      | [] => s.refuse (.problem .noCommand)
      | name :: rest =>
        match commandOf general.free name with
        | .error p => s.refuse (.problem p)
        | .ok .help => s.say usage
        | .ok (.command command) =>
          match s.thresholdOf general with
          | .error e => s.refuse (.threshold e)
          | .ok threshold =>
            let request := do
              let said ← (readWords command.parameters true rest).mapError Refusal.problem
              Request.ofWords s.place command said
            match request with
            | .error p => s.refuse (.problem p)
            | .ok request => s.perform threshold request

end Surroundings

end TimedText.CommandLine
