import TimedText.Encoder.Script
import TimedText.Workspace
import TimedText.Log.Record
import TimedText.Fault
import TimedText.Filter.Clause

/-!
# Engines

An engine takes files in, works on them when it is told to, and gives files back. One kind keeps its
files in memory and does what it was told beforehand; the other runs the encoder in a directory, and
whatever it is asked it is handed the disk with that directory.
What an engine says while it works are lines, each with its kind.
-/

namespace TimedText.Studio

/-- What an engine in memory does: the output it makes, the lines it says, and where it fails. -/
structure Plan where
  output : Option Bytes := none
  lines : List String := []
  /-- Faults of staging by the name that is staged. -/
  stageFaults : List (String × Fault) := []
  runFault : Option Fault := none
  readFault : Option Fault := none
  deriving DecidableEq

/-- An engine in memory. -/
structure Memory where
  plan : Plan := {}
  files : List (String × Bytes) := []
  /-- What it was asked for, each time it was told to work. -/
  runs : List (List String) := []
  deriving DecidableEq

/-- The encoder in its directory. -/
structure External where
  config : Encoder.Config
  script : Encoder.Script := {}
  workspace : Workspace
  /-- The command lines that were started. -/
  runs : List (List String) := []

/-- An engine. -/
inductive Engine where
  | memory (m : Memory)
  | external (e : External)

/-- What is given to an engine anew between two renders. -/
inductive Equipment where
  | plan (p : Plan)
  | script (s : Encoder.Script)

/-- The fault that an error of the encoder's directory is when a file is staged. -/
def stagingFault (e : Workspace.Error) : Fault :=
  match e with
  | .nulInName => ⟨.value, e.message.escaped, ""⟩
  | .notSpelled _ => ⟨.other "UnicodeEncodeError", e.message.escaped, ""⟩
  | .tooDeep => PathText.tooDeepFault
  | _ => ⟨.staging, e.message.escaped, ""⟩

/-- The fault that an error of the encoder's directory is when a file is read back. -/
def readingFault (e : Workspace.Error) : Fault :=
  match e with
  | .notLookedFor _ => ⟨.os, e.message.escaped, ""⟩
  | _ => ⟨.notFound, e.message.escaped, ""⟩

/-- What is told about a staged file. -/
def stagedRecord (name : String) (size : Nat) : Log.Record :=
  Log.record .debug .transcoder ("Staged " ++ name ++ " (" ++ toString size ++ " bytes)")

namespace Engine

/-- Takes a file in. -/
def stage (e : Engine) (d : Disk) (name : String) (data : Bytes) :
    Except Fault Unit × Engine × Disk × List Log.Record :=
  match e with
  | .memory m =>
    match m.plan.stageFaults.lookup name with
    | some f => (.error f, e, d, [])
    | none => (.ok (), .memory { m with files := Json.put name data m.files }, d, [])
  | .external x =>
    match x.workspace.stage d name data with
    | (.ok (), d) => (.ok (), e, d, [stagedRecord name data.length])
    | (.error error, d) => (.error (stagingFault error), e, d, [])

/-- Gives a file back. -/
def read (e : Engine) (d : Disk) (name : String) : Except Fault Bytes :=
  match e with
  | .memory m =>
    match m.plan.readFault, m.files.lookup name with
    | some f, _ => .error f
    | none, some data => .ok data
    | none, none => .error ⟨.notFound, name ++ " missing", ""⟩
  | .external x => (x.workspace.read d name).mapError readingFault

/-- Notes what the engine is asked for. -/
def ask (e : Engine) (arguments : List String) : Engine :=
  match e with
  | .memory m => .memory { m with runs := m.runs ++ [arguments] }
  | .external x => .external { x with runs := x.runs ++ [Encoder.command x.config arguments] }

/-- The engine works: the lines it says, how it ends, the engine, and the disk with what it made. -/
def work (e : Engine) (d : Disk) (arguments : List String) :
    List Encoder.Event × Except Fault Unit × Engine × Disk :=
  match e with
  | .memory m =>
    let lines := m.plan.lines.map (Encoder.Event.mk "stderr")
    match m.plan.runFault with
    | some f => (lines, .error f, e, d)
    | none =>
      let files :=
        match m.plan.output with
        | none => m.files
        | some data => Json.put Filter.outputName data m.files
      (lines, .ok (), .memory { m with files }, d)
  | .external x =>
    let result := Encoder.runScript x.config arguments x.script
    let made :=
      result.process.written.foldl (fun d (name, data) => x.workspace.produce d name data) d
    (result.events, result.outcome, e, made)

/-- The engine with other equipment; equipment for the other kind is not taken. -/
def equip (e : Engine) (equipment : Equipment) : Engine :=
  match e, equipment with
  | .memory m, .plan plan => .memory { m with plan }
  | .external x, .script script => .external { x with script }
  | e, _ => e

/-- What the engine was asked for, as often as it was told to work. -/
def runs : Engine → List (List String)
  | .memory m => m.runs
  | .external x => x.runs

/-- The files that the engine holds; none if its directory is gone. -/
def files? (e : Engine) (d : Disk) : Option (List (Path × Bytes)) :=
  match e with
  | .memory m => some (m.files.map fun (name, data) => ([(name : Disk.Name)], data))
  | .external x => x.workspace.files? d

/-- The disk when the engine is not needed any more. -/
def close (e : Engine) (d : Disk) : Disk :=
  match e with
  | .memory _ => d
  | .external x => x.workspace.close d

end Engine

end TimedText.Studio
