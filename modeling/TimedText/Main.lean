import TimedText.CommandLine.Execution
import TimedText.Settings.Source

/-!
# The program

Gathers what a command line is carried out in, carries it out, and writes what came of it. Programs
cannot be started from here: a render ends with the failure that says so.
-/

namespace TimedText.Main

open CommandLine

/-- The names of the variables that are asked for. -/
def variableNames : List String :=
  Settings.environmentNames.dropLast
    ++ Settings.plainFields.map fun name => (Settings.variableStart ++ name).toUpper

/-- The variables of the environment that are set. -/
def environment : IO (List (String × String)) :=
  variableNames.filterMapM fun name => do
    return (← IO.getEnv name).map (name, ·)

/-- The bytes of a file, if it can be read. -/
def readFile? (path : String) : IO (Option Bytes) := do
  try return some (← IO.FS.readBinFile path).toList
  catch _ => return none

/-- The text of a file, if it can be read. -/
def readText? (path : String) : IO (Option String) := do
  try return some (← IO.FS.readFile path)
  catch _ => return none

/-- The cause that an error of the system is. -/
def causeOf : IO.Error → Disk.Cause
  | .noFileOrDirectory .. => .notFound
  | .permissionDenied .. => .permission
  | .invalidArgument _ number text | .inappropriateType _ number text | .noSuchThing _ number text
  | .otherError number text => .other number.toNat text
  | e => .other 0 (toString e)

/-- What a step comes to. -/
def answerOf {α : Type} (step : IO α) : IO (Except Disk.Cause α) := do
  try return .ok (← step)
  catch e => return .error (causeOf e)

/-- What the system says about a TOML file. -/
def fileAnswer (path : String) : IO Settings.FileAnswer := do
  let looked ← answerOf (IO.FS.realPath path)
  let opened ← answerOf (IO.FS.readBinFile path)
  return ⟨looked.map fun _ => (), opened.map (·.toList)⟩

/-- Everything that settings are made from, for a project at a place. -/
def sources (root : String) : IO Settings.Sources := do
  let named ← IO.getEnv Settings.fileVariable
  return {
    environment := ← environment
    variableFile := ← readText? (root ++ "/.env")
    file := ← fileAnswer (Settings.filePath root named) }

/-- Texts in a word that may be paths: the word itself, and what may be a value attached to an
option. -/
def pathsIn (word : String) : List String :=
  let (_, value) := splitAtEquals word
  word :: String.ofList (word.toList.drop 2) :: value.toList

/-- Whether a path leads to a directory. -/
def isDirectory (path : String) : IO Bool := do
  try (← IO.FS.realPath path).isDir
  catch _ => return false

/-- The names from the root of a path that is read from a directory. -/
def placeOf (directory : List String) (path : String) : List String :=
  let names := PathText.names path
  PathText.collapse (if (PathText.leading path).isEmpty then directory ++ names else names)

/-- The disk together with what a path leads to. -/
def see (directory : List String) (disk : Disk) (path : String) : IO Disk := do
  let target := placeOf directory path
  let text := PathText.ofPath target
  if ← isDirectory text then return disk.put (Path.ofTexts target) .directory
  match ← readFile? text with
  | some data => return disk.put (Path.ofTexts target) (.file data)
  | none => return disk

/-- What a path leads to, and the directories above it. -/
def seeAll (directory : List String) (disk : Disk) (path : String) : IO Disk := do
  let target := placeOf directory path
  let above := (List.range target.length).map fun n => PathText.ofPath (target.take n)
  (above ++ [path]).foldlM (see directory) disk

/-- The text of a name. Names that are no text are not met here. -/
def textOf (name : Disk.Name) : String :=
  (String.fromUTF8? (ByteArray.mk name.bytes.toArray)).getD ""

/-- Writes the files that were not there, or had other contents. -/
def writeBack (before after : Disk) : IO Unit := do
  for (path, node) in after.entries do
    let text := PathText.ofPath (path.map textOf)
    match node with
    | .directory => IO.FS.createDirAll text
    | .file data =>
      unless before.entries.contains (path, node) do
        IO.FS.writeBinFile text (ByteArray.mk data.toArray)

/-- The homes of users: only that of the user who runs the program is known, unless it is written
as the home of somebody itself. The empty text stands for the root. -/
def homeOf (own : Option String) (user : String) : Option String :=
  match own with
  | none => none
  | some dir =>
    if user ≠ "" ∨ dir.startsWith "~" then none
    else some (if dir = "" then "/" else dir)

/-- What is said about settings that cannot be used. -/
def settingsText : Settings.LoadError → String
  | .file (.notLookedFor cause) => "The settings file cannot be looked for: " ++ cause.describe.2
  | .file .notText => "The settings file is not text."
  | .file (.tooManyDigits _) => "The settings file holds a number with too many digits."
  | .file .tooDeep => "The settings file holds too many values inside one another."
  | .invalid issues =>
    String.intercalate "\n" (issues.map fun i => i.field.getD "" ++ ": " ++ i.cause.message)

/-- What is said about a command line that is not carried out to its end. -/
def failureText : Failure → String
  | .problem (.badCue (.invalid issues)) =>
    String.intercalate "\n" (issues.map fun i => i.field.getD "cue" ++ ": " ++ i.cause.message)
  | .problem p => p.message?.getD ""
  | .threshold e => e.message?.getD "The log level is not a level."
  | .probe _ => "The duration of the video cannot be used."
  | .fault f => f.message
  | .save (.unresolved reason) => reason.fault.message
  | .save (.disk cause) => "The video cannot be saved: " ++ cause.describe.2
  | .save .tooDeep => Disk.tooDeepMessage

end TimedText.Main

open TimedText TimedText.Main in
/-- Carries the command line out. -/
def main (words : List String) : IO UInt32 := do
  let root := (← IO.currentDir).toString
  match Settings.load .unified (Settings.defaults root) (← sources root) with
  | .error e =>
    IO.eprintln (settingsText e)
    return 1
  | .ok settings =>
    let directory := PathText.names root
    let home := homeOf (← IO.getEnv "HOME")
    let paths := settings.fontPath :: words.flatMap pathsIn
    let disk ← paths.foldlM (seeAll directory) {}
    let surroundings : CommandLine.Surroundings :=
      { settings, place := ⟨disk, { directory, home }⟩
        engine :=
          CommandLine.scriptedEncoder settings.encoder (settings.encodeTimeout.map .double)
            { startError := some "no program can be started" }
        prober := .notStarted "no program can be started" }
    let ending := surroundings.run words
    writeBack disk ending.disk
    IO.print ending.output
    IO.eprint ending.errors
    match ending.result with
    | .ok status => return status.toUInt32
    | .error f =>
      IO.eprintln ("Error: " ++ failureText f)
      return 2
