import TimedText.Settings.Basic
import TimedText.Settings.Variables
import TimedText.Toml.Reader
import TimedText.Disk.PathText

/-!
# Where settings come from

Four sources are asked one after another: the arguments of the program, the variables of the
environment, a file of variables, and a TOML file. In the TOML file a field stands at the top, or in
the table `cues`, or in the table `render`. A TOML file that cannot be opened names nothing.

A package for settings puts the sources into one dictionary, in which the first to name a key
counts, and looks every field up in it. The environment the program runs in goes by several names.
Under which of them its value stands in the dictionary is up to the package, and is taken as a
parameter here: a package may keep the name that a source used, or replace it (`Keying`). What a
source names is read as the package's documentation has it: a variable counts by its name in lower
case behind the prefix, and of several names of a field the first that has a value.
-/

namespace TimedText.Settings

/-! ## Variables -/

/-- What the names of variables begin with. -/
def variableStart : String := "substudio_"

/-- The names of the fields other than the environment. -/
def plainFields : List String :=
  ["log_level", "project_root", "font_path", "ffmpeg_binary", "ffprobe_binary", "encode_timeout_s",
   "metrics_enabled", "metrics_path", "cue_offset_s", "box_color", "box_border_width"]

/-- Variables by their names in lower case; of two that differ only in case, the last counts. -/
def foldNames (bindings : List Variables.Binding) : List Variables.Binding :=
  bindings.foldl (fun done (name, value) => Json.put (Field.lowerAscii name) value done) []

/-- The value of a variable that has one. -/
def valueOf? (bindings : List Variables.Binding) (name : String) : Option Raw :=
  ((bindings.lookup name).join).map Raw.text

/-- The fields that variables name. Of the names of the environment, the first that has a value
counts. -/
def ofVariables (bindings : List Variables.Binding) : Fields :=
  let bindings := foldNames bindings
  let environment := environmentNames.dropLast.findSome? fun name =>
    (valueOf? bindings (Field.lowerAscii name)).map (name, ·)
  environment.toList ++ plainFields.filterMap fun name =>
    (valueOf? bindings (variableStart ++ name)).map (name, ·)

/-! ## TOML -/

/-- A TOML value as a raw value. -/
def rawOf : Toml → Raw
  | .text s => .text s
  | .int i => .int i
  | .float d => .float d
  | .bool b => .bool b
  | _ => .other

/-- The raw values of entries. -/
def fieldsOf (entries : Toml.Entries) : Fields := entries.map fun (k, v) => (k, rawOf v)

/-- The fields of a table in a document, if it is one. -/
def sectionFields (entries : Toml.Entries) (name : String) : Fields :=
  match entries.lookup name with
  | some (.table _ inner) => fieldsOf inner
  | _ => []

/-- The tables of a document that hold fields, the weaker one first. -/
def sections : List String := ["render", "cues"]

/-- The fields that a document names. -/
def ofDocument (entries : Toml.Entries) : Fields :=
  fieldsOf (entries.filter fun (k, _) => k ∉ sections)
    ++ sections.reverse.flatMap (sectionFields entries)

/-- The variable that names the TOML file. -/
def fileVariable : String := "SUBSTUDIO_SETTINGS_FILE"

/-- Where the TOML file is: where the environment says, unless that is empty; else in the
project. -/
def filePath (root : String) (named : Option String) : String :=
  match named with
  | none | some "" => root ++ "/config/studio.toml"
  | some path => path

/-- Why a TOML file stops everything. -/
inductive FileError where
  /-- Whether it is there cannot be found out. -/
  | notLookedFor (cause : Disk.Cause)
  | notText
  | tooManyDigits (count : Nat)
  | tooDeep
  deriving DecidableEq, Repr

/-- What the system says about the TOML file: when it is asked whether the file is there, and when
the file is opened. -/
structure FileAnswer where
  looked : Except Disk.Cause Unit
  opened : Except Disk.Cause Bytes

/-- Causes that are as much as to say that nothing is there: no such file, a file without a number,
a file where a directory should be, a circle of links. -/
def absences : List Nat := [2, 9, 20, 40]

namespace FileAnswer

/-- There is no file. -/
def absent : FileAnswer := ⟨.error .notFound, .error .notFound⟩

/-- There is a file of these bytes. -/
def holding (data : Bytes) : FileAnswer := ⟨.ok (), .ok data⟩

/-- What is answered about a path that is read from a directory of a disk. -/
def ofDisk (d : Disk) (directory : List String) (path : String) : FileAnswer :=
  if PathText.hasNul path then absent
  else
    match PathText.seek d directory path with
    | .error cause => ⟨.error cause, .error cause⟩
    | .ok none => absent
    | .ok (some .directory) => ⟨.ok (), .error .isDirectory⟩
    | .ok (some (.file data)) => holding data

/-- The bytes that are read, if the file is there and can be opened. -/
def data (a : FileAnswer) : Except FileError (Option Bytes) :=
  match a.looked with
  | .ok () => .ok a.opened.toOption
  | .error cause => if cause.describe.1 ∈ absences then .ok none else .error (.notLookedFor cause)

end FileAnswer

/-- The fields that the bytes of a TOML file name. -/
def ofFile (data : Bytes) : Except FileError Fields :=
  match String.fromUTF8? (ByteArray.mk data.toArray) with
  | none => .error .notText
  | some text =>
    match Toml.read text with
    | .ok entries => .ok (ofDocument entries)
    | .error .malformed => .ok []
    | .error (.tooManyDigits n) => .error (.tooManyDigits n)
    | .error .tooDeep => .error .tooDeep

/-! ## All together -/

/-- Everything that settings are made from. -/
structure Sources where
  arguments : Fields := []
  environment : List (String × String) := []
  /-- The text of the file of variables, if there is one. -/
  variableFile : Option String := none
  /-- What is answered about the TOML file. -/
  file : FileAnswer := .absent

/-- Why there are no settings. -/
inductive LoadError where
  | file (e : FileError)
  | invalid (issues : List Field.Issue)
  deriving DecidableEq

/-- The fields that the TOML file names. -/
def Sources.read (s : Sources) : Except FileError Fields := do
  match ← s.file.data with
  | none => return []
  | some data => ofFile data

/-- How a package for settings keys the environment: under which of its names the value of an
argument, or of a variable, is put, by the name it was given under. -/
structure Keying where
  ofArgument : String → String
  ofVariable : String → String
  ofArgument_mem : ∀ n ∈ environmentNames, ofArgument n ∈ environmentNames
  ofVariable_mem : ∀ n ∈ environmentNames, ofVariable n ∈ environmentNames

/-- Each value stays under the name it was given under. -/
def Keying.asGiven : Keying := ⟨id, id, fun _ h => h, fun _ h => h⟩

/-- Each value is put under the strongest name. -/
def Keying.unified : Keying :=
  ⟨fun _ => strongestName, fun _ => strongestName, fun _ _ => List.mem_cons_self,
    fun _ _ => List.mem_cons_self⟩

/-- Values by their keys, each with the name it was given under. -/
abbrev Keyed := List (String × String × Raw)

/-- The values of fields, the environment under these keys and everything else under its name. -/
def keyed (key : String → String) (fields : Fields) : Keyed :=
  (environmentNames.filterMap fun n => (fields.lookup n).map fun r => (key n, n, r))
    ++ plainFields.filterMap fun n => (fields.lookup n).map fun r => (n, n, r)

/-- The dictionary of all sources, the stronger ones first. What the TOML file names is not keyed by
the package. -/
def Sources.merged (s : Sources) (k : Keying) : Except FileError Keyed := do
  let document ← s.read
  let bound := match s.variableFile with
    | none => []
    | some text => Variables.read s.environment text
  return keyed k.ofArgument s.arguments
    ++ keyed k.ofVariable (ofVariables (s.environment.map fun (k, v) => (k, some v)))
    ++ keyed k.ofVariable (ofVariables bound) ++ keyed id document

/-- The fields that are looked up in a dictionary: the environment by its names, the strongest
first, and each other field by its own. -/
def lookedUp (m : Keyed) : Fields :=
  (environmentNames.findSome? fun n => m.lookup n).toList
    ++ plainFields.filterMap fun n => m.lookup n

/-- The settings that the sources make, on top of the defaults. -/
def load (k : Keying) (base : Settings) (s : Sources) : Except LoadError Settings :=
  match s.merged k with
  | .error e => .error (.file e)
  | .ok m => (build base (lookedUp m)).mapError .invalid

end TimedText.Settings
