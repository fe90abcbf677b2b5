import TimedText.Number
import TimedText.Fault
import TimedText.Json.Printer
import TimedText.Disk.PathText

/-!
# Metrics of renders

Each render leaves one row: what it was given, what it made, whether it failed, and how long its
steps took. Rows are written as JSON, one to a line, at the end of a file. Writing is a courtesy: a
refusal of the disk is passed over. What else goes wrong, before the file is opened or when the row
is put into words, is not.
-/

namespace TimedText.Render

/-- What one render did. -/
structure Metrics where
  cueCount : Int
  inputBytes : Int
  duration : Number := .double .zero
  filterStage : Bool := false
  outputBytes : Option Int := none
  error : Option String := none
  /-- How long each step took in seconds, in the order in which they first ended. -/
  timings : List (String × Double) := []
  deriving Inhabited

namespace Metrics

/-- The name under which the time of a step is kept. -/
def timingKey (step : String) : String := step ++ "_s"

/-- Notes how long a step took. -/
def step (m : Metrics) (name : String) (seconds : Double) : Metrics :=
  { m with timings := Json.put (timingKey name) seconds m.timings }

/-- Notes how long everything took. -/
def finish (m : Metrics) (seconds : Double) : Metrics := m.step "total" seconds

/-- Whether a render counts as failed: an error text is noted, and it is not empty. -/
def isFailure (m : Metrics) : Bool :=
  match m.error with
  | none => false
  | some text => text ≠ ""

/-- The members of a row. -/
def members (m : Metrics) : List (String × Json) :=
  [("status", .str (if m.isFailure then "error" else "success")),
   ("error", (m.error.map Json.str).getD .null), ("cue_count", .int m.cueCount),
   ("filter_stage", .bool m.filterStage), ("input_bytes", .int m.inputBytes),
   ("output_bytes", (m.outputBytes.map Json.int).getD .null), ("duration_s", m.duration.toJson),
   ("timings", .dict (m.timings.map fun (k, v) => (k, .float v)))]

/-- Where and when rows are written. -/
structure Stamp where
  time : String := "1970-01-01T00:00:00+00:00"
  host : String := "localhost"
  environment : String := "dev"
  deriving DecidableEq

/-- The object that a row is written as. -/
def toJson (s : Stamp) (m : Metrics) : Json :=
  .dict ([("ts", .str s.time), ("host", .str s.host), ("app_env", .str s.environment)]
    ++ m.members)

/-- The characters of the line of a row, with its end. -/
def line (s : Stamp) (m : Metrics) : List Char := (m.toJson s).chars ++ ['\n']

/-- The whole numbers of a row. -/
def wholes (m : Metrics) : List Int :=
  let duration := match m.duration with
    | .whole i => [i]
    | .double _ => []
  [m.cueCount, m.inputBytes] ++ m.outputBytes.toList ++ duration

/-- What is said of a row with a whole number of too many digits. -/
def notPrinted : Fault := ⟨.value, notPrintedMessage, ""⟩

/-- The line of a row, if all its numbers are printed. -/
def line? (s : Stamp) (m : Metrics) : Except Fault LooseText :=
  if ∀ i ∈ m.wholes, IsPrinted i then .ok ((m.line s).map .char) else .error notPrinted

end Metrics

/-- What is said of a text with lone halves that is to be bytes. -/
def notEncoded (text : LooseText) : Fault :=
  ⟨.other "UnicodeEncodeError", text.notSpelledMessage fun l => !l.isHalf, ""⟩

/-- The bytes of a text in UTF-8, which has none for lone halves. -/
def encoded (text : LooseText) : Except Fault Bytes :=
  match text.text? with
  | some s => .ok (Bytes.ofText s)
  | none => .error (notEncoded text)

/-- Whether and where rows are written. -/
structure MetricsPolicy where
  /-- Yes or no if it is settled. -/
  enabled : Option Bool := none
  isDevelopment : Bool := true
  /-- Whether the program runs under its own tests. -/
  underTest : Bool := false
  /-- The file as it was given, if one was. -/
  path : Option String := none
  /-- The directory of the project. -/
  projectRoot : String := "/"
  /-- Where the path of the file starts from. -/
  origin : PathText.Origin := {}

namespace MetricsPolicy

/-- Whether rows are written: as settled, else never under test, else in development only. -/
def isOn (p : MetricsPolicy) : Bool :=
  match p.enabled with
  | some b => b
  | none => !p.underTest && p.isDevelopment

/-- The file that rows are written to, or why it is not found. -/
def file (p : MetricsPolicy) : Except PathText.Unresolved Path :=
  match p.path with
  | none =>
    let isAbsolute := !(PathText.leading p.projectRoot).isEmpty
    let names := PathText.names p.projectRoot ++ ["logs", "render_metrics.jsonl"]
    (p.origin.follow isAbsolute names).map Path.ofTexts
  | some s => (p.origin.resolve s).map Path.ofTexts

/-- Writes a line at the end of a file, which is opened before the line is put into words. A disk
that refuses is left as far as the directories were made, but not if they are too many to be made;
of a line that cannot be written the file is left, which may be new. -/
def append (disk : Disk) (path : Path) (line : Except Fault LooseText) : Except Fault Unit × Disk :=
  match disk.makeDirectories path.dropLast with
  | (.error .tooDeep, disk) => (.error PathText.tooDeepFault, disk)
  | (.error (.refused ..), disk) => (.ok (), disk)
  | (.ok (), disk) =>
    match line.bind encoded with
    | .ok bytes =>
      match disk.append path bytes with
      | .error _ => (.ok (), disk)
      | .ok disk => (.ok (), disk)
    | .error f =>
      match disk.append path [] with
      | .error _ => (.ok (), disk)
      | .ok disk => (.error f, disk)

/-- Writes a line at the end of the file of rows, if rows are written at all. -/
def write (p : MetricsPolicy) (disk : Disk) (line : Except Fault LooseText) :
    Except Fault Unit × Disk :=
  if p.isOn then
    match p.file with
    | .error reason => (.error reason.fault, disk)
    | .ok path => append disk path line
  else (.ok (), disk)

/-- Writes a row at the end of the file of rows, if rows are written at all. -/
def log (p : MetricsPolicy) (disk : Disk) (s : Metrics.Stamp) (m : Metrics) :
    Except Fault Unit × Disk :=
  p.write disk (m.line? s)

end MetricsPolicy

end TimedText.Render
