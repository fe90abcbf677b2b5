import TimedText.Field.Reader
import TimedText.Render.Metrics
import TimedText.Filter.Clause
import TimedText.Cue.Build

/-!
# Settings

What a user can set once for all: where things are, which programs to run, and the look of the box
behind a text. Settings are read from raw fields, every one that is wrong is reported, in order.
-/

namespace TimedText

/-- Where the program runs. -/
inductive Settings.Environment where
  | development
  | production
  deriving DecidableEq, Repr

/-- The settings. Paths are in their shortest form. -/
structure Settings where
  environment : Settings.Environment := .development
  logLevel : String := "INFO"
  projectRoot : String
  fontPath : String
  encoder : String := "ffmpeg"
  prober : String := "ffprobe"
  encodeTimeout : Option Double := none
  metricsEnabled : Option Bool := none
  metricsPath : Option String := none
  cueOffset : Double := Double.ofNat 1
  boxColor : String := "black@0.5"
  boxBorder : Nat := 5

namespace Settings

open TimedText.Field (Cause Issue)

/-- The name of an environment. -/
def Environment.name : Environment → String
  | .development => "dev"
  | .production => "production"

/-- Whether the program runs for development. -/
def isDevelopment (s : Settings) : Bool := s.environment = .development

/-- The settings of a project where nothing is set. -/
def defaults (root : String) : Settings where
  projectRoot := root
  fontPath := root ++ "/fonts/" ++ Filter.defaultFont

/-- The box behind a text where nothing else is asked for. -/
def box (s : Settings) : Filter.Box := ⟨s.boxColor, s.boxBorder⟩

/-- How rows of metrics are written with these settings. -/
def metricsPolicy (s : Settings) (origin : PathText.Origin) (underTest : Bool) :
    Render.MetricsPolicy where
  enabled := s.metricsEnabled
  isDevelopment := s.isDevelopment
  underTest := underTest
  path := s.metricsPath
  projectRoot := s.projectRoot
  origin := origin

/-! ## Reading fields -/

/-- The words for development, in lower case. -/
def developmentWords : List String := ["dev", "development", "local", "localhost"]

/-- An environment: nothing means development, and every word that does not mean it means
production. -/
def readEnvironment : Raw → Except Cause Environment
  | .null => .ok .development
  | .text s =>
    let word := Field.lowerAscii (String.ofList (Text.trimBy Text.isBlank s.toList))
    .ok (if word ∈ developmentWords then .development else .production)
  | _ => .error (.notOneOf [Environment.development.name, Environment.production.name])

/-- A path, in its shortest form. -/
def readPath : Raw → Except Cause String
  | .text s => .ok (PathText.normalize s)
  | _ => .error .notPath

/-- A value that may be nothing. -/
def optional {α : Type} (read : Raw → Except Cause α) : Raw → Except Cause (Option α)
  | .null => .ok none
  | r => (read r).map some

/-- A number that is at least zero. -/
def readOffset (r : Raw) : Except Cause Double := do Field.atLeast 0 (← Field.readNumber r)

/-- A whole number that is at least zero. -/
def readBorder (r : Raw) : Except Cause Nat := do
  let i ← Field.readInteger r
  if 0 ≤ i then return i.toNat else throw (.below 0)

/-- The strongest name of the environment. -/
def strongestName : String := "SUBSTUDIO_APP_ENV"

/-- The names of the environment, in the order in which they are looked for. -/
def environmentNames : List String := [strongestName, "APP_ENV", "ENV", "app_env"]

/-- The name under which the environment is looked up: the strongest that is there. -/
def environmentName (fields : Fields) : String :=
  (environmentNames.find? fun n => (fields.lookup n).isSome).getD "app_env"

/-- The settings that raw fields describe. Fields that are absent take their defaults, and names
that are no field are not looked at. -/
def build (base : Settings) (fields : Fields) : Except (List Issue) Settings :=
  let environment :=
    Cue.fieldOr fields (environmentName fields) base.environment readEnvironment
  let logLevel := Cue.fieldOr fields "log_level" base.logLevel Field.readText
  let projectRoot := Cue.fieldOr fields "project_root" base.projectRoot readPath
  let fontPath := Cue.fieldOr fields "font_path" base.fontPath readPath
  let encoder := Cue.fieldOr fields "ffmpeg_binary" base.encoder Field.readText
  let prober := Cue.fieldOr fields "ffprobe_binary" base.prober Field.readText
  let encodeTimeout :=
    Cue.fieldOr fields "encode_timeout_s" base.encodeTimeout (optional Field.readNumber)
  let metricsEnabled :=
    Cue.fieldOr fields "metrics_enabled" base.metricsEnabled (optional Field.readBoolean)
  let metricsPath := Cue.fieldOr fields "metrics_path" base.metricsPath (optional readPath)
  let cueOffset := Cue.fieldOr fields "cue_offset_s" base.cueOffset readOffset
  let boxColor := Cue.fieldOr fields "box_color" base.boxColor Field.readText
  let boxBorder := Cue.fieldOr fields "box_border_width" base.boxBorder readBorder
  let all : Except Cause Settings := do
    return ⟨← environment, ← logLevel, ← projectRoot, ← fontPath, ← encoder, ← prober,
      ← encodeTimeout, ← metricsEnabled, ← metricsPath, ← cueOffset, ← boxColor, ← boxBorder⟩
  match all with
  | .ok s => .ok s
  | .error _ =>
    .error (Cue.issueOf (environmentName fields) environment ++ Cue.issueOf "log_level" logLevel
      ++ Cue.issueOf "project_root" projectRoot ++ Cue.issueOf "font_path" fontPath
      ++ Cue.issueOf "ffmpeg_binary" encoder ++ Cue.issueOf "ffprobe_binary" prober
      ++ Cue.issueOf "encode_timeout_s" encodeTimeout
      ++ Cue.issueOf "metrics_enabled" metricsEnabled ++ Cue.issueOf "metrics_path" metricsPath
      ++ Cue.issueOf "cue_offset_s" cueOffset ++ Cue.issueOf "box_color" boxColor
      ++ Cue.issueOf "box_border_width" boxBorder)

end Settings

end TimedText
