import TimedText.CommandLine.Words
import TimedText.Disk.PathText

/-!
# Requests

What a command asks for, once the words behind it are understood. Every value is checked by itself,
and the first problem counts: given options come first, in the order in which they were given, then
what was not given, in the order of the command.
-/

namespace TimedText.CommandLine

/-- The files there are, and where paths start from. -/
structure Place where
  disk : Disk
  origin : PathText.Origin

/-- A file that is there, with its path in its shortest form. -/
structure SourceFile where
  path : String
  data : Bytes
  deriving DecidableEq

/-- What a command asks for. The cues are still to be read. -/
inductive Request where
  /-- To show how the program is used. -/
  | help
  | render (video : SourceFile) (output : String) (font : Option SourceFile)
      (cues : List String) (style : Cue.Style)
  | filtergraph (cues : List String) (style : Cue.Style)
  | preview (time : Double) (cues : List String) (style : Cue.Style)
  deriving DecidableEq

/-! ## Values -/

/-- What the path in the value of a parameter leads to; nothing if it leads nowhere. -/
def Place.lookUp (place : Place) (p : Parameter) (path : String) : Except Problem (Option Node) :=
  if '\x00' ∈ path.toList then .error (.badValue p .nulInPath)
  else .ok (PathText.lookUp place.disk place.origin.directory path)

/-- A path to a file that has to be there. -/
def readFile (place : Place) (p : Parameter) (path : String) : Except Problem SourceFile := do
  match ← place.lookUp p path with
  | some (.file data) => return ⟨PathText.normalize path, data⟩
  | some .directory => throw (.badValue p (.directory path))
  | none => throw (.badValue p (.noFile path))

/-- A path to a file that is to be written. -/
def readTarget (place : Place) (p : Parameter) (path : String) : Except Problem String := do
  match ← place.lookUp p path with
  | some .directory => throw (.badValue p (.directory path))
  | _ => return path

/-- A size of letters: a whole number that is at least one. -/
def readFontSize (text : String) : Except Problem Int := do
  let size ← (Field.readInteger (.text text)).mapError (.badValue .fontSize <| .field ·)
  if size < 1 then throw (.badValue .fontSize (.field (.below 1))) else return size

/-- A position, by its name. -/
def readPosition (text : String) : Except Problem Position :=
  match Position.ofName? text with
  | some p => .ok p
  | none => .error (.badValue .position (.notAPosition text))

/-- A time: any number. -/
def readTime (text : String) : Except Problem Double :=
  (Field.readNumber (.text text)).mapError (.badValue .time <| .field ·)

/-- A value that has to be given. -/
def required {α : Type} (p : Parameter) (value : Option String) (read : String → Except Problem α) :
    Except Problem α :=
  match value with
  | some text => read text
  | none => .error (.missing p)

/-- A value that may be given. -/
def optional {α : Type} (fallback : α) (value : Option String) (read : String → Except Problem α) :
    Except Problem α :=
  match value with
  | some text => read text
  | none => .ok fallback

namespace Words

/-- The video, which is the first of the words that stand free. -/
def video (w : Words) (place : Place) : Except Problem SourceFile :=
  required .video w.free.head? (readFile place .video)

/-- Where the finished video goes. -/
def output (w : Words) (place : Place) : Except Problem String :=
  required .output (w.value? .output) (readTarget place .output)

/-- The font, if one is named. -/
def font (w : Words) (place : Place) : Except Problem (Option SourceFile) :=
  optional none (w.value? .font) fun path => (readFile place .font path).map some

/-- The size of letters. -/
def fontSize (w : Words) : Except Problem Int :=
  optional Cue.defaultFontSize (w.value? .fontSize) readFontSize

/-- Where the cues stand. -/
def position (w : Words) : Except Problem Position :=
  optional .middle (w.value? .position) readPosition

/-- The time of a preview. -/
def time (w : Words) : Except Problem Double := required .time (w.value? .time) readTime

/-- The colour of letters, still to be read. -/
def color (w : Words) : String := (w.value? .color).getD Cue.defaultColor

/-- The look of the cues. -/
def style (w : Words) : Except Problem Cue.Style := do
  return { fontSize := .int (← w.fontSize), color := .text w.color, position := ← w.position }

/-- Whether the value of a parameter is fine. -/
def check (w : Words) (place : Place) : Parameter → Except Problem Unit
  | .video => (w.video place).map fun _ => ()
  | .output => (w.output place).map fun _ => ()
  | .font => (w.font place).map fun _ => ()
  | .fontSize => w.fontSize.map fun _ => ()
  | .position => w.position.map fun _ => ()
  | .time => w.time.map fun _ => ()
  | .help | .installCompletion | .showCompletion | .logLevel | .cue | .color => .ok ()

/-- The parameters of a command in the order in which their values are checked. The word that stands
free comes after all options that were given. -/
def order (w : Words) (parameters : List Parameter) : List Parameter :=
  w.options ++ parameters.filter (· ∉ w.options)

/-- The words that stand free and are not asked for. -/
def extra (w : Words) : Command → List String
  | .render => w.free.drop 1
  | .filtergraph | .preview => w.free

end Words

/-! ## Commands -/

/-- What a command asks for with its words. -/
def Request.ofWords (place : Place) (command : Command) (w : Words) : Except Problem Request :=
  if w.has .help then .ok .help
  else do
    (w.order command.parameters).forM (w.check place)
    unless w.extra command = [] do throw (.extraWords (w.extra command))
    match command with
    | .render =>
      return .render (← w.video place) (← w.output place) (← w.font place) (w.values .cue)
        (← w.style)
    | .filtergraph => return .filtergraph (w.values .cue) (← w.style)
    | .preview => return .preview (← w.time) (w.values .cue) (← w.style)

end TimedText.CommandLine
