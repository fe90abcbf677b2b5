import TimedText.Double.Text
import TimedText.Text.Blank
import TimedText.Text.Quoted

/-!
# Cues

A cue is a text with a span of time and a look. Times are seconds from the start of the video. Its
type holds only sound cues: the span is not reversed and begins at zero or later, the letters have a
size, and the colour is a `#` with six hexadecimal digits. `Values` are what its fields say, without
a promise.
-/

namespace TimedText

/-- Where on the screen a cue stands. -/
inductive Position where
  | top
  | middle
  | bottom
  deriving DecidableEq, Repr

namespace Position

/-- The name that a position is given by. -/
def name : Position → String
  | .top => "top"
  | .middle => "middle"
  | .bottom => "bottom"

/-- All positions, from the top down. -/
def all : List Position := [.top, .middle, .bottom]

/-- The position of this name. -/
def ofName? (s : String) : Option Position := all.find? (·.name = s)

/-- What is said about a name that no position has. -/
def unknownMessage (s : String) : String := Text.quoted s ++ " is not a valid Position"

end Position

/-- A hexadecimal digit in either case. -/
def isHexDigit (c : Char) : Bool :=
  ('0' ≤ c && c ≤ '9') || ('a' ≤ c && c ≤ 'f') || ('A' ≤ c && c ≤ 'F')

/-- A `#` and six hexadecimal digits, nothing else. -/
def IsColor (s : String) : Prop :=
  match s.toList with
  | '#' :: ds => ds.length = 6 ∧ ds.all isHexDigit = true
  | _ => False

instance (s : String) : Decidable (IsColor s) := by
  unfold IsColor; split <;> infer_instance

/-- A timed text. -/
structure Cue where
  text : String
  start : Double
  stop : Double
  fontSize : Nat
  color : String
  position : Position
  start_nonneg : Double.zero ≤ start
  start_le_stop : start ≤ stop
  fontSize_pos : 0 < fontSize
  color_valid : IsColor color
  deriving DecidableEq

namespace Cue

/-- The size of letters where none is asked for. -/
def defaultFontSize : Nat := 24

/-- The colour where none is asked for. -/
def defaultColor : String := "#FFFFFF"

/-- The fresh cue: no text, no span, the default look. -/
def blank : Cue where
  text := ""
  start := .zero
  stop := .zero
  fontSize := defaultFontSize
  color := defaultColor
  position := .middle
  start_nonneg := by decide +kernel
  start_le_stop := by decide +kernel
  fontSize_pos := by decide
  color_valid := by decide +kernel

instance : Inhabited Cue := ⟨blank⟩

/-- A blank cue shows nothing. -/
def isBlank (c : Cue) : Bool := Text.allBlank c.text

/-- A cue is active from its start to its end, both included. -/
def isActive (c : Cue) (t : Double) : Bool := c.start.le t && t.le c.stop

/-- Whether a cue reaches past a duration that is known; zero and below is not known. -/
def exceeds (c : Cue) (duration : Double) : Bool :=
  !duration.le .zero && (duration.lt c.start || duration.lt c.stop)

/-- One line about a cue: its span with a decimal place, and its text. -/
def label (c : Cue) : String :=
  "[" ++ c.start.fixed 1 ++ "s ~ " ++ c.stop.fixed 1 ++ "s] " ++ c.text

/-- The values of the fields of a cue. Nothing is promised about them. -/
structure Values where
  text : String
  start : Double
  stop : Double
  fontSize : Int
  color : String
  position : String
  deriving DecidableEq

/-- What the fields of a cue say. -/
def values (c : Cue) : Values where
  text := c.text
  start := c.start
  stop := c.stop
  fontSize := c.fontSize
  color := c.color
  position := c.position.name

end Cue

end TimedText
