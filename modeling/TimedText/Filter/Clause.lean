import TimedText.Filter.Token
import TimedText.Number
import TimedText.Fault

/-!
# Filter expressions

Each cue that shows something becomes one `drawtext` clause; clauses are joined by commas, in the
order of the cues, so that later cues are drawn over earlier ones. Without a clause the expression
is empty and no filter is asked for.

An expression is written from the plain values of the cues (`compile?`), and two things can keep it
from being written: a position that is unknown, and a whole number with more digits than are
printed. Where nothing does, it is the expression of the cues (`compile`).
-/

namespace TimedText.Filter

open Cue (Values)

/-- The box behind a text. -/
structure Box where
  color : String := "black@0.5"
  border : Int := 5
  deriving DecidableEq, Repr

/-- The box that is asked for, where the defaults fill what is not. An empty colour asks for
nothing. -/
def Box.choose (defaults : Box) (color : Option String) (border : Option Int) : Box where
  color := match color with
    | none | some "" => defaults.color
    | some c => c
  border := border.getD defaults.border

/-- When a clause is enabled. -/
def enableExpression (c : Cue) : String :=
  "between(t," ++ seconds c.start ++ "," ++ seconds c.stop ++ ")"

/-- The clause of a cue. -/
def clause (font : String) (box : Box) (c : Cue) : String :=
  "drawtext=fontfile=" ++ font ++ ":text='" ++ escape c.text ++ "':fontcolor="
    ++ colorToken c.color ++ ":fontsize=" ++ toString c.fontSize ++ ":x=" ++ centeredX ++ ":y="
    ++ positionY c.position ++ ":enable='" ++ enableExpression c ++ "':box=1:boxcolor="
    ++ box.color ++ ":boxborderw=" ++ toString box.border

/-- The clauses of the cues that show something. -/
def clauses (font : String) (box : Box) (cues : List Cue) : List String :=
  (cues.filter fun c => !c.isBlank).map (clause font box)

/-- A compiled expression and the font it names. -/
structure Graph where
  expression : String
  font : String
  deriving DecidableEq, Repr

/-- The font where none is asked for. -/
def defaultFont : String := "CookieRunRegular.ttf"

/-- The expression of a list of cues. -/
def compile (font : String) (box : Box) (cues : List Cue) : Graph :=
  ⟨String.intercalate "," (clauses font box cues), font⟩

/-! ## Writing the expression -/

/-- Why an expression cannot be written. -/
inductive Obstacle where
  | unknownPosition (name : String)
  | tooManyDigits (i : Int)
  deriving DecidableEq

/-- The fault that an obstacle is. -/
def Obstacle.fault : Obstacle → Fault
  | .unknownPosition name => ⟨.value, Position.unknownMessage name, ""⟩
  | .tooManyDigits _ => ⟨.value, notPrintedMessage, ""⟩

/-- A whole number as it is printed. -/
def printed (i : Int) : Except Obstacle String :=
  if IsPrinted i then .ok (toString i) else .error (.tooManyDigits i)

/-- The height of a text whose position is given by its name. -/
def heightOf (name : String) : Except Obstacle String :=
  match Position.ofName? name with
  | some p => .ok (positionY p)
  | none => .error (.unknownPosition name)

/-- The clause of a cue with these values. -/
def clause? (font : String) (box : Box) (v : Values) : Except Obstacle String := do
  let fontSize ← printed v.fontSize
  let height ← heightOf v.position
  let border ← printed box.border
  let enable := "between(t," ++ seconds v.start ++ "," ++ seconds v.stop ++ ")"
  return "drawtext=fontfile=" ++ font ++ ":text='" ++ escape v.text ++ "':fontcolor="
    ++ colorToken v.color ++ ":fontsize=" ++ fontSize ++ ":x=" ++ centeredX ++ ":y=" ++ height
    ++ ":enable='" ++ enable ++ "':box=1:boxcolor=" ++ box.color ++ ":boxborderw=" ++ border

/-- The expression of cues with these values. -/
def compile? (font : String) (box : Box) (vs : List Values) : Except Obstacle Graph := do
  let clauses ← (vs.filter fun v => !Text.allBlank v.text).mapM (clause? font box)
  return ⟨String.intercalate "," clauses, font⟩

/-! ## What the encoder is asked for -/

/-- Whether nothing is to be drawn. -/
def Graph.isEmpty (g : Graph) : Bool := g.expression.isEmpty

/-- The name of the source video in the encoder's directory. -/
def inputName : String := "input.mp4"

/-- The name of the video that the encoder writes. -/
def outputName : String := "output.mp4"

/-- What the encoder is asked for; an empty expression is left out. -/
def Graph.encoderArguments (g : Graph) : List String :=
  ["-i", inputName] ++ (if g.isEmpty then [] else ["-vf", g.expression])
    ++ ["-c:a", "copy", outputName]

end TimedText.Filter
