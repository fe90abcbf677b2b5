import TimedText.Cue.Basic

/-!
# The parts of a filter clause

How a text, a colour, a time and a position are written inside a filter expression. A backslash
stands before each character of a text that would end it or divide the clause; a time is a plain
decimal number without an exponent.
-/

namespace TimedText.Filter

/-- A character of a text as it is written. -/
def escapeChar (c : Char) : List Char := if c = '\'' ∨ c = ':' then ['\\', c] else [c]

/-- The characters of a text as they are written. -/
def escapeChars (cs : List Char) : List Char := cs.flatMap escapeChar

/-- A text as it is written. -/
def escape (s : String) : String := String.ofList (escapeChars s.toList)

/-- The colour with its `#` written as `0x`. -/
def colorChars : List Char → List Char
  | [] => []
  | '#' :: rest => '0' :: 'x' :: rest
  | c :: rest => c :: colorChars rest

/-- A colour as it is written. -/
def colorToken (s : String) : String := String.ofList (colorChars s.toList)

/-- The height of a text, as an expression. -/
def positionY : Position → String
  | .top => "text_h"
  | .bottom => "h-text_h"
  | .middle => "(h-text_h)/2"

/-- The place from the left, as an expression: the middle. -/
def centeredX : String := "(w-text_w)/2"

/-- The members of a list up to the last that is not `c`. -/
def trimEnd (c : Char) (cs : List Char) : List Char := (cs.reverse.dropWhile (· = c)).reverse

/-- The digits of a magnitude in plain decimal notation: the fewest ones where they need no
exponent, else twenty places without trailing zeros. A whole number has no point. -/
def plainDigits (x : Double) : List Char :=
  let d := x.shortest
  if Double.plainLayout.isPositional d then
    d.layOut { Double.plainLayout with wholePoint := false }
  else trimEnd '.' (trimEnd '0' (x.fixedDigits 20))

/-- Seconds as they are written. -/
def seconds (x : Double) : String := x.withWords (plainDigits x)

end TimedText.Filter
