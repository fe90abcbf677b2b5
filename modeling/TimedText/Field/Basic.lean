import TimedText.Json.Basic
import TimedText.Text.Blank
import TimedText.Text.Quoted

/-!
# Raw values and what can be wrong with them

Fields of a cue and of the settings are given as raw values. `Cause` lists the ways in which a raw
value fails to be what its field asks for; `Issue` says which field it was.
-/

namespace TimedText

/-- A raw value, before it is read as the value of a field. Lists, tables and dates are all the
same to a field: it takes none of them. -/
inductive Raw where
  | null
  | bool (b : Bool)
  | int (i : Int)
  | float (d : Double)
  | text (s : String)
  | other
  deriving DecidableEq, Inhabited

/-- A JSON value as a raw value. -/
def Raw.ofJson : Json → Raw
  | .null => .null
  | .bool b => .bool b
  | .int i => .int i
  | .float d => .float d
  | .str s => .text s
  | .list _ => .other
  | .dict _ => .other

/-- Raw values by the names of their fields. -/
abbrev Fields := List (String × Raw)

namespace Field

/-- What is wrong with a raw value. -/
inductive Cause where
  | notText
  | badColor
  | notOneOf (choices : List String)
  | notNumber
  | notReadAsNumber
  | notInteger
  | notReadAsInteger
  | fractional
  | notFinite
  | tooLarge
  | notBoolean
  | notReadAsBoolean
  | notPath
  | below (bound : Nat)
  | notAbove (bound : Nat)
  /-- The fields are fine each by itself, but end before they start. -/
  | endsEarly (start stop : Double)
  deriving DecidableEq

/-- The words of a list of alternatives: commas between them, and `or` before the last. -/
def alternatives : List String → String
  | [] => ""
  | [a] => a
  | [a, b] => a ++ " or " ++ b
  | a :: rest => a ++ ", " ++ alternatives rest

/-- The short name of a cause. -/
def Cause.code : Cause → String
  | .notText => "string_type"
  | .badColor => "string_pattern_mismatch"
  | .notOneOf _ => "enum"
  | .notNumber => "float_type"
  | .notReadAsNumber => "float_parsing"
  | .notInteger => "int_type"
  | .notReadAsInteger => "int_parsing"
  | .fractional => "int_from_float"
  | .notFinite => "finite_number"
  | .tooLarge => "int_parsing_size"
  | .notBoolean => "bool_type"
  | .notReadAsBoolean => "bool_parsing"
  | .notPath => "path_type"
  | .below _ => "greater_than_equal"
  | .notAbove _ => "greater_than"
  | .endsEarly .. => "value_error"

/-- What is said about a cause. -/
def Cause.message : Cause → String
  | .notText => "Input should be a valid string"
  | .badColor => "String should match pattern '^#[0-9A-Fa-f]\x7b6\x7d$'"
  | .notOneOf choices => "Input should be " ++ alternatives (choices.map Text.quoted)
  | .notNumber => "Input should be a valid number"
  | .notReadAsNumber => "Input should be a valid number, unable to parse string as a number"
  | .notInteger => "Input should be a valid integer"
  | .notReadAsInteger => "Input should be a valid integer, unable to parse string as an integer"
  | .fractional => "Input should be a valid integer, got a number with a fractional part"
  | .notFinite => "Input should be a finite number"
  | .tooLarge => "Unable to parse input string as an integer, exceeded maximum size"
  | .notBoolean => "Input should be a valid boolean"
  | .notReadAsBoolean => "Input should be a valid boolean, unable to interpret input"
  | .notPath => "Input is not a valid path for <class 'pathlib.Path'>"
  | .below bound => "Input should be greater than or equal to " ++ toString bound
  | .notAbove bound => "Input should be greater than " ++ toString bound
  | .endsEarly start stop =>
    "Value error, end_time (" ++ stop.text ++ ") must not be before start_time (" ++ start.text
      ++ ")"

/-- A cause and the field it belongs to, if it belongs to a single one. -/
structure Issue where
  field : Option String
  cause : Cause
  deriving DecidableEq

end Field

end TimedText
