import TimedText.Double.Text
import TimedText.Json.Basic

/-!
# Numbers as they are given

A number is given as a whole number of any size or as a double. Both are compared exactly, on one
line. A whole number is printed in its digits, unless these are too many.
-/

namespace TimedText

/-- A whole number that is printed has at most so many digits. -/
def maxPrintedDigits : Nat := 4300

/-- Whether a whole number is printed. -/
def IsPrinted (i : Int) : Prop := (Decimal.digits i.natAbs).length ≤ maxPrintedDigits

instance (i : Int) : Decidable (IsPrinted i) := inferInstanceAs (Decidable (_ ≤ _))

/-- What is said about a whole number that is not printed. -/
def notPrintedMessage : String :=
  "Exceeds the limit (" ++ toString maxPrintedDigits ++ " digits) for integer string conversion; "
    ++ "use sys.set_int_max_str_digits() to increase the limit"

/-- A whole number or a double. -/
inductive Number where
  | whole (i : Int)
  | double (d : Double)
  deriving DecidableEq, Inhabited

namespace Number

/-- Where a number stands on the line. -/
def quantity : Number → Quantity
  | .whole i => .ofInt i
  | .double d => d.quantity

/-- Less than, without rounding. -/
def lt (a b : Number) : Bool := a.quantity.lt b.quantity

/-- Whether the number is zero. -/
def isZero : Number → Bool
  | .whole i => i = 0
  | .double d => d.isZero

/-- The number as text. -/
def text : Number → String
  | .whole i => toString i
  | .double d => d.text

/-- The number as a JSON value. -/
def toJson : Number → Json
  | .whole i => .int i
  | .double d => .float d

end Number

end TimedText
