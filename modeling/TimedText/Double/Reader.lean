import TimedText.Double.Text

/-!
# Reading doubles

Numbers are written as a sign, digits with at most one point, and an optional power of ten; single
underscores may stand between two digits; infinities and `nan` are words in any case. Which
characters are digits is the reader's parameter.
-/

namespace TimedText

namespace Double

/-- What a character is worth as a digit, if it is one. -/
abbrev DigitValue := Char → Option Nat

/-- The ten digits of ASCII. -/
def asciiDigit (c : Char) : Option Nat :=
  if '0' ≤ c ∧ c ≤ '9' then some (c.toNat - '0'.toNat) else none

/-- A run of digits and what follows it. The run may be empty. Once it is begun (`inside`), a single
underscore may stand in front of a further digit. -/
def digitRun (digit : DigitValue) (inside : Bool) : List Char → List Nat × List Char
  | [] => ([], [])
  | c :: cs =>
    if inside ∧ c = '_' ∧ (cs.head?.bind digit).isSome then digitRun digit false cs
    else
      match digit c with
      | none => ([], c :: cs)
      | some d =>
        let (ds, rest) := digitRun digit true cs
        (d :: ds, rest)

/-- The number that digits write, most significant first. -/
def ofDigits (ds : List Nat) : Nat := ds.foldl (fun n d => 10 * n + d) 0

/-- A leading sign: whether it is a minus, and what follows. -/
def readSign : List Char → Bool × List Char
  | '-' :: cs => (true, cs)
  | '+' :: cs => (false, cs)
  | cs => (false, cs)

/-- An optional power of ten that ends the text. -/
def readPower (digit : DigitValue) : List Char → Option Int
  | [] => some 0
  | c :: cs =>
    if c = 'e' ∨ c = 'E' then
      let (negative, cs) := readSign cs
      match digitRun digit false cs with
      | (d :: ds, []) =>
        let n : Int := ofDigits (d :: ds)
        some (if negative then -n else n)
      | _ => none
    else none

/-- Digits, a point with digits on at least one side, and a power of ten. -/
def readUnsigned (digit : DigitValue) (negative : Bool) (cs : List Char) : Option Double :=
  let (whole, rest) := digitRun digit false cs
  match rest with
  | '.' :: rest =>
    let (places, rest) := digitRun digit false rest
    if whole.isEmpty && places.isEmpty then none
    else (readPower digit rest).map fun p =>
      ofDecimal negative (ofDigits (whole ++ places)) (p - places.length)
  | rest =>
    if whole.isEmpty then none
    else (readPower digit rest).map fun p => ofDecimal negative (ofDigits whole) p

/-- A number, or one of the words for the others, all of the text. -/
def read? (digit : DigitValue) (cs : List Char) : Option Double :=
  let (negative, rest) := readSign cs
  let word := String.ofList (rest.map Char.toLower)
  if word = "inf" ∨ word = "infinity" then some (.infinite negative)
  else if word = "nan" then some .nan
  else readUnsigned digit negative rest

end Double

end TimedText
