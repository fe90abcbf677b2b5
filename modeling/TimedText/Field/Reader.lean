import TimedText.Field.Basic

/-!
# Reading raw values

Readers are lenient: a number may be given as text, a whole number as a double without a fraction,
a truth value as zero or one. Text is trimmed of white space where it is read as a number and
nowhere else. Underscores may stand in such text to make it readable.
-/

namespace TimedText.Field

/-- Only text is text. -/
def readText : Raw → Except Cause String
  | .text s => .ok s
  | _ => .error .notText

/-- The characters of a text between the white space at its ends. -/
def trimmed (s : String) : List Char := Text.trimBy Text.isWhiteSpace s.toList

/-- Whether every underscore of a text stands by itself, with other characters on both sides. At the
start of a text, and behind an underscore, `behindMark` holds. -/
def loneMarks (behindMark : Bool) : List Char → Bool
  | [] => !behindMark
  | c :: cs => !(behindMark && c = '_') && loneMarks (c = '_') cs

/-- A text that has underscores, without them; they have to stand by themselves. -/
def withoutMarks? (cs : List Char) : Option (List Char) :=
  if '_' ∈ cs ∧ loneMarks true cs then some (cs.filter (· ≠ '_')) else none

/-- A double from text. Underscores may stand between any two characters, but then the text is not
trimmed. -/
def doubleOfText? (s : String) : Option Double :=
  if '_' ∈ s.toList then (withoutMarks? s.toList).bind (Double.read? Double.asciiDigit)
  else Double.read? Double.asciiDigit (trimmed s)

/-- A double from a number, a truth value, or text. -/
def readNumber : Raw → Except Cause Double
  | .float d => .ok d
  | .int i => (Double.ofInt? i).elim (.error .notNumber) .ok
  | .bool b => .ok (Double.ofNat b.toNat)
  | .text s =>
    match doubleOfText? s with
    | some d => .ok d
    | none => .error .notReadAsNumber
  | _ => .error .notNumber

/-- A sign in front of a whole number: whether it is a minus, and what follows. Two signs are
refused. -/
def wholeSign? : List Char → Option (Bool × List Char)
  | '+' :: '-' :: _ | '-' :: '-' :: _ | '-' :: '+' :: _ => none
  | cs => some (Double.readSign cs)

/-- A whole number without the zeros in front, and without underscores among them. Of nothing but
these the last character stays, and so does the one in front of a point. A minus may stand behind
them. -/
def withoutZeros? (cs : List Char) : Option (List Char) :=
  match cs with
  | '0' :: rest =>
    let rest := rest.dropWhile fun c => c = '0' || c = '_'
    match rest with
    | [] => some (cs.drop (cs.length - 1))
    | '.' :: _ => some (cs.drop (cs.length - rest.length - 1))
    | c :: _ => if c = '-' ∨ (Double.asciiDigit c).isSome then some rest else none
  | c :: _ => if (Double.asciiDigit c).isSome then some cs else none
  | [] => none

/-- A whole number without a point that only zeros follow. -/
def withoutPlaces (cs : List Char) : List Char :=
  match cs.span (· ≠ '.') with
  | (whole, '.' :: zeros) => if !zeros.isEmpty && zeros.all (· = '0') then whole else cs
  | _ => cs

/-- Text of more digits than this, a minus counted with them, is not read as a whole number. -/
def maxDigits : Nat := 4300

/-- A whole number in plain digits. Too many of them are refused whatever follows. -/
def plainInteger (negative : Bool) (cs : List Char) : Except Cause Int :=
  let (ds, rest) := cs.span fun c => (Double.asciiDigit c).isSome
  if ds.isEmpty || (ds.head? = some '0' && ds.length ≠ 1) then .error .notReadAsInteger
  else if maxDigits < ds.length + negative.toNat then .error .tooLarge
  else if !rest.isEmpty then .error .notReadAsInteger
  else
    let n : Int := Double.ofDigits (ds.filterMap Double.asciiDigit)
    .ok (if negative then -n else n)

/-- A whole number as text: a sign, digits with single underscores between them, and possibly a
point that only zeros follow. -/
def integerOfText (s : String) : Except Cause Int :=
  let cleaned : Option (Bool × List Char) := do
    let (negative, cs) ← wholeSign? (trimmed s)
    let cs := withoutPlaces (← withoutZeros? cs)
    return (negative, (withoutMarks? cs).getD cs)
  match cleaned with
  | some (false, '-' :: cs) => plainInteger true cs
  | some (negative, cs) => plainInteger negative cs
  | none => .error .notReadAsInteger

/-- Signed whole numbers of 64 bits lie below this. -/
def wordBound : Nat := Nat.pow 2 63

/-- A whole number from a double that has no fraction and lies within 64 bits. -/
def integerOfDouble (d : Double) : Except Cause Int :=
  if !d.isFinite then .error .notFinite
  else if d.magnitude % Double.unitsPerOne ≠ 0 then .error .fractional
  else if wordBound ≤ d.magnitude / Double.unitsPerOne then .error .tooLarge
  else .ok (d.units / Double.unitsPerOne)

/-- A whole number from a number, a truth value, or text. -/
def readInteger : Raw → Except Cause Int
  | .int i => .ok i
  | .bool b => .ok b.toNat
  | .float d => integerOfDouble d
  | .text s => integerOfText s
  | _ => .error .notInteger

/-- The words for yes and no, in lower case. -/
def truthWords : List (String × Bool) :=
  [("0", false), ("off", false), ("f", false), ("false", false), ("n", false), ("no", false),
   ("1", true), ("on", true), ("t", true), ("true", true), ("y", true), ("yes", true)]

/-- The text with the letters of ASCII in lower case. -/
def lowerAscii (s : String) : String := String.ofList (s.toList.map Char.toLower)

/-- A truth value from zero, one, or a word; text is not trimmed. -/
def readBoolean : Raw → Except Cause Bool
  | .bool b => .ok b
  | .int i =>
    if i = 0 then .ok false
    else if i = 1 then .ok true
    else if -wordBound ≤ i ∧ i < wordBound then .error .notReadAsBoolean
    else .error .notBoolean
  | .float d =>
    match integerOfDouble d with
    | .ok 0 => .ok false
    | .ok 1 => .ok true
    | .ok _ => .error .notReadAsBoolean
    | .error _ => .error .notBoolean
  | .text s =>
    match truthWords.lookup (lowerAscii s) with
    | some b => .ok b
    | none => .error .notReadAsBoolean
  | _ => .error .notBoolean

/-- A number that is at least `bound`; `nan` is not. -/
def atLeast (bound : Nat) (d : Double) : Except Cause Double :=
  if Double.ofNat bound ≤ d then .ok d else .error (.below bound)

end TimedText.Field
