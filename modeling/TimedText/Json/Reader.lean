import TimedText.Json.Basic

/-!
# Reading JSON

The grammar of RFC 8259; with `Words.allowed`, also `NaN`, `Infinity` and `-Infinity` for the
doubles that are no numbers. A key that comes twice has its last value. The readers consume the
front of a text and return the rest; the bound on their depth is the length of the text.
-/

namespace TimedText

namespace Json

/-- Whether doubles that are no numbers may be written as words. -/
inductive Words where
  | allowed
  | refused
  deriving DecidableEq

/-- Why a text is not read. -/
inductive ReadError where
  | malformed
  /-- A whole number with more digits than are converted. -/
  | tooManyDigits (count : Nat)
  /-- Lists and objects inside one another, more than are gone into. -/
  | tooDeep
  deriving DecidableEq

/-- More digits than this are not converted to a whole number. -/
def maxDigits : Nat := 4300

/-- So many lists and objects may stand inside one another. -/
def maxNesting : Nat := 985

/-- The four characters that may stand between tokens. -/
def isSpace (c : Char) : Bool := c = ' ' || c = '\t' || c = '\n' || c = '\r'

/-- The text without the space in front. -/
def skipSpace (cs : List Char) : List Char := cs.dropWhile isSpace

/-- What a character is worth as a hexadecimal digit. -/
def hexDigit (c : Char) : Option Nat :=
  if '0' ≤ c ∧ c ≤ '9' then some (c.toNat - '0'.toNat)
  else if 'a' ≤ c ∧ c ≤ 'f' then some (c.toNat - 'a'.toNat + 10)
  else if 'A' ≤ c ∧ c ≤ 'F' then some (c.toNat - 'A'.toNat + 10)
  else none

/-- The number written by four hexadecimal digits. -/
def hexFour (a b c d : Char) : Option Nat := do
  return ((← hexDigit a) * 16 + (← hexDigit b)) * 256 + ((← hexDigit c) * 16 + (← hexDigit d))

/-- The character that a backslash and this letter stand for. -/
def simpleEscape (c : Char) : Option Char :=
  if c = '"' ∨ c = '\\' ∨ c = '/' then some c
  else if c = 'b' then some '\x08'
  else if c = 'f' then some '\x0c'
  else if c = 'n' then some '\n'
  else if c = 'r' then some '\r'
  else if c = 't' then some '\t'
  else none

/-- The character with this code; half of a surrogate pair has none and is replaced. -/
def charOfCode (n : Nat) : Char := if h : n.isValidChar then Char.ofNatAux n h else '\ufffd'

/-- The text of a list of codes, in which a surrogate pair stands for one character. -/
def textOfCodes : List Nat → List Char
  | [] => []
  | [n] => [charOfCode n]
  | high :: low :: rest =>
    if 0xd800 ≤ high ∧ high < 0xdc00 ∧ 0xdc00 ≤ low ∧ low < 0xe000 then
      charOfCode (0x10000 + (high - 0xd800) * 0x400 + (low - 0xdc00)) :: textOfCodes rest
    else charOfCode high :: textOfCodes (low :: rest)

/-- The codes in the rest of a string, its opening quote being read. -/
def readCodes : List Char → Except ReadError (List Nat × List Char)
  | [] => .error .malformed
  | '"' :: rest => .ok ([], rest)
  | '\\' :: 'u' :: a :: b :: c :: d :: rest =>
    match hexFour a b c d with
    | none => .error .malformed
    | some n => do
      let (s, rest) ← readCodes rest
      return (n :: s, rest)
  | '\\' :: c :: rest =>
    match simpleEscape c with
    | none => .error .malformed
    | some c => do
      let (s, rest) ← readCodes rest
      return (c.toNat :: s, rest)
  | c :: rest =>
    if c.toNat < 0x20 ∨ c = '\\' then .error .malformed
    else do
      let (s, rest) ← readCodes rest
      return (c.toNat :: s, rest)

/-- The rest of a string, its opening quote being read. -/
def readString (cs : List Char) : Except ReadError (String × List Char) := do
  let (codes, rest) ← readCodes cs
  return (String.ofList (textOfCodes codes), rest)

/-- The decimal digits in front of a text, and the rest. -/
def takeDigits (cs : List Char) : List Char × List Char := cs.span Char.isDigit

/-- The number that decimal digits write. -/
def natOfChars (ds : List Char) : Nat := Double.ofDigits (ds.map fun c => c.toNat - '0'.toNat)

/-- Digits after a point; without one, or without digits, nothing is taken. -/
def readPlaces : List Char → Option (List Char) × List Char
  | '.' :: rest =>
    match takeDigits rest with
    | ([], _) => (none, '.' :: rest)
    | (ds, rest) => (some ds, rest)
  | cs => (none, cs)

/-- A power of ten; if it has no digits, nothing is taken. -/
def readExponent : List Char → Option Int × List Char
  | [] => (none, [])
  | c :: cs =>
    if c = 'e' ∨ c = 'E' then
      let (negative, rest) := Double.readSign cs
      match takeDigits rest with
      | ([], _) => (none, c :: cs)
      | (ds, rest) =>
        let n : Int := natOfChars ds
        (some (if negative then -n else n), rest)
    else (none, c :: cs)

/-- An unsigned number: a zero or digits that do not begin with one, then places and a power. -/
def readNumber (negative : Bool) (cs : List Char) : Except ReadError (Json × List Char) :=
  let (whole, rest) :=
    match cs with
    | '0' :: rest => (['0'], rest)
    | cs => takeDigits cs
  if whole.isEmpty then .error .malformed
  else
    let (places, rest) := readPlaces rest
    let (power, rest) := readExponent rest
    match places, power with
    | none, none =>
      if maxDigits < whole.length then .error (.tooManyDigits whole.length)
      else
        let n : Int := natOfChars whole
        .ok (.int (if negative then -n else n), rest)
    | places, power =>
      let places := places.getD []
      .ok (.float (Double.ofDecimal negative (natOfChars (whole ++ places))
        (power.getD 0 - places.length)), rest)

/-- The rest of the text behind a word. -/
def afterWord? (word : List Char) (cs : List Char) : Option (List Char) :=
  if word.isPrefixOf cs then some (cs.drop word.length) else none

/-- A value that is a word. -/
def readWord (words : Words) (cs : List Char) : Except ReadError (Json × List Char) :=
  let known : List (String × Json) :=
    [("null", .null), ("true", .bool true), ("false", .bool false)]
  let extra : List (String × Json) :=
    [("NaN", .float .nan), ("Infinity", .float (.infinite false)),
      ("-Infinity", .float (.infinite true))]
  let table := if words = .allowed then known ++ extra else known
  match table.findSome? fun (w, j) => (afterWord? w.toList cs).map (j, ·) with
  | some r => .ok r
  | none =>
    match cs with
    | '-' :: rest => readNumber true rest
    | cs => readNumber false cs

mutual

/-- The value in front of a text, space skipped, with room for so many more levels. -/
def readValue (words : Words) (bound room : Nat) (cs : List Char) :
    Except ReadError (Json × List Char) :=
  match bound with
  | 0 => .error .malformed
  | bound + 1 =>
    match skipSpace cs with
    | '"' :: rest => do
      let (s, rest) ← readString rest
      return (.str s, rest)
    | '[' :: rest =>
      if room = 0 then .error .tooDeep
      else
        match skipSpace rest with
        | ']' :: rest => .ok (.list [], rest)
        | rest => do
          let (items, rest) ← readItems words bound (room - 1) rest
          return (.list items, rest)
    | '\x7b' :: rest =>
      if room = 0 then .error .tooDeep
      else
        match skipSpace rest with
        | '\x7d' :: rest => .ok (.dict [], rest)
        | rest => do
          let (members, rest) ← readMembers words bound (room - 1) rest
          return (ofMembers members, rest)
    | cs => readWord words cs

/-- Items up to the closing bracket; at least one. -/
def readItems (words : Words) (bound room : Nat) (cs : List Char) :
    Except ReadError (List Json × List Char) :=
  match bound with
  | 0 => .error .malformed
  | bound + 1 => do
    let (j, rest) ← readValue words bound room cs
    match skipSpace rest with
    | ',' :: rest =>
      let (js, rest) ← readItems words bound room rest
      return (j :: js, rest)
    | ']' :: rest => return ([j], rest)
    | _ => .error .malformed

/-- Members up to the closing brace; at least one. -/
def readMembers (words : Words) (bound room : Nat) (cs : List Char) :
    Except ReadError (List (String × Json) × List Char) :=
  match bound with
  | 0 => .error .malformed
  | bound + 1 =>
    match skipSpace cs with
    | '"' :: rest => do
      let (k, rest) ← readString rest
      match skipSpace rest with
      | ':' :: rest =>
        let (v, rest) ← readValue words bound room rest
        match skipSpace rest with
        | ',' :: rest =>
          let (ms, rest) ← readMembers words bound room rest
          return ((k, v) :: ms, rest)
        | '\x7d' :: rest => return ([(k, v)], rest)
        | _ => .error .malformed
      | _ => .error .malformed
    | _ => .error .malformed

end

/-- The value that a whole text writes. -/
def read (words : Words) (text : String) : Except ReadError Json := do
  let cs := text.toList
  let (j, rest) ← readValue words (2 * cs.length + 2) maxNesting cs
  if (skipSpace rest).isEmpty then return j else .error .malformed

end Json

end TimedText
