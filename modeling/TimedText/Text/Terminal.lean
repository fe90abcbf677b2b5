import TimedText.Text.Quoted

/-!
# Text on a terminal

Some characters are not shown by a terminal but control it. Sequences that set colours or move the
cursor are left out of what is written to a file; in what is said about words that a user typed,
control characters are spelled out.
-/

namespace TimedText.Text

/-! ## Sequences -/

/-- A character between the opening of a sequence and the letter that ends it. -/
def isSetting (c : Char) : Bool := c.isDigit || c = ';' || c = '?'

/-- How long the sequence is with which a text begins; zero if it begins with none. -/
def sequenceLength : List Char → Nat
  | '\x1b' :: '[' :: cs =>
    match cs.span isSetting with
    | (settings, c :: _) => if c.isAlpha then settings.length + 3 else 0
    | (_, []) => 0
  | _ => 0

/-- A text without the sequences in it. So many characters in front belong to a sequence that has
begun before. -/
def withoutSequences (inside : Nat) : List Char → List Char
  | [] => []
  | c :: cs =>
    match inside, sequenceLength (c :: cs) with
    | n + 1, _ => withoutSequences n cs
    | 0, 0 => c :: withoutSequences 0 cs
    | 0, n + 1 => withoutSequences n cs

/-- A text as it is written to a file. -/
def plain (s : String) : String := String.ofList (withoutSequences 0 s.toList)

/-! ## Control characters -/

/-- A character of one of the two sets of control characters, or the one that deletes. -/
def isControl (c : Char) : Bool := c.toNat < 0x20 || (0x7f ≤ c.toNat && c.toNat < 0xa0)

/-- A text with its control characters spelled out. -/
def spelled (s : String) : String :=
  String.ofList (s.toList.flatMap fun c =>
    if isControl c then ['\\', 'x'] ++ hex 2 c.toNat else [c])

end TimedText.Text
