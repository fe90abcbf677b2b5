import TimedText.Text.Quoted

/-!
# Texts with lone halves

A text from outside the program may hold, among its characters, halves of surrogate pairs that stand
alone. They are no characters, and no text of characters says the same.
-/

namespace TimedText

namespace Text

/-- A character, or a half of a surrogate pair that stands alone, by its distance from the first
half. -/
inductive Letter where
  | char (c : Char)
  | half (n : Fin 2048)
  deriving DecidableEq, Repr

namespace Letter

/-- How a half is written where there are only characters. -/
def escapedHalf (n : Fin 2048) : List Char := '\\' :: 'u' :: hex 4 (0xD800 + n)

/-- A letter where there are only characters. -/
def escaped : Letter → List Char
  | .char c => [c]
  | .half n => escapedHalf n

/-- A letter as it stands between quotes. -/
def quote (mark : Char) : Letter → List Char
  | .char c => quoteChar mark c
  | .half n => escapedHalf n

/-- The character that a letter is. -/
def char? : Letter → Option Char
  | .char c => some c
  | .half _ => none

/-- Whether a letter is a half. -/
def isHalf : Letter → Bool
  | .char _ => false
  | .half _ => true

end Letter

end Text

/-- A text that may hold lone halves. -/
abbrev LooseText := List Text.Letter

namespace LooseText

open Text (Letter)

/-- A text without lone halves. -/
def ofText (s : String) : LooseText := s.toList.map Letter.char

instance : Coe String LooseText := ⟨ofText⟩

/-- The text with its halves written out. -/
def escaped (s : LooseText) : String := String.ofList (s.flatMap Letter.escaped)

/-- What is said of a text that cannot be spelled, since some of its halves cannot: where these
stand, up to the next character. -/
def notSpelledMessage (spells : Letter → Bool) (s : LooseText) : String :=
  let first := (s.takeWhile spells).length
  let halves := (s.drop first).takeWhile Letter.isHalf
  let subject :=
    if halves.length = 1 then
      "character '" ++ escaped halves ++ "' in position " ++ toString first
    else
      "characters in position " ++ toString first ++ "-" ++ toString (first + halves.length - 1)
  "'utf-8' codec can't encode " ++ subject ++ ": surrogates not allowed"

/-- The text, if it has no lone halves. -/
def text? (s : LooseText) : Option String :=
  (s.mapM Letter.char?).map String.ofList

/-- The text between quotes. -/
def quoted (s : LooseText) : String :=
  let mark := if Letter.char '\'' ∈ s ∧ Letter.char '"' ∉ s then '"' else '\''
  String.ofList (mark :: (s.flatMap (Letter.quote mark) ++ [mark]))

end LooseText

end TimedText
