import TimedText.Text.Ranges

/-!
# Blank characters

Two notions of white space differ only in the four information separators `1C` to `1F`: text is
blank under the wider one; whatever is read as a number is trimmed under the Unicode property.
-/

namespace TimedText.Text

/-- The characters with the Unicode property White_Space. -/
def whiteSpace : List (Nat × Nat) :=
  [(0x9, 0xd), (0x20, 0x20), (0x85, 0x85), (0xa0, 0xa0), (0x1680, 0x1680), (0x2000, 0x200a),
   (0x2028, 0x2029), (0x202f, 0x202f), (0x205f, 0x205f), (0x3000, 0x3000)]

/-- White space by the Unicode property. -/
def isWhiteSpace (c : Char) : Bool := inRanges whiteSpace c

/-- White space, or one of the four information separators. -/
def isBlank (c : Char) : Bool := inRanges ((0x1c, 0x1f) :: whiteSpace) c

/-- A list without the members at both ends that satisfy `p`. -/
def trimBy (p : Char → Bool) (cs : List Char) : List Char :=
  ((cs.dropWhile p).reverse.dropWhile p).reverse

/-- Nothing but blank characters. -/
def allBlank (s : String) : Bool := s.toList.all isBlank

end TimedText.Text
