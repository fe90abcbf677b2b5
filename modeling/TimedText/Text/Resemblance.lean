/-!
# Resemblance of words

How much two words resemble each other. The longest block of characters that both have is found, and
the same is done with what stands before it and with what stands behind it; the characters of all
these blocks are what the words share. Among candidates for a mistyped word, those are close that
share enough with it.
-/

namespace TimedText.Text

/-! ## Common blocks -/

/-- A block of characters that two words have: where it begins in each, and its size. -/
structure Block where
  first : Nat
  second : Nat
  size : Nat
  deriving DecidableEq, Repr

/-- The larger of two blocks; the one that came first if they are of one size. -/
def Block.larger (x y : Block) : Block := if x.size < y.size then y else x

/-- How many characters two words share before they differ. -/
def sharedStart : List Char → List Char → Nat
  | a :: as, b :: bs => if a = b then sharedStart as bs + 1 else 0
  | _, _ => 0

/-- All places where a block could begin: the first word is gone through, and for each place in it
the second. -/
def blocks (a b : List Char) : List Block :=
  (List.range a.length).flatMap fun i =>
    (List.range b.length).map fun j => ⟨i, j, sharedStart (a.drop i) (b.drop j)⟩

/-- The largest block, the first among those of its size. -/
def largestBlock (a b : List Char) : Block := (blocks a b).foldl Block.larger ⟨0, 0, 0⟩

/-- How many characters two words share. -/
def shared (a b : List Char) : Nat :=
  match largestBlock a b with
  | ⟨i, j, n⟩ =>
    if _h : 0 < n ∧ i + n ≤ a.length then
      shared (a.take i) (b.take j) + n + shared (a.drop (i + n)) (b.drop (j + n))
    else 0
termination_by a.length
decreasing_by
  · simp only [List.length_take]; omega
  · simp only [List.length_drop]; omega

/-! ## Close words -/

/-- A candidate for a word: what it shares with the word, and how many characters the two have. -/
structure Candidate where
  word : String
  shared : Nat
  total : Nat
  deriving Repr

namespace Candidate

/-- A candidate for a word. -/
def ofWord (word candidate : String) : Candidate where
  word := candidate
  shared := Text.shared candidate.toList word.toList
  total := candidate.length + word.length

/-- A candidate is close if six tenths of all characters are shared, those of both words being
counted. -/
def isClose (c : Candidate) : Bool := 3 * c.total ≤ 10 * c.shared

/-- Whether a candidate is at least as good as another. Those that share equally much go by their
spelling, the last first. -/
def atLeast (x y : Candidate) : Bool :=
  y.shared * x.total < x.shared * y.total
    || (x.shared * y.total = y.shared * x.total && !(x.word < y.word))

end Candidate

/-- So many close words are named at most. -/
def maxCloseWords : Nat := 3

/-- The candidates that are close to a word, the best first. -/
def closeWords (word : String) (candidates : List String) : List String :=
  ((((candidates.map (Candidate.ofWord word)).filter Candidate.isClose).mergeSort
    Candidate.atLeast).take maxCloseWords).map Candidate.word

end TimedText.Text
