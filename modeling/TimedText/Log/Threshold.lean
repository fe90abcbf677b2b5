import TimedText.Log.Record

/-!
# Thresholds of a log

The level from which on records are kept is given as a number or as a word. Words are compared in
upper case; a word that is unknown means `INFO`.
-/

namespace TimedText.Log

/-- Why a word is no threshold: it is known, but stands for something else than a level. -/
inductive ThresholdError where
  | text (value : String)
  | table
  deriving DecidableEq, Repr

/-- What is said about a word that stands for a text. -/
def ThresholdError.message? : ThresholdError → Option String
  | .text value => some ("Unknown level: " ++ Text.quoted value)
  | .table => none

/-- The characters outside ASCII whose upper case is written in ASCII. -/
def foreignUpper : List (Char × List Char) :=
  [('ß', ['S', 'S']), ('ı', ['I']), ('ſ', ['S']), ('ﬀ', ['F', 'F']), ('ﬁ', ['F', 'I']),
   ('ﬂ', ['F', 'L']), ('ﬃ', ['F', 'F', 'I']), ('ﬄ', ['F', 'F', 'L']), ('ﬅ', ['S', 'T']),
   ('ﬆ', ['S', 'T'])]

/-- A word in upper case, as far as it can be compared with the words that are known: all of them
are written in ASCII. -/
def upperCase (s : String) : String :=
  String.ofList (s.toList.flatMap fun c => (foreignUpper.lookup c).getD [c.toUpper])

/-- The words for levels. -/
def levelWords : List (String × Level) :=
  [("CRITICAL", 50), ("FATAL", 50), ("ERROR", 40), ("WARNING", 30), ("WARN", 30), ("INFO", 20),
   ("DEBUG", 10), ("NOTSET", 0)]

/-- The layout of a plain log line. -/
def plainLine : String := "%(levelname)s:%(name)s:%(message)s"

/-- The threshold that a word stands for. -/
def thresholdOfWord (word : String) : Except ThresholdError Level :=
  let word := upperCase word
  match levelWords.lookup word with
  | some level => .ok level
  | none =>
    if word = "BASIC_FORMAT" then .error (.text plainLine)
    else if word = "_STYLES" then .error .table
    else .ok .info

end TimedText.Log
