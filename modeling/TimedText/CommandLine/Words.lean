import TimedText.CommandLine.Problem

/-!
# The words of a command line

A word that begins with a dash is an option, unless it is only a dash. Long options are spelled
with two dashes, and their value is the next word or stands behind an equals sign; short ones are
spelled with one dash and one character, and their value is the next word or the rest of the word.
A value may look like an option itself. Two dashes alone end the options, and all words behind
them stand free.
-/

namespace TimedText.CommandLine

/-- What words say: the options in the order in which they were given, with their values, and the
words that stand free. -/
structure Words where
  given : List (Parameter × String) := []
  free : List String := []
  deriving DecidableEq, Repr

namespace Words

/-- One more option in front. -/
def give (p : Parameter) (value : String) (w : Words) : Words :=
  { w with given := (p, value) :: w.given }

/-- One more free word in front. -/
def addFree (word : String) (w : Words) : Words := { w with free := word :: w.free }

/-- The values of an option. -/
def values (w : Words) (p : Parameter) : List String :=
  w.given.filterMap fun (q, value) => if q = p then some value else none

/-- The value of an option that counts: the last one. -/
def value? (w : Words) (p : Parameter) : Option String := (w.values p).getLast?

/-- Whether an option was given. -/
def has (w : Words) (p : Parameter) : Bool := w.given.any (·.1 = p)

/-- The given options, each once, in the order in which they were first given. -/
def options (w : Words) : List Parameter := (w.given.map Prod.fst).eraseDups

end Words

/-! ## One word -/

/-- Whether a word is an option. -/
def isOption (word : String) : Bool :=
  match word.toList with
  | '-' :: _ :: _ => true
  | _ => false

/-- Whether a spelling is that of a short option. -/
def isShort (spelling : String) : Bool := spelling.length = 2

/-- The spellings of long options. -/
def longSpellings (options : List Parameter) : List String :=
  options.flatMap fun p => p.spellings.filter (!isShort ·)

/-- The option that has a spelling. -/
def optionOf? (options : List Parameter) (spelling : String) : Option Parameter :=
  options.find? (spelling ∈ ·.spellings)

/-- What a word says about an option. -/
inductive OptionWord where
  /-- Option and value. -/
  | whole (p : Parameter) (value : String)
  /-- The value is still to come. -/
  | waiting (p : Parameter) (spelling : String)
  deriving DecidableEq, Repr

/-- The part of a word before its first equals sign, and the part behind it. -/
def splitAtEquals (word : String) : String × Option String :=
  match word.toList.span (· ≠ '=') with
  | (name, _ :: value) => (String.ofList name, some (String.ofList value))
  | (name, []) => (String.ofList name, none)

/-- Reads a word as a long option. -/
def readLong (p : Parameter) (spelling : String) (value : Option String) :
    Except Problem OptionWord :=
  match p.isFlag, value with
  | true, some _ => .error (.unwantedValue spelling)
  | true, none => .ok (.whole p "")
  | false, some value => .ok (.whole p value)
  | false, none => .ok (.waiting p spelling)

/-- Reads a word as a short option. All short options take a value. -/
def readShort (options : List Parameter) (word : String) : Except Problem OptionWord :=
  let spelling := String.ofList (word.toList.take 2)
  let rest := String.ofList (word.toList.drop 2)
  match optionOf? options spelling with
  | none => .error (.noSuchOption spelling [])
  | some p => .ok (if rest = "" then .waiting p spelling else .whole p rest)

/-- Reads a word as an option. Suggestions for an unknown one are in the order of the alphabet. -/
def readOption (options : List Parameter) (word : String) : Except Problem OptionWord :=
  let (spelling, value) := splitAtEquals word
  let long := longSpellings options
  match if spelling ∈ long then optionOf? options spelling else none with
  | some p => readLong p spelling value
  | none =>
    if "--".isPrefixOf word then
      .error (.noSuchOption spelling ((Text.closeWords spelling long).mergeSort (fun a b => a ≤ b)))
    else readShort options word

/-! ## All words -/

/-- Why words cannot be read, and the words behind the one at which reading stopped. -/
structure Refusal where
  problem : Problem
  left : List String := []
  deriving DecidableEq

/-- Reads words. Where options may not stand behind a free word, everything from the first free word
on stands free. -/
def readWords (options : List Parameter) (mixed : Bool) : List String → Except Refusal Words
  | [] => .ok {}
  | word :: rest =>
    if word = "--" then .ok { free := rest }
    else if isOption word then
      match readOption options word with
      | .error problem => .error ⟨problem, rest⟩
      | .ok (.whole p value) => (readWords options mixed rest).map (Words.give p value)
      | .ok (.waiting p spelling) =>
        match rest with
        | [] => .error ⟨.noValue spelling, []⟩
        | value :: rest => (readWords options mixed rest).map (Words.give p value)
    else if mixed then (readWords options mixed rest).map (Words.addFree word)
    else .ok { free := word :: rest }

end TimedText.CommandLine
