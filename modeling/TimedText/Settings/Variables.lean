import TimedText.Json.Reader
import TimedText.Text.Blank

/-!
# Files of variables

A file of variables has a binding on each line: a name, an equals sign, and a value, which may
stand between quotes and then go over several lines. A name without a value is bound to nothing. A
line that is no binding is passed over. Values may refer to variables as `${NAME}` or
`${NAME:-otherwise}`, to those bound above before those of the environment.
-/

namespace TimedText.Settings.Variables

/-- A name, and the value it is bound to, if it has one. -/
abbrev Binding := String × Option String

/-! ## Characters -/

/-- A blank character inside a line. -/
def isGap (c : Char) : Bool := Text.isBlank c && c ≠ '\n' && c ≠ '\r'

/-- A character that ends a line. -/
def isLineEnd (c : Char) : Bool := c = '\n' || c = '\r'

/-- A character of a name that does not stand between quotes. -/
def isNameChar (c : Char) : Bool := !Text.isBlank c && c ≠ '=' && c ≠ '#'

/-- Line ends of every system, as line feeds. -/
def unifyLines : List Char → List Char
  | '\r' :: '\n' :: cs => '\n' :: unifyLines cs
  | '\r' :: cs => '\n' :: unifyLines cs
  | c :: cs => c :: unifyLines cs
  | [] => []

/-! ## Quoted values -/

/-- The front of a text up to a closing quote, and the rest behind it. A backslash escapes the
character behind it, so that a quote there does not close. -/
def untilQuote (quote : Char) : List Char → Option (List Char × List Char)
  | [] => none
  | '\\' :: c :: cs => (untilQuote quote cs).map fun (s, rest) => ('\\' :: c :: s, rest)
  | c :: cs =>
    if c = quote then some ([], cs)
    else (untilQuote quote cs).map fun (s, rest) => (c :: s, rest)

/-- What a backslash and this letter stand for between double quotes. -/
def doubleEscape (c : Char) : Option Char :=
  if c = '\\' ∨ c = '\'' ∨ c = '"' then some c
  else if c = 'a' then some '\x07'
  else if c = 'b' then some '\x08'
  else if c = 'f' then some '\x0c'
  else if c = 'n' then some '\n'
  else if c = 'r' then some '\r'
  else if c = 't' then some '\t'
  else if c = 'v' then some '\x0b'
  else none

/-- What a backslash and this letter stand for between single quotes. -/
def singleEscape (c : Char) : Option Char := if c = '\\' ∨ c = '\'' then some c else none

/-- A text with its escapes replaced; a backslash in front of another letter stays. -/
def unescape (escape : Char → Option Char) : List Char → List Char
  | '\\' :: c :: cs =>
    match escape c with
    | some x => x :: unescape escape cs
    | none => '\\' :: unescape escape (c :: cs)
  | c :: cs => c :: unescape escape cs
  | [] => []

/-! ## Bindings -/

/-- A value without quotes, up to a comment: a hash behind a blank. -/
def beforeComment (afterBlank : Bool) : List Char → List Char
  | [] => []
  | c :: cs => if c = '#' && afterBlank then [] else c :: beforeComment (Text.isBlank c) cs

/-- The value behind an equals sign, and what follows it. Blanks in front do not belong to it. -/
def readValue (cs : List Char) : Option (List Char × List Char) :=
  match cs.dropWhile isGap with
  | '\'' :: cs => (untilQuote '\'' cs).map fun (s, rest) => (unescape singleEscape s, rest)
  | '"' :: cs => (untilQuote '"' cs).map fun (s, rest) => (unescape doubleEscape s, rest)
  | _ =>
    let (line, rest) := cs.span (!isLineEnd ·)
    some (Text.trimBy Text.isBlank (beforeComment false line), rest)

/-- A word in front of a binding that means nothing here. -/
def skipExport (cs : List Char) : List Char :=
  match Json.afterWord? "export".toList cs with
  | some (c :: rest) => if isGap c then rest.dropWhile isGap else cs
  | _ => cs

/-- A name; nothing in front of a comment. -/
def readName (cs : List Char) : Option (Option (List Char) × List Char) :=
  match cs with
  | '#' :: _ => some (none, cs)
  | '\'' :: cs =>
    match cs.span (· ≠ '\'') with
    | (name, _ :: rest) => if name.isEmpty then none else some (some name, rest)
    | (_, []) => none
  | cs =>
    match cs.span isNameChar with
    | ([], _) => none
    | (name, rest) => some (some name, rest)

/-- The end of a line, a comment before it. -/
def endLine (cs : List Char) : Option (List Char) :=
  let cs := cs.dropWhile isGap
  let cs :=
    match cs with
    | '#' :: cs => cs.dropWhile (!isLineEnd ·)
    | cs => cs
  match cs with
  | [] => some []
  | c :: rest => if isLineEnd c then some rest else none

/-- What one binding comes to. The rest is where reading goes on; after a failure that is
somewhere in the line that is no binding. -/
structure Outcome where
  binding : Option Binding
  rest : List Char
  failed : Bool

/-- A failure, met at a place in the text. -/
def failAt (cs : List Char) : Outcome := ⟨none, cs, true⟩

/-- What follows the name of a binding, and with it the binding. -/
def readBound (name : Option (List Char)) (cs : List Char) : Outcome :=
  let finish (value : Option (List Char)) (cs : List Char) : Outcome :=
    match endLine cs with
    | none => failAt cs
    | some rest => ⟨name.map fun n => (String.ofList n, value.map String.ofList), rest, false⟩
  match cs.dropWhile isGap with
  | '=' :: cs =>
    match readValue cs with
    | none => failAt cs
    | some (value, rest) => finish (some value) rest
  | cs => finish none cs

/-- The binding in front of a text, blank lines skipped. -/
def readBinding (cs : List Char) : Outcome :=
  let cs := skipExport (cs.dropWhile Text.isBlank)
  match readName cs with
  | none => failAt cs
  | some (name, rest) => readBound name rest

/-- The rest of a text behind the line in which reading failed. -/
def skipLine (cs : List Char) : List Char := (cs.dropWhile (!isLineEnd ·)).drop 1

/-- The bindings of a text, in order. -/
def readAll : Nat → List Char → List Binding
  | 0, _ => []
  | _ + 1, [] => []
  | n + 1, cs =>
    if cs.all Text.isBlank then []
    else
      let r := readBinding cs
      r.binding.toList ++ readAll n (if r.failed then skipLine r.rest else r.rest)

/-! ## References -/

/-- A reference in front of a text: its name, what holds if the name is not bound, and the rest. -/
def readReference (cs : List Char) : Option (String × String × List Char) :=
  match cs with
  | '$' :: '\x7b' :: cs =>
    match cs.span fun c => c ≠ '\x7d' && c ≠ ':' with
    | (name, '\x7d' :: rest) => some (String.ofList name, "", rest)
    | (name, ':' :: '-' :: rest) =>
      match rest.span (· ≠ '\x7d') with
      | (otherwise, '\x7d' :: rest) => some (String.ofList name, String.ofList otherwise, rest)
      | _ => none
    | _ => none
  | _ => none

/-- A value with its references replaced. The bound is the length of the value. -/
def resolve (look : String → Option (Option String)) : Nat → List Char → List Char
  | 0, cs => cs
  | _ + 1, [] => []
  | n + 1, c :: cs =>
    match readReference (c :: cs) with
    | some (name, otherwise, rest) =>
      (((look name).getD (some otherwise)).getD "").toList ++ resolve look n rest
    | none => c :: resolve look n cs

/-- The bindings with their references replaced. A name that is bound twice keeps its place and has
its last value. -/
def resolveAll (environment : List (String × String)) (bindings : List Binding) : List Binding :=
  bindings.foldl (fun done (name, value) =>
    let look (n : String) : Option (Option String) :=
      match done.lookup n with
      | some v => some v
      | none => (environment.lookup n).map some
    let value := value.map fun v =>
      String.ofList (resolve look v.toList.length v.toList)
    Json.put name value done) []

/-- A text without the mark of its encoding in front. -/
def withoutEncodingMark : List Char → List Char
  | '\ufeff' :: cs => cs
  | cs => cs

/-- The bindings that a file makes in an environment. -/
def read (environment : List (String × String)) (text : String) : List Binding :=
  let cs := unifyLines (withoutEncodingMark text.toList)
  resolveAll environment (readAll cs.length cs)

end TimedText.Settings.Variables
