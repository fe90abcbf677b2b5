import TimedText.Json.Reader

/-!
# TOML strings

Four forms: between single quotes nothing is escaped, between double quotes a backslash escapes;
three quotes in place of one let a string go over several lines. Readers begin behind the opening
quotes and return the rest behind the closing ones.
-/

namespace TimedText.Toml

/-- Why a document is not read. -/
inductive ReadError where
  | malformed
  /-- A whole number with more digits than are converted. -/
  | tooManyDigits (count : Nat)
  /-- Arrays and tables inside one another, more than are gone into. -/
  | tooDeep
  deriving DecidableEq, Repr

/-- What is missing makes a document malformed. -/
def require {α : Type} : Option α → Except ReadError α
  | some a => .ok a
  | none => .error .malformed

/-- A control character that may not stand in a string or a comment. The tabulator may; a line feed
may where there are several lines. -/
def isForbidden (lines : Bool) (c : Char) : Bool :=
  (c.toNat < 0x20 || c.toNat = 0x7f) && c ≠ '\t' && !(lines && c = '\n')

/-- A blank or a tabulator. -/
def isGap (c : Char) : Bool := c = ' ' || c = '\t'

/-- The rest of a string between single quotes. -/
def readLiteral : List Char → Option (List Char × List Char)
  | [] => none
  | c :: cs =>
    if c = '\'' then some ([], cs)
    else if isForbidden false c then none
    else (readLiteral cs).map fun (s, rest) => (c :: s, rest)

/-- The rest of a string between three single quotes. -/
def readLongLiteral : List Char → Option (List Char × List Char)
  | '\'' :: '\'' :: '\'' :: cs => some ([], cs)
  | [] => none
  | c :: cs =>
    if isForbidden true c then none
    else (readLongLiteral cs).map fun (s, rest) => (c :: s, rest)

/-- The character that a backslash and this letter stand for. -/
def simpleEscape (c : Char) : Option Char := if c = '/' then none else Json.simpleEscape c

/-- The character whose code these hexadecimal digits write, if there is one. -/
def charOfHex (ds : List Char) : Option Char := do
  let n := (← ds.mapM Json.hexDigit).foldl (fun n d => 16 * n + d) 0
  if h : n.isValidChar then some (Char.ofNatAux n h) else none

/-- The rest of a string between double quotes. -/
def readBasic : List Char → Option (List Char × List Char)
  | [] => none
  | '"' :: rest => some ([], rest)
  | '\\' :: 'u' :: a :: b :: c :: d :: rest => do
    let x ← charOfHex [a, b, c, d]
    let (s, rest) ← readBasic rest
    return (x :: s, rest)
  | '\\' :: 'U' :: a :: b :: c :: d :: e :: f :: g :: h :: rest => do
    let x ← charOfHex [a, b, c, d, e, f, g, h]
    let (s, rest) ← readBasic rest
    return (x :: s, rest)
  | '\\' :: c :: rest => do
    let x ← simpleEscape c
    let (s, rest) ← readBasic rest
    return (x :: s, rest)
  | c :: rest =>
    if c = '\\' ∨ isForbidden false c then none
    else (readBasic rest).map fun (s, rest) => (c :: s, rest)

/-- Whether the line ends behind nothing but gaps. -/
def endsLine (cs : List Char) : Bool := (cs.dropWhile isGap).head? = some '\n'

/-- The rest of a string between three double quotes. A backslash at the end of a line takes the
line feed away, and all gaps and line feeds that follow; while it does so, `skipping` holds. -/
def readLongBasic (skipping : Bool) : List Char → Option (List Char × List Char)
  | [] => none
  | '"' :: '"' :: '"' :: rest => some ([], rest)
  | '\\' :: 'u' :: a :: b :: c :: d :: rest => do
    let x ← charOfHex [a, b, c, d]
    let (s, rest) ← readLongBasic false rest
    return (x :: s, rest)
  | '\\' :: 'U' :: a :: b :: c :: d :: e :: f :: g :: h :: rest => do
    let x ← charOfHex [a, b, c, d, e, f, g, h]
    let (s, rest) ← readLongBasic false rest
    return (x :: s, rest)
  | '\\' :: c :: rest =>
    if c = '\n' ∨ (isGap c ∧ endsLine rest) then readLongBasic true rest
    else do
      let x ← simpleEscape c
      let (s, rest) ← readLongBasic false rest
      return (x :: s, rest)
  | c :: rest =>
    if skipping && (isGap c || c = '\n') then readLongBasic true rest
    else if c = '\\' ∨ isForbidden true c then none
    else (readLongBasic false rest).map fun (s, rest) => (c :: s, rest)

/-- A line feed directly behind the opening quotes does not count. -/
def skipFirstLine : List Char → List Char
  | '\n' :: cs => cs
  | cs => cs

/-- Up to two quotes directly behind the closing ones belong to the string. -/
def withQuotes (quote : Char) (r : List Char × List Char) : List Char × List Char :=
  let more := (r.2.take 2).takeWhile (· = quote)
  (r.1 ++ more, r.2.drop more.length)

/-- A string in front of a text, if there is one: with its opening quotes. -/
def readString? (cs : List Char) : Option (Option (List Char × List Char)) :=
  match cs with
  | '"' :: '"' :: '"' :: cs => some ((readLongBasic false (skipFirstLine cs)).map (withQuotes '"'))
  | '"' :: cs => some (readBasic cs)
  | '\'' :: '\'' :: '\'' :: cs =>
    some ((readLongLiteral (skipFirstLine cs)).map (withQuotes '\''))
  | '\'' :: cs => some (readLiteral cs)
  | _ => none

end TimedText.Toml
