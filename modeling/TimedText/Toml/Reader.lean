import TimedText.Toml.Scalar

/-!
# Reading TOML

The grammar of TOML 1.0. A document is read statement by statement; the first that is malformed, or
that the document refuses, makes all of it malformed. The bound on the depth of the readers is the
length of the text.
-/

namespace TimedText.Toml

/-- The text without the gaps in front. -/
def skipGaps (cs : List Char) : List Char := cs.dropWhile isGap

/-- The text without gaps, line feeds and comments in front. -/
def skipLines (inComment : Bool) : List Char → Option (List Char)
  | [] => some []
  | c :: cs =>
    if inComment then
      if c = '\n' then skipLines false cs
      else if isForbidden false c then none
      else skipLines true cs
    else if c = '#' then skipLines true cs
    else if isGap c || c = '\n' then skipLines false cs
    else some (c :: cs)

/-- The text behind a statement has to be at its end, or at the end of a line. -/
def endStatement (cs : List Char) : Option (List Char) :=
  let cs := skipGaps cs
  let (comment, cs) :=
    match cs with
    | '#' :: cs => cs.span (· ≠ '\n')
    | cs => ([], cs)
  if comment.any (isForbidden false) then none
  else
    match cs with
    | [] => some []
    | '\n' :: cs => some cs
    | _ => none

/-! ## Keys -/

/-- A character of a key without quotes. -/
def isBare (c : Char) : Bool := c.isAlphanum || c = '-' || c = '_'

/-- One part of a key. -/
def readPart (cs : List Char) : Option (String × List Char) :=
  let ofChars (r : List Char × List Char) := (String.ofList r.1, r.2)
  match cs with
  | '"' :: cs => (readBasic cs).map ofChars
  | '\'' :: cs => (readLiteral cs).map ofChars
  | cs =>
    match cs.span isBare with
    | ([], _) => none
    | r => some (ofChars r)

/-- The parts of a key, points between them. -/
def readKey : Nat → List Char → Option (Key × List Char)
  | 0, _ => none
  | bound + 1, cs => do
    let (part, rest) ← readPart cs
    match skipGaps rest with
    | '.' :: rest =>
      let (key, rest) ← readKey bound (skipGaps rest)
      return (part :: key, rest)
    | rest => return ([part], rest)

/-! ## Values -/

/-- A value that holds no other values. -/
def readScalar (cs : List Char) : Except ReadError (Toml × List Char) :=
  match readString? cs with
  | some s => do
    let (s, rest) ← require s
    return (.text (String.ofList s), rest)
  | none =>
    match readWord? truthWords cs with
    | some (b, rest) => .ok (.bool b, rest)
    | none =>
      match readMoment? cs with
      | some r => r
      | none =>
        match readNumber? cs with
        | some r => r
        | none => do
          let (d, rest) ← require (readWord? specialWords cs)
          return (.float d, rest)

/-- Values may stand inside one another up to this weight, where an array weighs `arrayWeight` and
a table between braces `tableWeight`. -/
def maxNesting : Nat := 980

@[inherit_doc maxNesting]
def arrayWeight : Nat := 2

@[inherit_doc maxNesting]
def tableWeight : Nat := 3

mutual

/-- A value in front of a text, with room for so much more weight. -/
def readValue (bound room : Nat) (cs : List Char) : Except ReadError (Toml × List Char) :=
  match bound with
  | 0 => .error .malformed
  | bound + 1 =>
    match cs with
    | '[' :: cs =>
      if room < arrayWeight then .error .tooDeep
      else do
        let (items, rest) ← readItems bound (room - arrayWeight) cs
        return (.array items, rest)
    | '\x7b' :: cs =>
      if room < tableWeight then .error .tooDeep
      else
        match skipGaps cs with
        | '\x7d' :: rest => .ok (.table .inline [], rest)
        | rest => do
          let (entries, rest) ← readEntries bound (room - tableWeight) [] rest
          return (.table .inline entries, rest)
    | cs => readScalar cs

/-- The items of an array up to its closing bracket. -/
def readItems (bound room : Nat) (cs : List Char) : Except ReadError (List Toml × List Char) :=
  match bound with
  | 0 => .error .malformed
  | bound + 1 => do
    match ← require (skipLines false cs) with
    | ']' :: rest => return ([], rest)
    | cs =>
      let (item, rest) ← readValue bound room cs
      match ← require (skipLines false rest) with
      | ']' :: rest => return ([item], rest)
      | ',' :: rest =>
        let (items, rest) ← readItems bound room rest
        return (item :: items, rest)
      | _ => throw .malformed

/-- The entries of a table up to its closing brace; at least one. -/
def readEntries (bound room : Nat) (entries : Entries) (cs : List Char) :
    Except ReadError (Entries × List Char) :=
  match bound with
  | 0 => .error .malformed
  | bound + 1 => do
    let (key, value, rest) ← readPair bound room cs
    let entries ← require (insert 0 value key entries)
    match skipGaps rest with
    | '\x7d' :: rest => return (entries, rest)
    | ',' :: rest => readEntries bound room entries (skipGaps rest)
    | _ => throw .malformed

/-- A key and its value. -/
def readPair (bound room : Nat) (cs : List Char) : Except ReadError (Key × Toml × List Char) :=
  match bound with
  | 0 => .error .malformed
  | bound + 1 => do
    let (key, rest) ← require (readKey (bound + 1) cs)
    match rest with
    | '=' :: rest =>
      let (value, rest) ← readValue bound room (skipGaps rest)
      return (key, value, rest)
    | _ => throw .malformed

end

/-! ## Documents -/

/-- A document under way: what it holds, the number of its section, and the header of that. -/
structure Draft where
  entries : Entries := []
  part : Nat := 0
  header : Key := []

/-- The document behind a header. -/
def Draft.enter (d : Draft) (key : Key) (entries : Entries) : Draft := ⟨entries, d.part + 1, key⟩

/-- One statement: the document behind it, and the rest of its line. -/
def readStatement (bound : Nat) (d : Draft) (cs : List Char) :
    Except ReadError (Draft × List Char) :=
  match cs with
  | '[' :: '[' :: cs => require do
    let (key, rest) ← readKey bound (skipGaps cs)
    let entries ← extend key d.entries
    match rest with
    | ']' :: ']' :: rest => return (d.enter key entries, rest)
    | _ => none
  | '[' :: cs => require do
    let (key, rest) ← readKey bound (skipGaps cs)
    let entries ← declare key d.entries
    match rest with
    | ']' :: rest => return (d.enter key entries, rest)
    | _ => none
  | cs => do
    let (key, value, rest) ← readPair bound maxNesting cs
    let entries ← require (change (insert d.part value key) d.header d.entries)
    return ({ d with entries }, rest)

/-- The statements of a document. -/
def readStatements (bound : Nat) : Nat → Draft → List Char → Except ReadError Entries
  | 0, _, _ => .error .malformed
  | n + 1, d, cs =>
    match skipGaps cs with
    | [] => .ok d.entries
    | '\n' :: rest => readStatements bound n d rest
    | '#' :: rest => do
      let rest ← require (endStatement ('#' :: rest))
      readStatements bound n d rest
    | cs => do
      let (d, rest) ← readStatement bound d cs
      let rest ← require (endStatement rest)
      readStatements bound n d rest

/-- A carriage return before a line feed does not count. -/
def unixLines : List Char → List Char
  | '\r' :: '\n' :: cs => '\n' :: unixLines cs
  | c :: cs => c :: unixLines cs
  | [] => []

/-- The entries of a document. -/
def read (text : String) : Except ReadError Entries :=
  let cs := unixLines text.toList
  readStatements (2 * cs.length + 3) (cs.length + 1) {} cs

end TimedText.Toml
