import TimedText.Log.Value
import TimedText.Json.Reader

/-!
# Message templates

A template is a text with directives, each a percent sign, flags, a width, a precision and a letter;
two percent signs stand for one.
Directives take their arguments one after another; with a table as the only argument they may also
name its members. A template is filled in only if there are arguments, and then all of them have to
be taken.
-/

namespace TimedText.Log

/-- Why a template cannot be filled in. -/
inductive TemplateError where
  | tooFewArguments
  | tooManyArguments
  /-- The argument is not of the kind that the directive takes. -/
  | wrongArgument
  /-- A member is named, but the arguments are no table. -/
  | needsTable
  | missingMember
  | outOfRange
  | notANumber
  | tooWide (part : String)
  | incomplete
  | incompleteName
  | unsupported (c : Char) (index : Nat)
  deriving DecidableEq

namespace TemplateError

/-- What is said about an error of the template itself. -/
def message? : TemplateError → Option String
  | .notANumber => some "cannot convert float NaN to integer"
  | .tooWide part => some (part ++ " too big")
  | .incomplete => some "incomplete format"
  | .incompleteName => some "incomplete format key"
  | .unsupported c index =>
    let shown := if 31 ≤ c.toNat ∧ c.toNat ≤ 126 then c else '?'
    some ("unsupported format character '" ++ String.singleton shown ++ "' (0x"
      ++ String.ofList (Text.hex 1 c.toNat) ++ ") at index " ++ toString index)
  | _ => none

end TemplateError

namespace Template

/-- The marks behind the percent sign. -/
structure Flags where
  left : Bool := false
  plus : Bool := false
  blank : Bool := false
  alternate : Bool := false
  zero : Bool := false
  deriving DecidableEq, Repr

/-- A directive without its percent sign. -/
structure Directive where
  flags : Flags
  width : Nat := 0
  precision : Option Nat := none
  letter : Char
  deriving DecidableEq, Repr

/-- The arguments that are left, and the table whose members may be named. -/
structure Supply where
  rest : List Json
  table : Option (List (String × Json)) := none

/-- Arguments that are taken one after another. -/
def Supply.ofList (arguments : List Json) : Supply := ⟨arguments, none⟩

/-- The arguments of a message: a table with members, if it is the only one, can be asked for its
members. -/
def Supply.ofMessage : List Json → Supply
  | [.dict (m :: ms)] => ⟨[.dict (m :: ms)], some (m :: ms)⟩
  | arguments => .ofList arguments

/-- The next argument. -/
def Supply.next (s : Supply) : Except TemplateError (Json × Supply) :=
  match s.rest with
  | [] => .error .tooFewArguments
  | j :: rest => .ok (j, { s with rest })

/-! ## Reading a directive -/

/-- A directive that is being read: what was read, the arguments, and the characters behind. -/
structure Reading (α : Type) where
  value : α
  supply : Supply
  rest : List Char

/-- The name of a member up to its closing parenthesis, and what follows. Parentheses inside are
balanced. -/
def readName (depth : Nat) : List Char → Option (List Char × List Char)
  | [] => none
  | c :: cs =>
    if c = ')' ∧ depth = 0 then some ([], cs)
    else
      let depth := if c = '(' then depth + 1 else if c = ')' then depth - 1 else depth
      (readName depth cs).map fun (name, rest) => (c :: name, rest)

/-- The named member, if one is named, becomes the only argument. -/
def readMember (s : Supply) (cs : List Char) : Except TemplateError (Supply × List Char) :=
  match cs with
  | '(' :: cs =>
    match s.table with
    | none => .error .needsTable
    | some members =>
      match readName 0 cs with
      | none => .error .incompleteName
      | some (name, rest) =>
        match members.lookup (String.ofList name) with
        | none => .error .missingMember
        | some j => .ok ({ s with rest := [j] }, rest)
  | cs => .ok (s, cs)

/-- The flags with the one that a character stands for. -/
def Flags.add (f : Flags) (c : Char) : Option Flags :=
  if c = '-' then some { f with left := true }
  else if c = '+' then some { f with plus := true }
  else if c = ' ' then some { f with blank := true }
  else if c = '#' then some { f with alternate := true }
  else if c = '0' then some { f with zero := true }
  else none

/-- Flags, and what follows. -/
def readFlags (f : Flags) : List Char → Flags × List Char
  | [] => (f, [])
  | c :: cs =>
    match f.add c with
    | some f => readFlags f cs
    | none => (f, c :: cs)

/-- A size in digits, or an argument that is one; it lies below `limit`. -/
def readSize (part : String) (limit : Nat) (s : Supply) (cs : List Char) :
    Except TemplateError (Reading (Option Int)) :=
  match cs with
  | '*' :: rest =>
    match s.next with
    | .error e => .error e
    | .ok (.int i, s) =>
      if -limit ≤ i ∧ i < limit then .ok ⟨some i, s, rest⟩ else .error .outOfRange
    | .ok (.bool b, s) => .ok ⟨some b.toNat, s, rest⟩
    | .ok _ => .error .wrongArgument
  | cs =>
    let (ds, rest) := Json.takeDigits cs
    if ds.isEmpty then .ok ⟨none, s, rest⟩
    else if limit ≤ Json.natOfChars ds then .error (.tooWide part)
    else .ok ⟨some (Json.natOfChars ds), s, rest⟩

/-- A precision behind a point; without digits it is zero. -/
def readPrecision (s : Supply) (cs : List Char) :
    Except TemplateError (Reading (Option Nat)) :=
  match cs with
  | '.' :: cs => do
    let r ← readSize "precision" (Nat.pow 2 31) s cs
    return ⟨some (r.value.getD 0).toNat, r.supply, r.rest⟩
  | cs => .ok ⟨none, s, cs⟩

/-- A letter that says how long a number is in other languages means nothing here. -/
def skipLength : List Char → List Char
  | c :: cs => if c = 'h' ∨ c = 'l' ∨ c = 'L' then cs else c :: cs
  | [] => []

/-- The directive behind a percent sign. -/
def readDirective (s : Supply) (cs : List Char) : Except TemplateError (Reading Directive) := do
  let (s, cs) ← readMember s cs
  let (flags, cs) := readFlags {} cs
  let w ← readSize "width" (Nat.pow 2 63) s cs
  let p ← readPrecision w.supply w.rest
  let width := w.value.getD 0
  let flags := if width < 0 then { flags with left := true } else flags
  match skipLength p.rest with
  | [] => throw .incomplete
  | letter :: rest => return ⟨⟨flags, width.natAbs, p.value, letter⟩, p.supply, rest⟩

/-! ## Filling a directive in -/

/-- A text brought to a width; the sign of a number and a mark for its base stay in front of
zeros. -/
def pad (d : Directive) (front : List Char) (numeric : Bool) (body : List Char) : List Char :=
  let missing := d.width - (front.length + body.length)
  if d.flags.left then front ++ body ++ List.replicate missing ' '
  else if numeric && d.flags.zero then front ++ List.replicate missing '0' ++ body
  else List.replicate missing ' ' ++ front ++ body

/-- The sign of a number as it is written. -/
def sign (d : Directive) (negative : Bool) : List Char :=
  if negative then ['-'] else if d.flags.plus then ['+'] else if d.flags.blank then [' '] else []

/-- A text, cut to the precision. -/
def fillText (d : Directive) (s : String) : List Char :=
  pad d [] false (match d.precision with
    | none => s.toList
    | some n => s.toList.take n)

/-- A whole number in a base, with at least as many digits as the precision says. -/
def fillWhole (d : Directive) (base : Nat) (mark : List Char) (upper : Bool) (i : Int) :
    List Char :=
  let ds := Decimal.padZeros (d.precision.getD 0) (Nat.toDigits base i.natAbs)
  let ds := if upper then ds.map Char.toUpper else ds
  pad d (sign d (i < 0) ++ (if d.flags.alternate then mark else [])) true ds

/-- The whole part of a number. -/
def wholePart : Json → Except TemplateError Int
  | .int i => .ok i
  | .bool b => .ok b.toNat
  | .float .nan => .error .notANumber
  | .float (.infinite _) => .error .outOfRange
  | .float d =>
    let n : Int := d.magnitude / Double.unitsPerOne
    .ok (if d.isNegative then -n else n)
  | _ => .error .wrongArgument

/-- A whole number that is written as one. -/
def whole : Json → Except TemplateError Int
  | .int i => .ok i
  | .bool b => .ok b.toNat
  | _ => .error .wrongArgument

/-- A number as a double. -/
def double : Json → Except TemplateError Double
  | .float d => .ok d
  | .bool b => .ok (Double.ofNat b.toNat)
  | .int i =>
    match Double.ofInt? i with
    | some d => .ok d
    | none => .error .outOfRange
  | _ => .error .wrongArgument

/-- The digits of a magnitude with an exponent and `places` places. -/
def scientific (places : Nat) (x : Double) : List Char :=
  let d := x.significant (places + 1)
  let ds := Decimal.digits d.coefficient
  let power := if d.coefficient = 0 then 0 else d.exponent + (ds.length - 1 : Nat)
  Decimal.scientific 2 (ds ++ List.replicate (places + 1 - ds.length) '0') power

/-- So many significant digits, without trailing zeros unless they are kept. -/
def significant (keepZeros : Bool) (n : Nat) (x : Double) : List Char :=
  let d := x.significant n
  let layout := { Double.generalLayout with limit := n }
  if !keepZeros then d.layOut layout
  else if layout.isPositional d then
    let ds := Decimal.digits d.coefficient
    let place := if d.coefficient = 0 then 1 else ds.length + d.exponent
    Decimal.positional false (ds ++ List.replicate (n - ds.length) '0') place
  else scientific (n - 1) x

/-- A number with a point, which is set behind its first digits if there is none. -/
def withPoint (cs : List Char) : List Char :=
  if '.' ∈ cs then cs
  else
    let (ds, rest) := Json.takeDigits cs
    ds ++ '.' :: rest

/-- A double, by the function that writes its magnitude with a precision. -/
def fillDouble (d : Directive) (write : Nat → Double → List Char) (x : Double) : List Char :=
  let body :=
    match x with
    | .nan => "nan".toList
    | .infinite _ => "inf".toList
    | .finite .. =>
      let digits := write (d.precision.getD 6) x
      if d.flags.alternate then withPoint digits else digits
  let body := if d.letter.isUpper then body.map Char.toUpper else body
  pad d (sign d x.isNegative) true body

/-- A character, given by itself or by its code. -/
def character : Json → Except TemplateError Char
  | .int i => if 0 ≤ i ∧ i < 0x110000 then .ok (Json.charOfCode i.toNat) else .error .outOfRange
  | .bool b => .ok (Char.ofNat b.toNat)
  | .str s =>
    match s.toList with
    | [c] => .ok c
    | _ => .error .wrongArgument
  | _ => .error .wrongArgument

/-- An argument as a directive writes it. `index` is where the letter stands in the template. -/
def fill (d : Directive) (index : Nat) (j : Json) : Except TemplateError (List Char) :=
  match d.letter with
  | 's' => .ok (fillText d (plain j))
  | 'r' => .ok (fillText d (spelled j))
  | 'a' => .ok (fillText d (asciiOnly (spelled j)))
  | 'd' | 'i' | 'u' => (wholePart j).map (fillWhole d 10 [] false)
  | 'o' => (whole j).map (fillWhole d 8 ['0', 'o'] false)
  | 'x' => (whole j).map (fillWhole d 16 ['0', 'x'] false)
  | 'X' => (whole j).map (fillWhole d 16 ['0', 'X'] true)
  | 'f' | 'F' => (double j).map (fillDouble d Double.fixedDigits)
  | 'e' | 'E' => (double j).map (fillDouble d scientific)
  | 'g' | 'G' => (double j).map (fillDouble d fun n => significant d.flags.alternate (max n 1))
  | 'c' => (character j).map fun c => fillText { d with precision := none } (String.singleton c)
  | c => .error (.unsupported c index)

/-- The rest of a template filled in. `total` is the length of the template; the bound is on the
characters that are left. -/
def fillRest (total : Nat) : Nat → Supply → List Char → Except TemplateError (List Char)
  | _, s, [] =>
    if s.table.isNone && !s.rest.isEmpty then .error .tooManyArguments else .ok []
  | 0, _, _ => .ok []
  | n + 1, s, '%' :: '%' :: cs => do return '%' :: (← fillRest total n s cs)
  | n + 1, s, '%' :: cs => do
    let r ← readDirective s cs
    let (j, s) ← r.supply.next
    let text ← fill r.value (total - r.rest.length - 1) j
    return text ++ (← fillRest total n s r.rest)
  | n + 1, s, c :: cs => do return c :: (← fillRest total n s cs)

end Template

/-- A template filled in. Without arguments it is a text like any other. -/
def fillTemplate (template : String) (supply : Template.Supply) : Except TemplateError String :=
  if supply.rest.isEmpty then .ok template
  else
    let cs := template.toList
    (Template.fillRest cs.length cs.length supply cs).map String.ofList

end TimedText.Log
