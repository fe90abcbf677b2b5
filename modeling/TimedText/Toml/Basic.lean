import TimedText.Json.Basic

/-!
# TOML values and documents

A document is a table that grows statement by statement. What a later statement may still do to a
table depends on how the table came to be, so every table carries a mark. The three ways to grow are
`insert`, by a key and a value, and `declare` and `extend`, by a header; each of them refuses what
would open a closed table or write over a value.
-/

namespace TimedText

/-- How a table came to be. -/
inductive Toml.Mark where
  /-- On the way to a table that a header names. -/
  | implied
  /-- By a key with dots, in the section of this number. -/
  | dotted (part : Nat)
  /-- By a header. -/
  | declared
  /-- By braces. -/
  | inline
  deriving DecidableEq, Repr

/-- A TOML value. Dates and times are all the same here. -/
inductive Toml where
  | text (s : String)
  | int (i : Int)
  | float (d : Double)
  | bool (b : Bool)
  | moment
  | array (items : List Toml)
  | table (mark : Toml.Mark) (entries : List (String × Toml))
  /-- Tables that a header adds to one after another, the last of them apart. -/
  | tables (before : List (List (String × Toml))) (last : List (String × Toml))
  deriving Inhabited

namespace Toml

/-- The entries of a table, in order. -/
abbrev Entries := List (String × Toml)

/-- A key with dots. -/
abbrev Key := List String

/-- Whether a key with dots may go through a table, in the section of this number. -/
def Mark.isOpen (part : Nat) : Mark → Bool
  | .implied => true
  | .dotted p => p = part
  | .declared | .inline => false

/-- The table with one more value. A key with dots goes through tables of its own section and
through tables that no statement has made yet. -/
def insert (part : Nat) (value : Toml) : Key → Entries → Option Entries
  | [], _ => none
  | [k], entries =>
    match entries.lookup k with
    | none => some (entries ++ [(k, value)])
    | some _ => none
  | k :: key, entries =>
    match entries.lookup k with
    | none => do return entries ++ [(k, .table (.dotted part) (← insert part value key []))]
    | some (.table mark inner) =>
      if mark.isOpen part then do
        return Json.put k (.table (.dotted part) (← insert part value key inner)) entries
      else none
    | some _ => none

/-- Changes the table that a key leads to: of tables in a row, the last. Tables on the way are made
where they are missing. -/
def change (f : Entries → Option Entries) : Key → Entries → Option Entries
  | [], entries => f entries
  | k :: key, entries =>
    match entries.lookup k with
    | none => do return entries ++ [(k, .table .implied (← change f key []))]
    | some (.table mark inner) =>
      if mark = .inline then none
      else do return Json.put k (.table mark (← change f key inner)) entries
    | some (.tables before last) => do
      return Json.put k (.tables before (← change f key last)) entries
    | some _ => none

/-- A header makes a table, unless a statement has made it before. -/
def declareAt (k : String) (entries : Entries) : Option Entries :=
  match entries.lookup k with
  | none => some (entries ++ [(k, .table .declared [])])
  | some (.table .implied inner) => some (Json.put k (.table .declared inner) entries)
  | some _ => none

/-- A header adds a table to a row of tables. -/
def extendAt (k : String) (entries : Entries) : Option Entries :=
  match entries.lookup k with
  | none => some (entries ++ [(k, .tables [] [])])
  | some (.tables before last) => some (Json.put k (.tables (before ++ [last]) []) entries)
  | some _ => none

/-- The document behind the header of a table. -/
def declare (key : Key) (entries : Entries) : Option Entries :=
  match key.getLast? with
  | none => none
  | some k => change (declareAt k) key.dropLast entries

/-- The document behind the header of one table in a row. -/
def extend (key : Key) (entries : Entries) : Option Entries :=
  match key.getLast? with
  | none => none
  | some k => change (extendAt k) key.dropLast entries

end Toml

end TimedText
