import TimedText.Toml.Basic
import TimedText.Toml.Quoted

/-!
# TOML numbers, dates and times

A whole number is written in base ten, or unsigned in base sixteen, two or eight; single
underscores may stand between its digits. A date has to be a day of the calendar. Readers return
nothing where the text begins with nothing of the kind, and otherwise take the longest front that
is.
-/

namespace TimedText.Toml

/-! ## Numbers -/

/-- A digit of a base. -/
def digitOf (base : Nat) (c : Char) : Option Nat :=
  (Json.hexDigit c).bind fun d => if d < base then some d else none

/-- The number that digits write in a base. -/
def ofDigits (base : Nat) (ds : List Nat) : Nat := ds.foldl (fun n d => base * n + d) 0

/-- An unsigned number in another base than ten. -/
def readBased? (base : Nat) (cs : List Char) : Option (Toml × List Char) :=
  match Double.digitRun (digitOf base) false cs with
  | ([], _) => none
  | (ds, rest) => some (.int (ofDigits base ds), rest)

/-- The part of a decimal number before its point: a zero, or digits that do not begin with one. -/
def readWhole? (cs : List Char) : Option (List Nat × List Char) :=
  match cs with
  | '0' :: rest => some ([0], rest)
  | cs =>
    match Double.digitRun Double.asciiDigit false cs with
    | ([], _) => none
    | r => some r

/-- A point and places behind it, if both are there. -/
def readPlaces (cs : List Char) : Option (List Nat) × List Char :=
  match cs with
  | '.' :: rest =>
    match Double.digitRun Double.asciiDigit false rest with
    | ([], _) => (none, cs)
    | (ds, rest) => (some ds, rest)
  | cs => (none, cs)

/-- A power of ten, if it is complete. -/
def readExponent (cs : List Char) : Option Int × List Char :=
  match cs with
  | [] => (none, [])
  | c :: rest =>
    if c = 'e' ∨ c = 'E' then
      let (negative, rest) := Double.readSign rest
      match Double.digitRun Double.asciiDigit false rest with
      | ([], _) => (none, cs)
      | (ds, rest) =>
        let n : Int := Double.ofDigits ds
        (some (if negative then -n else n), rest)
    else (none, cs)

/-- A decimal number with its sign. -/
def readDecimal? (cs : List Char) : Option (Except ReadError (Toml × List Char)) :=
  let (negative, unsigned) := Double.readSign cs
  match readWhole? unsigned with
  | none => none
  | some (whole, rest) =>
    let (places, rest) := readPlaces rest
    let (power, rest) := readExponent rest
    some <|
      match places, power with
      | none, none =>
        if Json.maxDigits < whole.length then .error (.tooManyDigits whole.length)
        else
          let n : Int := Double.ofDigits whole
          .ok (.int (if negative then -n else n), rest)
      | places, power =>
        let places := places.getD []
        .ok (.float (Double.ofDecimal negative (Double.ofDigits (whole ++ places))
          (power.getD 0 - places.length)), rest)

/-- A number. -/
def readNumber? (cs : List Char) : Option (Except ReadError (Toml × List Char)) :=
  let based :=
    match cs with
    | '0' :: 'x' :: rest => readBased? 16 rest
    | '0' :: 'b' :: rest => readBased? 2 rest
    | '0' :: 'o' :: rest => readBased? 8 rest
    | _ => none
  match based with
  | some r => some (.ok r)
  | none => readDecimal? cs

/-- The words for doubles that have no digits. -/
def specialWords : List (String × Double) :=
  [("inf", .infinite false), ("nan", .nan), ("+inf", .infinite false), ("-inf", .infinite true),
   ("+nan", .nan), ("-nan", .nan)]

/-- The words for truth values. -/
def truthWords : List (String × Bool) := [("true", true), ("false", false)]

/-- A word of a table in front of a text. -/
def readWord? {α : Type} (words : List (String × α)) (cs : List Char) : Option (α × List Char) :=
  words.findSome? fun (w, a) => (Json.afterWord? w.toList cs).map (a, ·)

/-! ## Dates and times -/

/-- Exactly so many digits, as a number. -/
def readDigits? : Nat → Nat → List Char → Option (Nat × List Char)
  | 0, n, cs => some (n, cs)
  | _ + 1, _, [] => none
  | k + 1, n, c :: cs => do readDigits? k (10 * n + (← Double.asciiDigit c)) cs

/-- A character that has to come. -/
def expect? (c : Char) : List Char → Option (List Char)
  | [] => none
  | d :: cs => if d = c then some cs else none

/-- Whether a year has a leap day. -/
def isLeap (year : Nat) : Bool := year % 4 = 0 && (year % 100 ≠ 0 || year % 400 = 0)

/-- How many days a month has. -/
def daysIn (year month : Nat) : Nat :=
  if month = 2 then if isLeap year then 29 else 28
  else if month = 4 ∨ month = 6 ∨ month = 9 ∨ month = 11 then 30
  else 31

/-- Year, month and day. Months go to twelve and days to thirty-one; whether the day is in the
calendar is asked later. -/
def readDate? (cs : List Char) : Option ((Nat × Nat × Nat) × List Char) := do
  let (year, cs) ← readDigits? 4 0 cs
  let (month, cs) ← readDigits? 2 0 (← expect? '-' cs)
  let (day, cs) ← readDigits? 2 0 (← expect? '-' cs)
  if 1 ≤ month ∧ month ≤ 12 ∧ 1 ≤ day ∧ day ≤ 31 then return ((year, month, day), cs) else none

/-- A fraction of a second; without digits there is none. -/
def skipFraction (cs : List Char) : List Char :=
  match cs with
  | '.' :: rest => if (Json.takeDigits rest).1.isEmpty then cs else (Json.takeDigits rest).2
  | cs => cs

/-- Hours and minutes. -/
def readHourMinute? (cs : List Char) : Option (List Char) := do
  let (hour, cs) ← readDigits? 2 0 cs
  let (minute, cs) ← readDigits? 2 0 (← expect? ':' cs)
  if hour < 24 ∧ minute < 60 then return cs else none

/-- A time of day: what follows it. -/
def readTime? (cs : List Char) : Option (List Char) := do
  let cs ← readHourMinute? cs
  let (second, cs) ← readDigits? 2 0 (← expect? ':' cs)
  if second < 60 then return skipFraction cs else none

/-- The distance from world time, if it is told. -/
def skipOffset (cs : List Char) : List Char :=
  match cs with
  | [] => []
  | c :: rest =>
    if c = 'Z' ∨ c = 'z' then rest
    else if c = '+' ∨ c = '-' then (readHourMinute? rest).getD cs
    else cs

/-- A time of day behind a date, if there is one. -/
def skipTime (cs : List Char) : List Char :=
  match cs with
  | [] => []
  | c :: rest =>
    if c = 'T' ∨ c = 't' ∨ c = ' ' then
      match readTime? rest with
      | some rest => skipOffset rest
      | none => cs
    else cs

/-- A date with or without a time, or a time. -/
def readMoment? (cs : List Char) : Option (Except ReadError (Toml × List Char)) :=
  match readDate? cs with
  | some ((year, month, day), rest) =>
    some (if 1 ≤ year ∧ day ≤ daysIn year month then .ok (.moment, skipTime rest)
      else .error .malformed)
  | none => (readTime? cs).map fun rest => .ok (.moment, rest)

end TimedText.Toml
