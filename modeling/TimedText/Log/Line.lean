import TimedText.Log.Record
import TimedText.Number

/-!
# Log lines

A record is written as one JSON object on one line, beginning with its time. Times are counted in
seconds from the start of 1970, rounded to microseconds, and written as a date of the Gregorian
calendar.
-/

namespace TimedText.Log

/-- A moment: whole seconds from the start of 1970, and microseconds. -/
structure Moment where
  seconds : Int
  micros : Nat
  deriving DecidableEq, Repr

/-- Why seconds are not a moment that can be written. -/
inductive MomentError where
  | notANumber
  /-- The seconds do not fit into 64 bits. -/
  | tooFar
  /-- The year, counted from 1900, does not fit into 32 bits. -/
  | beyondCalendar
  | yearOutOfRange (year : Int)
  deriving DecidableEq, Repr

/-- What is said about seconds that no date is written for. -/
def MomentError.message? : MomentError → Option String
  | .notANumber => some "Invalid value NaN (not a number)"
  | .yearOutOfRange year => some ("year " ++ toString year ++ " is out of range")
  | .tooFar | .beyondCalendar => none

namespace Moment

/-- Seconds are counted from minus this to below it. -/
def bound : Int := Nat.pow 2 63

/-- Years are counted from 1900, from minus this to below it. -/
def yearBound : Int := Nat.pow 2 31

/-- The moment of a double. The fraction is turned into microseconds as a double and only then
rounded, a half to the even neighbour. -/
def ofDouble (d : Double) : Except MomentError Moment :=
  match d with
  | .nan => .error .notANumber
  | .infinite _ => .error .tooFar
  | .finite s .. =>
    let whole := d.magnitude / Double.unitsPerOne
    let fraction := Double.roundUnits false (d.magnitude % Double.unitsPerOne) 1
    let scaled := fraction * Double.ofNat 1000000
    let micros := Double.roundDiv scaled.magnitude Double.unitsPerOne
    let total : Int := whole * 1000000 + micros
    let total := if s then -total else total
    let seconds := total.fdiv 1000000
    if seconds < -bound ∨ bound ≤ seconds then .error .tooFar
    else .ok ⟨seconds, (total.fmod 1000000).toNat⟩

/-- The moment of a number of seconds. -/
def ofNumber : Number → Except MomentError Moment
  | .double d => ofDouble d
  | .whole i => if i < -bound ∨ bound ≤ i then .error .tooFar else .ok ⟨i, 0⟩

/-- Year, month and day of a day counted from the first of 1970. Years are counted from March, so
that the day that is sometimes there comes last. -/
def civil (days : Int) : Int × Nat × Nat :=
  let z := days + 719468
  let era := z.fdiv 146097
  let dayOfEra := (z - era * 146097).toNat
  let yearOfEra :=
    (dayOfEra - dayOfEra / 1460 + dayOfEra / 36524 - dayOfEra / 146096) / 365
  let dayOfYear := dayOfEra - (365 * yearOfEra + yearOfEra / 4 - yearOfEra / 100)
  let shifted := (5 * dayOfYear + 2) / 153
  let day := dayOfYear - (153 * shifted + 2) / 5 + 1
  let month := if shifted < 10 then shifted + 3 else shifted - 9
  let year : Int := yearOfEra + era * 400 + (if month ≤ 2 then 1 else 0)
  (year, month, day)

/-- A whole number with at least `width` digits. -/
def padded (width n : Nat) : String :=
  String.ofList (Decimal.padZeros width (Decimal.digits n))

/-- The date and the time of day; microseconds are written if there are any. The day before has to
be a date as well, since it decides whether a clock was changed. A year that is refused is told in
32 bits. -/
def text (m : Moment) : Except MomentError String :=
  let days := m.seconds.fdiv 86400
  let (year, month, day) := civil days
  let (yearBefore, _, _) := civil (days - 1)
  let rest := (m.seconds.fmod 86400).toNat
  if year - 1900 < -yearBound ∨ yearBound ≤ year - 1900 then .error .beyondCalendar
  else if year < 1 ∨ 9999 < year then .error (.yearOutOfRange (year.bmod (Nat.pow 2 32)))
  else if yearBefore < 1 then .error (.yearOutOfRange yearBefore)
  else
    .ok (padded 4 year.toNat ++ "-" ++ padded 2 month ++ "-" ++ padded 2 day ++ "T"
      ++ padded 2 (rest / 3600) ++ ":" ++ padded 2 (rest / 60 % 60) ++ ":" ++ padded 2 (rest % 60)
      ++ (if m.micros = 0 then "" else "." ++ padded 6 m.micros))

end Moment

/-- The time at which records are stamped where no other time is known. -/
def epochText : String := "1970-01-01T00:00:00"

/-- The members of the object that a record is written as. -/
def Record.members (r : Record) (time : String) : List (String × Json) :=
  [("timestamp", .str time), ("level", .str r.level.name), ("name", .str r.name),
   ("message", .str r.message)]
    ++ (r.exception.map fun e => ("exception", Json.str e.headline)).toList
    ++ (r.data.map fun d => ("data", d)).toList

/-- The line of a record, without its end. -/
def Record.line (r : Record) (time : String) : String := (Json.dict (r.members time)).print

end TimedText.Log
