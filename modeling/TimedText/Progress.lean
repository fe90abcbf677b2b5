import TimedText.Double.Text
import TimedText.Text.Digit

/-!
# Progress of an encoding

The encoder's status lines say how much of the video is written, as `time=HH:MM:SS.CC` in decimal
digits of any script. Against a known duration that is a percentage, at most a hundred.
-/

namespace TimedText.Progress

/-- The elapsed time that a status line tells. -/
structure Elapsed where
  hours : Nat
  minutes : Nat
  /-- Hundredths of a second beyond the whole minutes. -/
  hundredths : Nat
  deriving DecidableEq, Repr

/-- The number that two digits write. -/
def twoDigits (a b : Char) : Option Nat := do
  return 10 * (← Text.digitValue a) + (← Text.digitValue b)

/-- The elapsed time at the front of a text. -/
def elapsedAt? : List Char → Option Elapsed
  | 't' :: 'i' :: 'm' :: 'e' :: '=' :: h₁ :: h₂ :: ':' :: m₁ :: m₂ :: ':' :: s₁ :: s₂ :: '.' :: c₁
      :: c₂ :: _ => do
    return ⟨← twoDigits h₁ h₂, ← twoDigits m₁ m₂, 100 * (← twoDigits s₁ s₂) + (← twoDigits c₁ c₂)⟩
  | _ => none

/-- The leftmost elapsed time in a text. -/
def findElapsed? : List Char → Option Elapsed
  | [] => none
  | c :: cs => (elapsedAt? (c :: cs)).or (findElapsed? cs)

/-- The elapsed time in seconds. -/
def Elapsed.seconds (e : Elapsed) : Double :=
  Double.ofNat (e.hours * 3600 + e.minutes * 60) + Double.ofDecimal false e.hundredths (-2)

/-- Whether a duration is known; zero and below is not known. -/
def isKnown (total : Double) : Bool := !total.le .zero

/-- How much of the duration has elapsed, in percent, at most a hundred. -/
def percent (e : Elapsed) (total : Double) : Double :=
  let p := e.seconds / total * Double.ofNat 100
  if p < Double.ofNat 100 then p else Double.ofNat 100

/-- The percentage that a line tells, if it tells one. -/
def ofLine? (line : String) (total : Option Double) : Option Double :=
  match total with
  | none => none
  | some d => if isKnown d then (findElapsed? line.toList).map (percent · d) else none

end TimedText.Progress
