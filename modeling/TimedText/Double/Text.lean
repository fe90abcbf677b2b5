import TimedText.Double.Basic

/-!
# Doubles as decimal text

`shortest` gives the fewest decimal digits that read back as the double, the nearest of those when
there is a choice. `Layout` says how digits are set out: where positional notation ends and what an
exponent looks like. `fixed` prints a given number of places of the exact value.
-/

namespace TimedText

/-- The number `coefficient · 10^exponent`. -/
structure Decimal where
  coefficient : Nat
  exponent : Int
  deriving DecidableEq, Repr

namespace Decimal

/-- The decimal digits of a whole number. -/
def digits (n : Nat) : List Char := Nat.toDigits 10 n

/-- The same number without trailing zeros in the coefficient. The bound is the number of steps
that can succeed. -/
def trim (d : Decimal) : Decimal := go (Nat.log2 d.coefficient + 1) d
where
  go : Nat → Decimal → Decimal
    | 0, d => d
    | n + 1, d =>
      if d.coefficient ≠ 0 ∧ d.coefficient % 10 = 0 then
        go n ⟨d.coefficient / 10, d.exponent + 1⟩
      else d

/-- How digits are set out. -/
structure Layout where
  /-- Positional notation from this power of ten, -/
  least : Int
  /-- and below this one. -/
  limit : Int
  /-- Whether a whole number is followed by a point and a zero. -/
  wholePoint : Bool
  /-- At least so many digits in an exponent. -/
  exponentWidth : Nat

/-- Places text at the right end of `width` zeros. -/
def padZeros (width : Nat) (ds : List Char) : List Char :=
  List.replicate (width - ds.length) '0' ++ ds

/-- Digits with the point after the first `place` of them; zeros fill what is missing. -/
def positional (wholePoint : Bool) (ds : List Char) (place : Int) : List Char :=
  if place ≤ 0 then '0' :: '.' :: (List.replicate (-place).toNat '0' ++ ds)
  else if ds.length ≤ place then
    ds ++ List.replicate (place.toNat - ds.length) '0' ++ (if wholePoint then ['.', '0'] else [])
  else ds.take place.toNat ++ '.' :: ds.drop place.toNat

/-- One digit, the point, the others, and the power of ten. -/
def scientific (width : Nat) (ds : List Char) (power : Int) : List Char :=
  ds.take 1 ++ (if ds.length ≤ 1 then [] else '.' :: ds.drop 1)
    ++ 'e' :: (if power < 0 then '-' else '+') :: padZeros width (digits power.natAbs)

/-- Whether a decimal is set out without an exponent. -/
def Layout.isPositional (l : Layout) (d : Decimal) : Bool :=
  let place := (digits d.coefficient).length + d.exponent
  d.coefficient = 0 || (l.least < place && place ≤ l.limit)

/-- The text of a positive decimal without trailing zeros in its coefficient. -/
def layOut (l : Layout) (d : Decimal) : List Char :=
  let ds := digits d.coefficient
  let place := if d.coefficient = 0 then 1 else ds.length + d.exponent
  if l.isPositional d then positional l.wholePoint ds place
  else scientific l.exponentWidth ds (place - 1)

end Decimal

namespace Double

open Decimal (Layout)

/-! ## Fewest digits -/

/-- The greatest power of ten that is at most this many units. -/
def decimalPower (units : Nat) : Int :=
  (Decimal.digits (units * Nat.pow 10 330 / unitsPerOne)).length - 331

/-- Units over a power of ten, as a quotient of whole numbers. -/
def scaled (units : Nat) (power : Int) : Nat × Nat :=
  if 0 ≤ power then (units, unitsPerOne * Nat.pow 10 power.toNat)
  else (units * Nat.pow 10 (-power).toNat, unitsPerOne)

/-- On the grid of multiples of `10^power`, the neighbour of the double that reads back as it: the
nearer one if both do, the even one if they are equally near. -/
def onGrid? (x : Double) (power : Int) : Option Decimal :=
  let (num, den) := scaled x.magnitude power
  let below := num / den
  let above := below + 1
  let readsBack c := ofDecimal false c power = roundUnits false x.magnitude 1
  match decide (readsBack below), decide (readsBack above) with
  | true, true =>
    let r := num % den
    if 2 * r < den ∨ (2 * r = den ∧ below % 2 = 0) then some ⟨below, power⟩ else some ⟨above, power⟩
  | true, false => some ⟨below, power⟩
  | false, true => some ⟨above, power⟩
  | false, false => none

/-- Every digit of the magnitude. -/
def exactDecimal (x : Double) : Decimal := ⟨x.magnitude * Nat.pow 5 1074, -1074⟩

/-- The fewest digits that read back as the magnitude. Seventeen always suffice; the exact
expansion closes the search. -/
def shortest (x : Double) : Decimal :=
  if x.magnitude = 0 then ⟨0, 0⟩
  else
    let power := decimalPower x.magnitude
    let found := (List.range 17).findSome? fun n : Nat => x.onGrid? (power - n)
    (found.getD x.exactDecimal).trim

/-- The magnitude rounded to `n` significant digits, a half to the even neighbour. -/
def significant (n : Nat) (x : Double) : Decimal :=
  if x.magnitude = 0 then ⟨0, 0⟩
  else
    let power := decimalPower x.magnitude - (n - 1 : Nat)
    let (num, den) := scaled x.magnitude power
    Decimal.trim ⟨roundDiv num den, power⟩

/-! ## Texts -/

/-- The sign as it is written. -/
def signText (negative : Bool) : List Char := if negative then ['-'] else []

/-- The text of a finite double is `body`; infinities and `nan` are written as words. -/
def withWords (x : Double) (body : List Char) : String :=
  match x with
  | .nan => "nan"
  | .infinite s => String.ofList (signText s ++ "inf".toList)
  | .finite s .. => String.ofList (signText s ++ body)

/-- Positional from `0.0001` up to sixteen digits before the point, a whole number ending in `.0`,
and at least two digits in an exponent. -/
def plainLayout : Layout := ⟨-4, 16, true, 2⟩

/-- Positional from `0.0001` up to six digits, and no point after a whole number. -/
def generalLayout : Layout := ⟨-4, 6, false, 2⟩

/-- The text that a double is written as: its fewest digits. -/
def text (x : Double) : String := x.withWords (x.shortest.layOut plainLayout)

/-- Six significant digits. -/
def general (x : Double) : String := x.withWords ((x.significant 6).layOut generalLayout)

/-- A whole number of steps of `10^-places`, with the point. -/
def pointed (places n : Nat) : List Char :=
  let ds := Decimal.padZeros (places + 1) (Decimal.digits n)
  if places = 0 then ds
  else ds.take (ds.length - places) ++ '.' :: ds.drop (ds.length - places)

/-- The digits of the magnitude with a fixed number of places, a half to the even neighbour. -/
def fixedDigits (places : Nat) (x : Double) : List Char :=
  pointed places (roundDiv (x.magnitude * Nat.pow 10 places) unitsPerOne)

/-- Text with a fixed number of places. -/
def fixed (places : Nat) (x : Double) : String := x.withWords (x.fixedDigits places)

end Double

end TimedText
