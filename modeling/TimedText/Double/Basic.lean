/-!
# Binary64 numbers, exactly

A finite double is a whole number of *units*, a unit being `2^-1074`: the significand `m` shifted
left by `shift`. Every operation is done on these whole numbers and rounded once, so that what a
clock, a cue or a progress line computes can be followed in `Nat` and `Int` alone.

`Quantity` is the number a double stands for on the extended line. Whole numbers stand on the same
line, so that both kinds are compared without rounding.
-/

namespace TimedText

namespace Double

/-- The pairs `(m, shift)` that write a magnitude `m · 2^shift` units in exactly one way: at most
53 bits, and the leading one of them set unless the shift is already zero. -/
def Canonical (m shift : Nat) : Prop :=
  m < Nat.pow 2 53 ∧ shift ≤ 2045 ∧ (Nat.pow 2 52 ≤ m ∨ shift = 0)

instance (m shift : Nat) : Decidable (Canonical m shift) :=
  inferInstanceAs (Decidable (_ ∧ _ ∧ (_ ∨ _)))

/-- How many units make one. -/
def unitsPerOne : Nat := Nat.pow 2 1074

end Double

/-- A binary64 number. The sign of a finite number is kept beside its magnitude, so that zero has
two forms. -/
inductive Double where
  | nan
  | infinite (negative : Bool)
  | finite (negative : Bool) (m shift : Nat) (canonical : Double.Canonical m shift)
  deriving DecidableEq

/-- A point of the extended line in units, or no point at all. -/
inductive Quantity where
  | nan
  | infinite (negative : Bool)
  | units (count : Int)
  deriving DecidableEq

namespace Quantity

/-- The quantity of a whole number. -/
def ofInt (i : Int) : Quantity := .units (i * Double.unitsPerOne)

/-- The order of the extended line. Nothing is below or above `nan`, itself included. -/
def le : Quantity → Quantity → Bool
  | .nan, _ => false
  | _, .nan => false
  | .infinite true, _ => true
  | _, .infinite false => true
  | .infinite false, _ => false
  | _, .infinite true => false
  | .units a, .units b => a ≤ b

/-- Strictly below. -/
def lt (a b : Quantity) : Bool := a.le b && !b.le a

end Quantity

namespace Double

/-! ## Rounding -/

/-- The whole number nearest to `num / den`; a half goes to the even neighbour. -/
def roundDiv (num den : Nat) : Nat :=
  let q := num / den
  let r := num % den
  if 2 * r < den ∨ (2 * r = den ∧ q % 2 = 0) then q else q + 1

/-- The double with this sign and magnitude, infinite when the magnitude lies past the last
finite one. A significand of `2^53`, where rounding ended up, is written with one shift more. -/
def pack (negative : Bool) (m shift : Nat) : Double :=
  let (m, shift) := if m = Nat.pow 2 53 then (Nat.pow 2 52, shift + 1) else (m, shift)
  if h : Canonical m shift then .finite negative m shift h else .infinite negative

/-- The double nearest to `num / den` units: a half of the last bit goes to the even neighbour. -/
def roundUnits (negative : Bool) (num den : Nat) : Double :=
  let shift := Nat.log2 (num / den) - 52
  pack negative (roundDiv num (den <<< shift)) shift

/-- The double nearest to the quotient `num / den`. -/
def ofRatio (negative : Bool) (num den : Nat) : Double :=
  roundUnits negative (num * unitsPerOne) den

/-- The double nearest to a whole number; infinite past the finite range. -/
def ofInt (i : Int) : Double := ofRatio (i < 0) i.natAbs 1

/-- A double that is not infinite. -/
def bounded? : Double → Option Double
  | .infinite _ => none
  | d => some d

/-- The double nearest to a whole number, if there is a finite one. -/
def ofInt? (i : Int) : Option Double := (ofInt i).bounded?

/-- The double nearest to `c · 10^e`. Exponents that put the number past either end of the range
are answered without computing the power. -/
def ofDecimal (negative : Bool) (c : Nat) (e : Int) : Double :=
  if c = 0 then roundUnits negative 0 1
  else if 400 < e then .infinite negative
  else if Nat.log2 c + 1 + e < -400 then roundUnits negative 0 1
  else if 0 ≤ e then ofRatio negative (c * Nat.pow 10 e.toNat) 1
  else ofRatio negative c (Nat.pow 10 (-e).toNat)

/-- Positive zero. -/
def zero : Double := .finite false 0 0 (by decide)

instance : Inhabited Double := ⟨zero⟩

/-- A whole number below `2^53`, for constants. -/
def ofNat (n : Nat) : Double := ofRatio false n 1

/-! ## Order -/

/-- The magnitude of a finite double in units; zero for the others. -/
def magnitude : Double → Nat
  | .finite _ m shift _ => m <<< shift
  | _ => 0

/-- Whether the sign bit is set. `nan` carries no sign. -/
def isNegative : Double → Bool
  | .nan => false
  | .infinite s => s
  | .finite s _ _ _ => s

/-- The number that a double stands for. -/
def quantity : Double → Quantity
  | .nan => .nan
  | .infinite s => .infinite s
  | .finite s m shift _ =>
    let units : Int := ((m <<< shift : Nat) : Int)
    .units (if s then -units else units)

/-- At most. False as soon as one side is `nan`; the two zeros are equal. -/
def le (a b : Double) : Bool := a.quantity.le b.quantity

/-- Less than. False as soon as one side is `nan`. -/
def lt (a b : Double) : Bool := a.quantity.lt b.quantity

instance : LE Double := ⟨fun a b => a.le b = true⟩
instance : LT Double := ⟨fun a b => a.lt b = true⟩
instance (a b : Double) : Decidable (a ≤ b) := inferInstanceAs (Decidable (a.le b = true))
instance (a b : Double) : Decidable (a < b) := inferInstanceAs (Decidable (a.lt b = true))

/-- Neither infinite nor `nan`. -/
def isFinite : Double → Bool
  | .finite .. => true
  | _ => false

/-- One of the two zeros. -/
def isZero : Double → Bool
  | .finite _ m _ _ => m = 0
  | _ => false

/-! ## Arithmetic -/

/-- Signed units of a finite double. -/
def units (a : Double) : Int := if a.isNegative then -(a.magnitude : Int) else a.magnitude

/-- Nearest double to the sum. Opposite infinities have none; a sum of zero is positive unless both
terms are negative. -/
def add : Double → Double → Double
  | .nan, _ => .nan
  | _, .nan => .nan
  | .infinite s, .infinite t => if s = t then .infinite s else .nan
  | .infinite s, _ => .infinite s
  | _, .infinite t => .infinite t
  | a@(.finite s ..), b@(.finite t ..) =>
    let sum := a.units + b.units
    if sum = 0 then roundUnits (s && t) 0 1 else roundUnits (sum < 0) sum.natAbs 1

/-- The same magnitude with the other sign. -/
def neg : Double → Double
  | .nan => .nan
  | .infinite s => .infinite (!s)
  | .finite s m shift h => .finite (!s) m shift h

/-- Nearest double to the difference. -/
def sub (a b : Double) : Double := a.add b.neg

/-- Nearest double to the product. -/
def mul : Double → Double → Double
  | .nan, _ => .nan
  | _, .nan => .nan
  | .infinite s, b => if b.isZero then .nan else .infinite (s != b.isNegative)
  | a, .infinite t => if a.isZero then .nan else .infinite (a.isNegative != t)
  | a@(.finite s ..), b@(.finite t ..) =>
    roundUnits (s != t) (a.magnitude * b.magnitude) unitsPerOne

/-- Nearest double to the quotient. -/
def div : Double → Double → Double
  | .nan, _ => .nan
  | _, .nan => .nan
  | .infinite s, b => if b.isFinite then .infinite (s != b.isNegative) else .nan
  | a, .infinite t => roundUnits (a.isNegative != t) 0 1
  | a@(.finite s ..), b@(.finite t ..) =>
    if b.isZero then if a.isZero then .nan else .infinite (s != t)
    else roundUnits (s != t) (a.magnitude * unitsPerOne) b.magnitude

instance : Add Double := ⟨add⟩
instance : Sub Double := ⟨sub⟩
instance : Mul Double := ⟨mul⟩
instance : Div Double := ⟨div⟩

end Double

end TimedText
