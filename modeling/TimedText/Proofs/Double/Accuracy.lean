import Mathlib.Algebra.Order.Field.Rat
import Mathlib.Tactic.FieldSimp
import Mathlib.Tactic.GCongr
import Mathlib.Tactic.NormNum
import Mathlib.Tactic.Positivity
import TimedText.Proofs.Double.Nearest

/-!
# How far rounding goes

A finite double stands for a rational number (`toRat`). Rounding moves a number by no more than a
small part of it, unless the number is next to the smallest double. `Within k` bounds what `k`
roundings one after another do; sums and multiples keep it. `Estimates` says the same of a double
that may have left the range.
-/

namespace TimedText.Double

/-! ## The number that a double stands for -/

/-- The number that a finite double stands for. -/
def toRat (x : Double) : ℚ := x.units / unitsPerOne

/-- A finite double without a sign. -/
def IsAmount (x : Double) : Prop := x.isFinite = true ∧ x.isNegative = false

theorem unitsPerOne_pos_rat : (0 : ℚ) < unitsPerOne := Nat.cast_pos.mpr unitsPerOne_pos

section Amount

variable {x y : Double}

theorem IsAmount.units_eq (h : x.IsAmount) : x.units = x.magnitude := by
  rw [units, h.2]
  rfl

theorem IsAmount.toRat_eq (h : x.IsAmount) : x.toRat = x.magnitude / unitsPerOne := by
  rw [toRat, h.units_eq, Int.cast_natCast]

theorem IsAmount.toRat_nonneg (h : x.IsAmount) : 0 ≤ x.toRat := by
  rw [h.toRat_eq]
  positivity

theorem IsAmount.magnitude_ne_zero (h : x.IsAmount) (pos : 0 < x.toRat) : x.magnitude ≠ 0 := by
  intro hzero
  rw [h.toRat_eq, hzero, Nat.cast_zero, zero_div] at pos
  exact lt_irrefl 0 pos

theorem toRat_le_iff (hx : x.isFinite = true) (hy : y.isFinite = true) :
    x.toRat ≤ y.toRat ↔ x ≤ y := by
  rw [toRat, toRat, div_le_div_iff_of_pos_right unitsPerOne_pos_rat, Int.cast_le,
    ← Quantity.units_le, ← quantity_of_isFinite hx, ← quantity_of_isFinite hy]
  rfl

theorem toRat_lt_iff (hx : x.isFinite = true) (hy : y.isFinite = true) :
    x.toRat < y.toRat ↔ x < y := by
  rw [← not_le, toRat_le_iff hy hx]
  constructor
  · intro h
    have hle : x ≤ y := (toRat_le_iff hx hy).mp (not_le.mp (mt (toRat_le_iff hy hx).mp h)).le
    exact Quantity.lt_iff.mpr ⟨hle, h⟩
  · exact fun h => (Quantity.lt_iff.mp h).2

theorem IsAmount.magnitude_le (hx : x.IsAmount) (hy : y.IsAmount) (h : x ≤ y) :
    x.magnitude ≤ y.magnitude := by
  rw [← toRat_le_iff hx.1 hy.1, hx.toRat_eq, hy.toRat_eq,
    div_le_div_iff_of_pos_right unitsPerOne_pos_rat] at h
  exact_mod_cast h

theorem rangeEnd_eq : rangeEnd = 2 ^ 1024 * unitsPerOne := by
  rw [rangeEnd, unitsPerOne_eq, ← Nat.pow_add]

theorem rangeEnd_pos : 0 < rangeEnd :=
  lt_of_lt_of_le (Nat.two_pow_pos 0) (le_rangeEnd (Nat.zero_le _))

theorem magnitude_lt_rangeEnd (x : Double) : x.magnitude < rangeEnd := by
  cases x with
  | finite s m shift hc =>
    show m <<< shift < rangeEnd
    rw [Nat.shiftLeft_eq]
    calc m * 2 ^ shift < 2 ^ 53 * 2 ^ shift :=
          Nat.mul_lt_mul_of_pos_right hc.1 (Nat.two_pow_pos _)
      _ = 2 ^ (53 + shift) := (Nat.pow_add ..).symm
      _ ≤ rangeEnd := le_rangeEnd (Nat.add_le_add_left hc.2.1 53)
  | _ => exact rangeEnd_pos

/-- The range ends at the 1024th power of two. -/
theorem IsAmount.toRat_lt (h : x.IsAmount) : x.toRat < 2 ^ 1024 := by
  rw [h.toRat_eq, div_lt_iff₀ unitsPerOne_pos_rat]
  have hmagnitude := x.magnitude_lt_rangeEnd
  rw [rangeEnd_eq] at hmagnitude
  exact_mod_cast hmagnitude

end Amount

/-! ## One rounding after another -/

/-- What one rounding moves a number by, as a part of it. -/
def step : ℚ := 1 / 2 ^ 44

/-- So far do so many roundings move a number. -/
def Within (k : Nat) (x v : ℚ) : Prop := (1 - step) ^ k * v ≤ x ∧ x ≤ (1 + step) ^ k * v

section Within

variable {j k : Nat} {x y v w t : ℚ}

theorem step_nonneg : 0 ≤ 1 - step ∧ 0 ≤ 1 + step := by norm_num [step]

theorem Within.trans (h : Within j x v) (h' : Within k y x) : Within (j + k) y v := by
  obtain ⟨hlow, hhigh⟩ := step_nonneg
  constructor
  · calc (1 - step) ^ (j + k) * v = (1 - step) ^ k * ((1 - step) ^ j * v) := by ring
      _ ≤ (1 - step) ^ k * x := mul_le_mul_of_nonneg_left h.1 (pow_nonneg hlow k)
      _ ≤ y := h'.1
  · calc y ≤ (1 + step) ^ k * x := h'.2
      _ ≤ (1 + step) ^ k * ((1 + step) ^ j * v) :=
          mul_le_mul_of_nonneg_left h.2 (pow_nonneg hhigh k)
      _ = (1 + step) ^ (j + k) * v := by ring

theorem Within.add (h : Within k x v) (h' : Within k y w) : Within k (x + y) (v + w) := by
  unfold Within
  rw [mul_add, mul_add]
  exact ⟨add_le_add h.1 h'.1, add_le_add h.2 h'.2⟩

theorem Within.mul_right (h : Within k x v) (ht : 0 ≤ t) : Within k (x * t) (v * t) := by
  unfold Within
  rw [← mul_assoc, ← mul_assoc]
  exact ⟨mul_le_mul_of_nonneg_right h.1 ht, mul_le_mul_of_nonneg_right h.2 ht⟩

theorem Within.nonneg (h : Within k x v) (hv : 0 ≤ v) : 0 ≤ x :=
  (mul_nonneg (pow_nonneg step_nonneg.1 k) hv).trans h.1

theorem Within.eq_zero (h : Within k x 0) : x = 0 := by
  obtain ⟨hlow, hhigh⟩ := h
  rw [mul_zero] at hlow hhigh
  exact le_antisymm hhigh hlow

/-- A bound for both changes the numbers no more. -/
theorem Within.min (h : Within k x v) (ht : 0 ≤ t) : Within k (min t x) (min t v) := by
  obtain ⟨hlow, hhigh⟩ := step_nonneg
  have hbelow : (1 - step) ^ k ≤ 1 := pow_le_one₀ hlow (by norm_num [step])
  have habove : 1 ≤ (1 + step) ^ k := one_le_pow₀ (by norm_num [step])
  constructor
  · apply le_min
    · calc (1 - step) ^ k * Min.min t v ≤ 1 * t :=
            mul_le_mul_of_nonneg hbelow (min_le_left t v) (pow_nonneg hlow k) ht
        _ = t := one_mul t
    · exact (mul_le_mul_of_nonneg_left (min_le_right t v) (pow_nonneg hlow k)).trans h.1
  · rcases min_cases t v with ⟨hmin, -⟩ | ⟨hmin, -⟩
    · rw [hmin]
      exact (min_le_left t x).trans (le_mul_of_one_le_left ht habove)
    · rw [hmin]
      exact (min_le_right t x).trans h.2

end Within

/-! ## How far one rounding goes -/

/-- Rounding to whole numbers goes no further than a half. -/
theorem roundDiv_near (num : Nat) {den : Nat} (hden : 0 < den) :
    2 * num ≤ 2 * (den * roundDiv num den) + den ∧
      2 * (den * roundDiv num den) ≤ 2 * num + den := by
  have hnum := Nat.div_add_mod num den
  have hmod := Nat.mod_lt num hden
  have hsucc : den * (num / den + 1) = den * (num / den) + den := Nat.mul_succ _ _
  rw [roundDiv_eq]
  split <;> omega

/-- The last bit is small beside what is rounded. -/
theorem pow_lastBit_le_step {num den : Nat} (large : 2 ^ 43 * den ≤ num) :
    2 ^ 43 * (den * 2 ^ lastBit (num / den)) ≤ num := by
  have hquotient : num / den * den ≤ num := Nat.div_mul_le_self num den
  cases hbit : lastBit (num / den) with
  | zero => simpa using large
  | succ b =>
    have hpow : 2 ^ (52 + (b + 1)) ≤ num / den := hbit ▸ pow_lastBit_le (by omega)
    calc 2 ^ 43 * (den * 2 ^ (b + 1)) ≤ 2 ^ 52 * (den * 2 ^ (b + 1)) :=
          Nat.mul_le_mul_right _ (by decide)
      _ = 2 ^ (52 + (b + 1)) * den := by rw [Nat.pow_add 2 52]; ring
      _ ≤ num / den * den := Nat.mul_le_mul_right _ hpow
      _ ≤ num := hquotient

/-- One rounding of a quotient, unless it is next to the smallest double. -/
theorem within_nearestUnits {num den : Nat} (hden : 0 < den)
    (large : num = 0 ∨ 2 ^ 43 * den ≤ num) :
    Within 1 (nearestUnits num den : ℚ) (num / den) := by
  have hden' : (0 : ℚ) < den := Nat.cast_pos.mpr hden
  rcases large with rfl | large
  · have hzero : nearestUnits 0 den = 0 := by
      rw [nearestUnits, significand, Nat.zero_div]
      have hround := roundDiv_mul_self 0 (Nat.mul_pos hden (Nat.two_pow_pos (lastBit 0)))
      rw [Nat.zero_mul] at hround
      rw [hround, Nat.zero_mul]
    rw [hzero]
    simp [Within]
  · have hbit := pow_lastBit_le_step large
    have hpos : 0 < den * 2 ^ lastBit (num / den) := Nat.mul_pos hden (Nat.two_pow_pos _)
    obtain ⟨hlow, hhigh⟩ := roundDiv_near num hpos
    have hunits : den * 2 ^ lastBit (num / den) * roundDiv num (den * 2 ^ lastBit (num / den)) =
        den * nearestUnits num den := by
      rw [nearestUnits, significand]
      ring
    rw [hunits] at hlow hhigh
    -- half of the last bit is at most one step of the number
    generalize den * 2 ^ lastBit (num / den) = bit at hbit hlow hhigh
    have hbit' : (2 : ℚ) ^ 43 * bit ≤ num := by exact_mod_cast hbit
    have hlow' : (2 : ℚ) * num ≤ 2 * (den * nearestUnits num den) + bit := by exact_mod_cast hlow
    have hhigh' : (2 : ℚ) * (den * nearestUnits num den) ≤ 2 * num + bit := by exact_mod_cast hhigh
    unfold Within step
    rw [pow_one, pow_one, mul_div_assoc', mul_div_assoc', div_le_iff₀ hden', le_div_iff₀ hden']
    constructor
    · linarith
    · linarith

/-! ## Sums, products and quotients -/

section Arithmetic

variable {x y : Double}

theorem IsAmount.exists_finite (h : x.IsAmount) :
    ∃ m shift hc, x = .finite false m shift hc := by
  obtain ⟨hfinite, hsign⟩ := h
  cases x with
  | finite s m shift hc =>
    cases hsign
    exact ⟨m, shift, hc, rfl⟩
  | _ => cases hfinite

theorem IsAmount.add_eq (hx : x.IsAmount) (hy : y.IsAmount) :
    x + y = roundUnits false (x.magnitude + y.magnitude) 1 := by
  have hsum : x.units + y.units = ((x.magnitude + y.magnitude : Nat) : Int) := by
    rw [hx.units_eq, hy.units_eq, Int.natCast_add]
  obtain ⟨m, shift, hc, rfl⟩ := hx.exists_finite
  obtain ⟨m', shift', hc', rfl⟩ := hy.exists_finite
  show (if units _ + units _ = 0 then roundUnits (false && false) 0 1
    else roundUnits (decide (units _ + units _ < 0)) (units _ + units _).natAbs 1) = _
  rw [hsum, Int.natAbs_natCast, decide_eq_false (Int.not_lt.mpr (Int.natCast_nonneg _))]
  split
  · next hzero => rw [Int.natCast_eq_zero.mp hzero, Bool.and_false]
  · rfl

theorem IsAmount.mul_eq (hx : x.IsAmount) (hy : y.IsAmount) :
    x * y = roundUnits false (x.magnitude * y.magnitude) unitsPerOne := by
  obtain ⟨m, shift, hc, rfl⟩ := hx.exists_finite
  obtain ⟨m', shift', hc', rfl⟩ := hy.exists_finite
  have hmul : finite false m shift hc * finite false m' shift' hc' =
      (finite false m shift hc).mul (finite false m' shift' hc') := rfl
  rw [hmul, mul, bne_self_eq_false]

theorem IsAmount.isZero_eq_false (h : x.IsAmount) (nonzero : x.magnitude ≠ 0) :
    x.isZero = false := by
  obtain ⟨m, shift, hc, rfl⟩ := h.exists_finite
  apply decide_eq_false
  rintro rfl
  exact nonzero (Nat.zero_shiftLeft _)

theorem IsAmount.div_eq (hx : x.IsAmount) (hy : y.IsAmount) (nonzero : y.magnitude ≠ 0) :
    x / y = roundUnits false (x.magnitude * unitsPerOne) y.magnitude := by
  have hzero := hy.isZero_eq_false nonzero
  obtain ⟨m, shift, hc, rfl⟩ := hx.exists_finite
  obtain ⟨m', shift', hc', rfl⟩ := hy.exists_finite
  have hdiv : finite false m shift hc / finite false m' shift' hc' =
      (finite false m shift hc).div (finite false m' shift' hc') := rfl
  rw [hdiv, div, if_neg (Bool.eq_false_iff.mp hzero), bne_self_eq_false]

theorem IsAmount.infinite_mul (h : x.IsAmount) (pos : 0 < x.toRat) :
    .infinite false * x = .infinite false := by
  have hzero := h.isZero_eq_false (h.magnitude_ne_zero pos)
  obtain ⟨m, shift, hc, rfl⟩ := h.exists_finite
  show (if isZero _ = true then nan else infinite (false != false)) = _
  rw [if_neg (Bool.eq_false_iff.mp hzero), bne_self_eq_false]

end Arithmetic

/-! ## Estimates -/

/-- A number that is not next to the smallest double. -/
def Regular (v : ℚ) : Prop := v = 0 ∨ 1 / 2 ^ 1031 ≤ v

/-- A double estimates a number after so many roundings. It is infinite only if the roundings can
take the number past the range. -/
inductive Estimates (k : Nat) : Double → ℚ → Prop
  | amount {x : Double} {v : ℚ} (amount : x.IsAmount) (within : Within k x.toRat v) :
      Estimates k x v
  | infinite {v : ℚ} (large : 2 ^ 1024 ≤ (1 + step) ^ k * v) : Estimates k (.infinite false) v

theorem isNegative_roundUnits (num den : Nat) :
    (roundUnits false num den).isNegative = false := by
  rw [roundUnits_eq_pack]
  unfold pack
  split
  split <;> rfl

theorem isFinite_of_quantity {x : Double} {n : Int} (h : x.quantity = .units n) :
    x.isFinite = true := by
  cases x with
  | finite => rfl
  | _ => cases h

theorem eq_infinite_of_quantity {x : Double} {s : Bool} (h : x.quantity = .infinite s) :
    x = .infinite s := by
  cases x with
  | infinite u =>
    cases h
    rfl
  | _ => cases h

theorem estimates_roundUnits (num : Nat) {den : Nat} (hden : 0 < den)
    (regular : Regular (num / den / unitsPerOne)) :
    Estimates 1 (roundUnits false num den) (num / den / unitsPerOne) := by
  have hden' : (0 : ℚ) < den := Nat.cast_pos.mpr hden
  have hone := unitsPerOne_pos_rat
  have hlarge : num = 0 ∨ 2 ^ 43 * den ≤ num := by
    rcases regular with hzero | hlarge
    · left
      rw [div_eq_zero_iff, div_eq_zero_iff] at hzero
      exact_mod_cast (hzero.resolve_right hone.ne').resolve_right hden'.ne'
    · right
      have hpow : (unitsPerOne : ℚ) = 2 ^ 43 * 2 ^ 1031 := by
        have hunits : unitsPerOne = 2 ^ 43 * 2 ^ 1031 := by rw [unitsPerOne_eq, ← Nat.pow_add]
        rw [hunits, Nat.cast_mul, Nat.cast_pow, Nat.cast_pow, Nat.cast_ofNat]
      have hpos : (0 : ℚ) < 2 ^ 1031 := by positivity
      have hall : (0 : ℚ) < den * unitsPerOne := mul_pos hden' hone
      rw [div_div, div_le_div_iff₀ hpos hall, hpow] at hlarge
      generalize (2 : ℚ) ^ 1031 = least at hlarge hpos
      have hle : (2 : ℚ) ^ 43 * den * least ≤ num * least := by linarith
      exact_mod_cast (mul_le_mul_iff_left₀ hpos).mp hle
  have hwithin := (within_nearestUnits hden hlarge).mul_right (inv_pos.mpr hone).le
  rw [← div_eq_mul_inv, ← div_eq_mul_inv] at hwithin
  have hquantity := quantity_roundUnits false num den
  split at hquantity
  · have hfinite := isFinite_of_quantity hquantity
    refine .amount ⟨hfinite, isNegative_roundUnits num den⟩ ?_
    rw [quantity_of_isFinite hfinite] at hquantity
    rw [toRat, Quantity.units.inj hquantity]
    exact hwithin
  · next hrange =>
    rw [eq_infinite_of_quantity hquantity]
    apply Estimates.infinite
    have hend : (2 : ℚ) ^ 1024 ≤ nearestUnits num den / unitsPerOne := by
      rw [le_div_iff₀ hone]
      have hrange := Nat.not_lt.mp hrange
      rw [rangeEnd_eq] at hrange
      exact_mod_cast hrange
    exact hend.trans hwithin.2

theorem estimates_ofRatio (num : Nat) {den : Nat} (hden : 0 < den) (regular : Regular (num / den)) :
    Estimates 1 (ofRatio false num den) (num / den) := by
  have hvalue : ((num * unitsPerOne : Nat) : ℚ) / den / unitsPerOne = num / den := by
    rw [Nat.cast_mul, div_right_comm, mul_div_cancel_right₀ _ unitsPerOne_pos_rat.ne']
  have hround := estimates_roundUnits (num * unitsPerOne) hden
  rw [hvalue] at hround
  exact hround regular

section Estimates

variable {k : Nat} {x y : Double} {v w : ℚ}

/-- An estimate that the roundings do not take past the range. -/
theorem Estimates.of_small (h : Estimates k x v) (small : (1 + step) ^ k * v < 2 ^ 1024) :
    x.IsAmount ∧ Within k x.toRat v := by
  cases h with
  | amount amount within => exact ⟨amount, within⟩
  | infinite large => exact absurd large (not_le.mpr small)

theorem Estimates.within (h : Estimates k x v) (amount : x.IsAmount) : Within k x.toRat v := by
  cases h with
  | amount _ within => exact within
  | infinite => cases amount.1

theorem Estimates.trans {j : Nat} (h : Estimates j x v) (h' : Within k v w) :
    Estimates (k + j) x w := by
  cases h with
  | amount amount within => exact .amount amount (h'.trans within)
  | infinite large =>
    apply Estimates.infinite
    calc (2 : ℚ) ^ 1024 ≤ (1 + step) ^ j * v := large
      _ ≤ (1 + step) ^ j * ((1 + step) ^ k * w) :=
          mul_le_mul_of_nonneg_left h'.2 (pow_nonneg step_nonneg.2 j)
      _ = (1 + step) ^ (k + j) * w := by ring

/-- The sum of two estimates. -/
theorem estimates_add (hx : x.IsAmount) (hy : y.IsAmount) (h : Within k x.toRat v)
    (h' : Within k y.toRat w) (regular : Regular (x.toRat + y.toRat)) :
    Estimates (k + 1) (x + y) (v + w) := by
  have hvalue : ((x.magnitude + y.magnitude : Nat) : ℚ) / (1 : Nat) / unitsPerOne =
      x.toRat + y.toRat := by
    rw [hx.toRat_eq, hy.toRat_eq, Nat.cast_one, div_one, Nat.cast_add, add_div]
  have hround := estimates_roundUnits _ Nat.one_pos (hvalue ▸ regular)
  rw [hvalue, ← hx.add_eq hy] at hround
  exact hround.trans (h.add h')

/-- A multiple of an estimate. -/
theorem estimates_mul (hx : x.IsAmount) (hy : y.IsAmount) (h : Within k x.toRat v)
    (regular : Regular (x.toRat * y.toRat)) : Estimates (k + 1) (x * y) (v * y.toRat) := by
  have hvalue : ((x.magnitude * y.magnitude : Nat) : ℚ) / unitsPerOne / unitsPerOne =
      x.toRat * y.toRat := by
    rw [hx.toRat_eq, hy.toRat_eq, Nat.cast_mul, div_mul_div_comm, div_div]
  have hround := estimates_roundUnits _ unitsPerOne_pos (hvalue ▸ regular)
  rw [hvalue, ← hx.mul_eq hy] at hround
  exact hround.trans (h.mul_right hy.toRat_nonneg)

/-- A part of an estimate. -/
theorem estimates_div (hx : x.IsAmount) (hy : y.IsAmount) (pos : 0 < y.toRat)
    (h : Within k x.toRat v) (regular : Regular (x.toRat / y.toRat)) :
    Estimates (k + 1) (x / y) (v / y.toRat) := by
  have hone := unitsPerOne_pos_rat
  have hmagnitude := hy.magnitude_ne_zero pos
  have hvalue : ((x.magnitude * unitsPerOne : Nat) : ℚ) / y.magnitude / unitsPerOne =
      x.toRat / y.toRat := by
    have hmagnitude' : (y.magnitude : ℚ) ≠ 0 := Nat.cast_ne_zero.mpr hmagnitude
    rw [hx.toRat_eq, hy.toRat_eq, Nat.cast_mul]
    field_simp
  have hround := estimates_roundUnits _ (Nat.pos_of_ne_zero hmagnitude) (hvalue ▸ regular)
  rw [hvalue, ← hx.div_eq hy hmagnitude] at hround
  have hpart := h.mul_right (inv_pos.mpr pos).le
  rw [← div_eq_mul_inv, ← div_eq_mul_inv] at hpart
  exact hround.trans hpart

/-- A multiple of an estimate that may be infinite. -/
theorem Estimates.mul (h : Estimates k x v) (hy : y.IsAmount) (one : 1 ≤ y.toRat) (nonneg : 0 ≤ v)
    (regular : x.IsAmount → Regular (x.toRat * y.toRat)) :
    Estimates (k + 1) (x * y) (v * y.toRat) := by
  cases h with
  | amount amount within => exact estimates_mul amount hy within (regular amount)
  | infinite large =>
    rw [hy.infinite_mul (zero_lt_one.trans_le one)]
    apply Estimates.infinite
    have hpow : (1 + step) ^ k ≤ (1 + step) ^ (k + 1) :=
      pow_le_pow_right₀ (by norm_num [step]) (Nat.le_succ k)
    calc (2 : ℚ) ^ 1024 ≤ (1 + step) ^ k * v := large
      _ ≤ (1 + step) ^ (k + 1) * (v * y.toRat) :=
          mul_le_mul hpow (le_mul_of_one_le_right nonneg one) nonneg
            (pow_nonneg step_nonneg.2 _)

end Estimates

/-! ## Order -/

section Order

variable {x y t : Double}

theorem IsAmount.div_le_div (hx : x.IsAmount) (hy : y.IsAmount) (ht : t.IsAmount)
    (pos : 0 < t.toRat) (h : x ≤ y) : x / t ≤ y / t := by
  rw [hx.div_eq ht (ht.magnitude_ne_zero pos), hy.div_eq ht (ht.magnitude_ne_zero pos)]
  have hmagnitude := Nat.pos_of_ne_zero (ht.magnitude_ne_zero pos)
  apply roundUnits_mono hmagnitude hmagnitude
  exact Nat.mul_le_mul_right _ (Nat.mul_le_mul_right _ (hx.magnitude_le hy h))

/-- Multiples of doubles that may be infinite. -/
theorem mul_le_mul_of_estimates {j k : Nat} {v w : ℚ} (hx : Estimates j x v) (hy : Estimates k y w)
    (ht : t.IsAmount) (pos : 0 < t.toRat) (h : x ≤ y) : x * t ≤ y * t := by
  cases hy with
  | infinite =>
    rw [ht.infinite_mul pos]
    refine Quantity.le_iff.mpr ⟨?_, nofun, .inr (.inl rfl)⟩
    cases hx with
    | infinite =>
      rw [ht.infinite_mul pos]
      exact nofun
    | amount amount =>
      rw [amount.mul_eq ht, quantity_roundUnits]
      split <;> exact nofun
  | amount hy =>
    cases hx with
    | infinite =>
      obtain ⟨m, shift, hc, rfl⟩ := hy.exists_finite
      cases h
    | amount hx =>
      rw [hx.mul_eq ht, hy.mul_eq ht]
      apply roundUnits_mono unitsPerOne_pos unitsPerOne_pos
      exact Nat.mul_le_mul_right _ (Nat.mul_le_mul_right _ (hx.magnitude_le hy h))

end Order

end TimedText.Double
