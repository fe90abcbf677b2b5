import TimedText.Double.Text
import TimedText.Proofs.Double.Order
import TimedText.Proofs.Double.Plain

/-!
# The fewest digits read back

`shortest` looks for a short decimal that reads back as the double, and takes the exact expansion
where it finds none. Either way the decimal reads back (`ofDecimalValue_shortest`); dropping the
zeros of its coefficient changes nothing (`trim_same`), and none are left (`shortest_trimmed`).
-/

namespace TimedText

namespace Decimal

/-- Dropping zeros keeps the number. -/
theorem trim_go_same (n : Nat) (d : Decimal) : (trim.go n d).Same d := by
  induction n generalizing d with
  | zero => exact ⟨0, 0, rfl, rfl⟩
  | succ n ih =>
    unfold trim.go
    split
    · next hzero =>
      obtain ⟨i, j, hcoefficient, hexponent⟩ := ih ⟨d.coefficient / 10, d.exponent + 1⟩
      refine ⟨i + 1, j, ?_, ?_⟩
      · have hten : d.coefficient / 10 * 10 = d.coefficient := by omega
        calc _ = (trim.go n ⟨d.coefficient / 10, d.exponent + 1⟩).coefficient * 10 ^ i * 10 := by
              rw [Nat.pow_succ, Nat.mul_assoc]
          _ = d.coefficient / 10 * 10 ^ j * 10 := by rw [hcoefficient]
          _ = d.coefficient / 10 * 10 * 10 ^ j := by ring
          _ = d.coefficient * 10 ^ j := by rw [hten]
      · push_cast
        dsimp only at hexponent
        omega
    · exact ⟨0, 0, rfl, rfl⟩

theorem trim_same (d : Decimal) : d.trim.Same d := trim_go_same _ d

/-- Zero, or without zeros at the end of the coefficient. -/
def Trimmed (d : Decimal) : Prop := d.coefficient = 0 ∨ d.coefficient % 10 ≠ 0

/-- Each zero that is dropped leaves less than half of the coefficient. -/
theorem trim_go_trimmed {n : Nat} {d : Decimal} (h : d.coefficient < 2 ^ n) :
    (trim.go n d).Trimmed := by
  induction n generalizing d with
  | zero => exact .inl (Nat.lt_one_iff.mp h)
  | succ n ih =>
    unfold trim.go
    split
    · apply ih
      show d.coefficient / 10 < 2 ^ n
      rw [Nat.pow_succ] at h
      omega
    · next hstop => exact (Classical.not_and_iff_not_or_not.mp hstop).imp_left not_not.mp

theorem trim_trimmed (d : Decimal) : d.trim.Trimmed := trim_go_trimmed Nat.lt_log2_self

end Decimal

namespace Double

theorem shortest_trimmed (x : Double) : x.shortest.Trimmed := by
  unfold shortest
  split
  · exact .inl rfl
  · exact Decimal.trim_trimmed _

/-- Every decimal on a grid that is found reads back. -/
theorem onGrid?_reads {x : Double} {power : Int} {d : Decimal} (h : x.onGrid? power = some d) :
    ofDecimalValue false d = roundUnits false x.magnitude 1 := by
  unfold onGrid? at h
  dsimp only at h
  split at h
  · next hbelow habove =>
    split at h
    · cases h
      exact of_decide_eq_true hbelow
    · cases h
      exact of_decide_eq_true habove
  · next hbelow _ =>
    cases h
    exact of_decide_eq_true hbelow
  · next _ habove =>
    cases h
    exact of_decide_eq_true habove
  · cases h

/-- All digits of a number of units, with as many places as a unit has. -/
theorem ofDecimalValue_of_units (m : Nat) {n : Nat} (hunits : unitsPerOne = 2 ^ n) :
    ofDecimalValue false ⟨m * Nat.pow 5 n, -(n : Int)⟩ = roundUnits false m 1 := by
  have hten : Nat.pow 5 n * unitsPerOne = 10 ^ n := by rw [hunits, Nat.pow_eq, ← Nat.mul_pow]
  have hwhole : (-(n : Int)).toNat = 0 := by omega
  have hplaces : (- -(n : Int)).toNat = n := by omega
  rw [ofDecimalValue, ofDecimal_eq]
  refine roundUnits_congr false (Nat.pow_pos (by decide)) Nat.one_pos ?_
  rw [hwhole, hplaces, Nat.pow_zero, Nat.mul_one, Nat.mul_one, Nat.mul_assoc, hten]

theorem exactDecimal_reads (x : Double) :
    ofDecimalValue false x.exactDecimal = roundUnits false x.magnitude 1 := by
  have hunits := unitsPerOne_eq
  have hplaces : (-1074 : Int) = -((1074 : Nat) : Int) := rfl
  rw [exactDecimal, hplaces]
  -- under a name the power is not evaluated
  generalize 1074 = n at hunits ⊢
  exact ofDecimalValue_of_units x.magnitude hunits

theorem ofDecimalValue_false_shortest (x : Double) :
    ofDecimalValue false x.shortest = roundUnits false x.magnitude 1 := by
  unfold shortest
  split
  · next hzero =>
    rw [hzero]
    rfl
  · dsimp only
    rw [ofDecimalValue_same false (Decimal.trim_same _)]
    cases hfound : (List.range 17).findSome? fun n : Nat =>
        x.onGrid? (decimalPower x.magnitude - n) with
    | none => exact exactDecimal_reads x
    | some d =>
      obtain ⟨n, -, hn⟩ := List.exists_of_findSome?_eq_some hfound
      exact onGrid?_reads hn

theorem ofDecimal_true (c : Nat) (e : Int) : ofDecimal true c e = (ofDecimal false c e).neg := by
  rw [ofDecimal_eq, ofDecimal_eq, roundUnits_true]

/-- The fewest digits of a finite double read back as the double. -/
theorem ofDecimalValue_shortest (negative : Bool) {m shift : Nat} (h : Canonical m shift) :
    ofDecimalValue negative (shortest (.finite negative m shift h)) =
      .finite negative m shift h := by
  have hmagnitude := ofDecimalValue_false_shortest (.finite negative m shift h)
  rw [magnitude, roundUnits_self false h] at hmagnitude
  cases negative with
  | false => exact hmagnitude
  | true =>
    rw [ofDecimalValue, ofDecimal_true]
    exact congrArg neg hmagnitude

/-- The digits depend on the magnitude alone. -/
theorem shortest_congr {x y : Double} (h : x.magnitude = y.magnitude) :
    x.shortest = y.shortest := by
  have hgrid (power : Int) : x.onGrid? power = y.onGrid? power := by
    simp only [onGrid?, h]
  simp only [shortest, exactDecimal, hgrid, h]

/-! ## Decimals beside powers of ten -/

theorem lt_pow_length_digits (c : Nat) : c < 10 ^ (Decimal.digits c).length := by
  have hpos : 0 < (Decimal.digits c).length := Nat.length_toDigits_pos
  exact (Nat.length_toDigits_le_iff (by decide) hpos).mp (Nat.le_refl _)

theorem pow_le_of_lt_length_digits {c k : Nat} (hc : c ≠ 0) (h : k < (Decimal.digits c).length) :
    10 ^ k ≤ c := by
  rcases Nat.eq_zero_or_pos k with rfl | hk
  · exact Nat.pos_of_ne_zero hc
  · by_contra hlt
    have hlength := (Nat.length_toDigits_le_iff (by decide) hk).mpr (Nat.lt_of_not_le hlt)
    exact absurd hlength (Nat.not_le.mpr h)

theorem ofDecimal_mono {c₁ c₂ : Nat} {e₁ e₂ : Int}
    (h : c₁ * 10 ^ (e₁.toNat + (-e₂).toNat) ≤ c₂ * 10 ^ (e₂.toNat + (-e₁).toNat)) :
    ofDecimal false c₁ e₁ ≤ ofDecimal false c₂ e₂ := by
  rw [ofDecimal_eq, ofDecimal_eq]
  refine roundUnits_mono (Nat.pow_pos (by decide)) (Nat.pow_pos (by decide)) ?_
  calc c₁ * 10 ^ e₁.toNat * unitsPerOne * 10 ^ (-e₂).toNat
      = c₁ * 10 ^ (e₁.toNat + (-e₂).toNat) * unitsPerOne := by ring
    _ ≤ c₂ * 10 ^ (e₂.toNat + (-e₁).toNat) * unitsPerOne := Nat.mul_le_mul_right _ h
    _ = c₂ * 10 ^ e₂.toNat * unitsPerOne * 10 ^ (-e₁).toNat := by ring

/-- With a digit left of the place of a power of ten, a decimal is at least that power. -/
theorem pow_le_ofDecimal {c : Nat} (hc : c ≠ 0) {e p : Int}
    (h : p < (Decimal.digits c).length + e) : ofDecimal false 1 p ≤ ofDecimal false c e := by
  refine ofDecimal_mono ?_
  have hexp : p.toNat + (-e).toNat ≤ (Decimal.digits c).length - 1 + (e.toNat + (-p).toNat) := by
    omega
  have hlength : 0 < (Decimal.digits c).length := Nat.length_toDigits_pos
  calc 1 * 10 ^ (p.toNat + (-e).toNat)
      ≤ 10 ^ ((Decimal.digits c).length - 1 + (e.toNat + (-p).toNat)) := by
        rw [Nat.one_mul]
        exact Nat.pow_le_pow_right (by decide) hexp
    _ = 10 ^ ((Decimal.digits c).length - 1) * 10 ^ (e.toNat + (-p).toNat) := Nat.pow_add ..
    _ ≤ c * 10 ^ (e.toNat + (-p).toNat) :=
        Nat.mul_le_mul_right _ (pow_le_of_lt_length_digits hc (by omega))

/-- With no digit left of it, a decimal is at most that power. -/
theorem ofDecimal_le_pow {c : Nat} {e p : Int} (h : (Decimal.digits c).length + e ≤ p) :
    ofDecimal false c e ≤ ofDecimal false 1 p := by
  refine ofDecimal_mono ?_
  have hexp : (Decimal.digits c).length + (e.toNat + (-p).toNat) ≤ p.toNat + (-e).toNat := by
    omega
  calc c * 10 ^ (e.toNat + (-p).toNat)
      ≤ 10 ^ (Decimal.digits c).length * 10 ^ (e.toNat + (-p).toNat) :=
        Nat.mul_le_mul_right _ (lt_pow_length_digits c).le
    _ = 10 ^ ((Decimal.digits c).length + (e.toNat + (-p).toNat)) := (Nat.pow_add ..).symm
    _ ≤ 1 * 10 ^ (p.toNat + (-e).toNat) := by
        rw [Nat.one_mul]
        exact Nat.pow_le_pow_right (by decide) hexp

/-- From `10^16` on a double is a whole number. -/
theorem whole_of_large {m shift : Nat} (h : Canonical m shift)
    (hlarge : ofDecimal false 1 16 ≤ finite false m shift h) :
    ∃ k, m <<< shift = k * unitsPerOne := by
  have hsixteen : (ofDecimal false 1 16).quantity =
      .units ((10 ^ 16 * unitsPerOne : Nat) : Int) := by decide +kernel
  have hunits : 10 ^ 16 * unitsPerOne ≤ m * 2 ^ shift := by
    rw [Double.le_iff, le, hsixteen, quantity_finite, Quantity.units_le] at hlarge
    exact Int.ofNat_le.mp hlarge
  have hshift : 1074 ≤ shift := by
    by_contra hlt
    have hsmall : m * 2 ^ shift < 10 ^ 16 * unitsPerOne := by
      calc m * 2 ^ shift < 2 ^ 53 * 2 ^ shift :=
            Nat.mul_lt_mul_of_pos_right h.1 (Nat.two_pow_pos _)
        _ ≤ 2 ^ 53 * unitsPerOne := by
            obtain ⟨n, hn, hunits⟩ := exists_unitsPerOne_eq
            rw [hunits]
            exact Nat.mul_le_mul_left _ (Nat.pow_le_pow_right (by decide) (by omega))
        _ ≤ 10 ^ 16 * unitsPerOne := Nat.mul_le_mul_right _ (by decide)
    exact Nat.lt_irrefl _ (Nat.lt_of_le_of_lt hunits hsmall)
  refine ⟨m <<< (shift - 1074), ?_⟩
  rw [Nat.shiftLeft_eq, Nat.shiftLeft_eq, unitsPerOne_eq, Nat.mul_assoc, ← Nat.pow_add,
    Nat.sub_add_cancel hshift]

end Double

end TimedText
