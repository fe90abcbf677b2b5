import Mathlib.Computability.RegularExpressions
import Mathlib.Tactic.FieldSimp
import Mathlib.Tactic.Positivity
import TimedText.Proofs.Double.Shortest

/-!
# Numerals

A numeral is a number in plain decimal notation without a needless zero: `numeral` says which texts
are numerals, `numberOf` which number a text writes. A sign in front of a tidy number makes a
numeral (`Plain.Tidy.mem_numeral`), and it writes the number that the decimal stands for
(`numberOf_chars`), a rational number (`Decimal.toRat`). The order of these is that of the decimals
(`Decimal.toRat_le_iff`).
-/

namespace TimedText

namespace Decimal

/-- The number that a decimal stands for. -/
def toRat (d : Decimal) : ℚ := d.coefficient * (10 : ℚ) ^ d.exponent

theorem toRat_nonneg (d : Decimal) : 0 ≤ d.toRat :=
  mul_nonneg (Nat.cast_nonneg _) (zpow_nonneg (by norm_num) _)

theorem toRat_of_zero {d : Decimal} (h : d.coefficient = 0) : d.toRat = 0 := by
  rw [toRat, h, Nat.cast_zero, zero_mul]

/-- Times a large enough power of ten a decimal is a whole number. -/
theorem toRat_mul_pow (d : Decimal) (k : Nat) :
    d.toRat * (10 : ℚ) ^ ((-d.exponent).toNat + k) =
      ((d.coefficient * 10 ^ (d.exponent.toNat + k) : Nat) : ℚ) := by
  have hten : (10 : ℚ) ≠ 0 := by norm_num
  have hexp : d.exponent + (((-d.exponent).toNat + k : Nat) : Int) =
      ((d.exponent.toNat + k : Nat) : Int) := by omega
  rw [toRat, mul_assoc, ← zpow_natCast (10 : ℚ) ((-d.exponent).toNat + k), ← zpow_add₀ hten, hexp,
    zpow_natCast]
  push_cast
  rfl

theorem toRat_le_iff (a b : Decimal) :
    a.toRat ≤ b.toRat ↔
      a.coefficient * 10 ^ (a.exponent.toNat + (-b.exponent).toNat) ≤
        b.coefficient * 10 ^ (b.exponent.toNat + (-a.exponent).toNat) := by
  have hpos : (0 : ℚ) < 10 ^ ((-a.exponent).toNat + (-b.exponent).toNat) := by positivity
  rw [← mul_le_mul_iff_left₀ hpos, toRat_mul_pow, Nat.add_comm (-a.exponent).toNat, toRat_mul_pow,
    Nat.cast_le]

theorem Same.toRat_eq {a b : Decimal} (h : a.Same b) : a.toRat = b.toRat := by
  obtain ⟨i, j, hcoefficient, hexponent⟩ := h
  have hten : (10 : ℚ) ≠ 0 := by norm_num
  have hzeros (d : Decimal) (k : Nat) :
      d.toRat = ((d.coefficient * 10 ^ k : Nat) : ℚ) * 10 ^ (d.exponent - k) := by
    rw [toRat, zpow_sub₀ hten, zpow_natCast]
    push_cast
    field_simp
  rw [hzeros a i, hzeros b j, hcoefficient, hexponent]

end Decimal

namespace Double

/-! ## Which texts are numerals -/

section Numeral

open RegularExpression

/-- One of these characters. -/
def anyOf (cs : List Char) : RegularExpression Char := cs.foldr (fun c P => char c + P) 0

/-- The digits. -/
def digit : RegularExpression Char := anyOf "0123456789".toList

/-- The digits but zero. -/
def nonzeroDigit : RegularExpression Char := anyOf "123456789".toList

/-- A minus may stand in front. Behind it stands a whole number, and there may be a point and places
behind that. Zeros stand neither in front of other digits nor at the end of the places. -/
def numeral : RegularExpression Char :=
  (1 + char '-') * (char '0' + nonzeroDigit * digit.star) *
    (1 + char '.' * (digit.star * nonzeroDigit))

theorem mem_anyOf {c : Char} {cs : List Char} (h : c ∈ cs) : [c] ∈ (anyOf cs).matches' := by
  induction cs with
  | nil => cases h
  | cons d cs ih =>
    rcases List.mem_cons.mp h with rfl | h
    · exact .inl rfl
    · exact .inr (ih h)

theorem mem_digits {c : Char} (h : c.isDigit = true) : c ∈ "0123456789".toList := by
  have hall : ∀ n < 10, Char.ofNat (48 + n) ∈ "0123456789".toList := by decide
  simp only [Char.isDigit, Bool.and_eq_true, decide_eq_true_eq, UInt32.le_iff_toNat_le] at h
  have hlow : 48 ≤ c.toNat := h.1
  have hhigh : c.toNat ≤ 57 := h.2
  have hcode := hall (c.toNat - 48) (by omega)
  rwa [Nat.add_sub_cancel' hlow, Char.ofNat_toNat] at hcode

theorem mem_digit {c : Char} (h : c.isDigit = true) : [c] ∈ digit.matches' :=
  mem_anyOf (mem_digits h)

theorem mem_nonzeroDigit {c : Char} (h : c.isDigit = true) (hc : c ≠ '0') :
    [c] ∈ nonzeroDigit.matches' :=
  mem_anyOf ((List.mem_cons.mp (mem_digits h)).resolve_left hc)

theorem mem_star_digit {cs : List Char} (h : ∀ c ∈ cs, c.isDigit = true) :
    cs ∈ digit.star.matches' := by
  refine Language.mem_kstar.mpr ⟨cs.map ([·]), (List.flatMap_singleton' cs).symm, ?_⟩
  intro y hy
  obtain ⟨c, hc, rfl⟩ := List.mem_map.mp hy
  exact mem_digit (h c hc)

theorem mem_append {P Q : RegularExpression Char} {xs ys : List Char} (hx : xs ∈ P.matches')
    (hy : ys ∈ Q.matches') : xs ++ ys ∈ (P * Q).matches' :=
  Language.mem_mul.mpr ⟨xs, hx, ys, hy, rfl⟩

/-- A tidy number is a numeral, and so it is with a minus. -/
theorem Plain.Tidy.mem_numeral {p : Plain} (h : p.Tidy) (negative : Bool) :
    signText negative ++ p.chars ∈ numeral.matches' := by
  have hsign : signText negative ∈ (1 + char '-' : RegularExpression Char).matches' := by
    cases negative with
    | false => exact .inl rfl
    | true => exact .inr rfl
  have hwhole : p.whole ∈ (char '0' + nonzeroDigit * digit.star).matches' := by
    by_cases hzero : p.whole.head? = some '0'
    · rw [h.whole hzero]
      exact .inl rfl
    · obtain ⟨c, cs, hcs⟩ := List.exists_cons_of_ne_nil p.whole_ne_nil
      have hdigit := p.whole_digit
      rw [hcs] at hzero hdigit ⊢
      have hc : c ≠ '0' := fun heq => hzero (congrArg some heq)
      exact .inr (mem_append (mem_nonzeroDigit (hdigit c List.mem_cons_self) hc)
        (mem_star_digit fun d hd => hdigit d (List.mem_cons_of_mem c hd)))
  have hplaces : (if p.places.isEmpty then [] else '.' :: p.places) ∈
      (1 + char '.' * (digit.star * nonzeroDigit) : RegularExpression Char).matches' := by
    split
    · exact .inl rfl
    · next hne =>
      have hne : p.places ≠ [] := fun hnil => hne (List.isEmpty_iff.mpr hnil)
      have hlast : p.places.getLast hne ≠ '0' := fun heq =>
        h.places ((List.getLast?_eq_some_getLast hne).trans (congrArg some heq))
      have hdigit := p.places_digit
      rw [← List.dropLast_append_getLast hne]
      have hpoint : ['.'] ∈ (char '.').matches' := rfl
      exact .inr (mem_append hpoint
        (mem_append (mem_star_digit fun d hd => hdigit d (List.dropLast_subset _ hd))
          (mem_nonzeroDigit (hdigit _ (List.getLast_mem hne)) hlast)))
  rw [Plain.chars, ← List.append_assoc]
  exact mem_append (mem_append hsign hwhole) hplaces

end Numeral

/-! ## Which number a text writes -/

/-- The number that a numeral writes. -/
def numberOf (cs : List Char) : ℚ :=
  let (negative, cs) := readSign cs
  let whole := cs.takeWhile (· ≠ '.')
  let places := (cs.dropWhile (· ≠ '.')).drop 1
  let magnitude : ℚ :=
    Nat.ofDigitChars 10 whole 0 + Nat.ofDigitChars 10 places 0 / 10 ^ places.length
  if negative then -magnitude else magnitude

namespace Plain

theorem toRat_value (p : Plain) :
    p.value.toRat =
      Nat.ofDigitChars 10 p.whole 0 + Nat.ofDigitChars 10 p.places 0 / 10 ^ p.places.length := by
  rw [value, Decimal.toRat, Nat.ofDigitChars_append, Nat.ofDigitChars_eq_ofDigitChars_zero,
    zpow_neg, zpow_natCast]
  push_cast
  field_simp

theorem not_point {cs : List Char} (h : ∀ c ∈ cs, c.isDigit = true) :
    ∀ c ∈ cs, decide (c ≠ '.') = true := fun c hc =>
  decide_eq_true (digit_ne (h c hc) (by decide))

theorem takeWhile_chars (p : Plain) : p.chars.takeWhile (· ≠ '.') = p.whole := by
  rw [chars, List.takeWhile_append_of_pos (not_point p.whole_digit)]
  split
  · exact List.append_nil _
  · exact List.append_nil _

theorem drop_dropWhile_chars (p : Plain) : (p.chars.dropWhile (· ≠ '.')).drop 1 = p.places := by
  rw [chars, List.dropWhile_append_of_pos (not_point p.whole_digit)]
  split
  · next hnil => exact (List.isEmpty_iff.mp hnil).symm
  · rfl

/-- A plain number with a sign writes the number of its decimal with that sign. -/
theorem numberOf_chars (negative : Bool) (p : Plain) :
    numberOf (signText negative ++ p.chars) =
      if negative then -p.value.toRat else p.value.toRat := by
  unfold numberOf
  rw [readSign_chars]
  simp only [takeWhile_chars, drop_dropWhile_chars, ← toRat_value]

end Plain

end Double

end TimedText
