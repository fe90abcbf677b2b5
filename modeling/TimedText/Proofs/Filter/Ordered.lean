import Mathlib.Order.WithBot
import TimedText.Proofs.Double.Nearest
import TimedText.Proofs.Double.Numeral
import TimedText.Proofs.Filter.Reading

/-!
# The order of written times

A time is written as a numeral, with a minus for the negative zero alone, and later times are
written as numbers that are not less (`seconds_ordered`). The decimal that is written is found in
three ways: twenty places near zero and past sixteen digits, the fewest digits between them. Each
way keeps the order (`shortest_mono`, `twentyPlaces_mono`), and where one ends and the next one
begins a power of ten stands between them (`written_mono`).
-/

namespace TimedText

namespace Decimal

/-! ## Decimals beside powers of ten -/

/-- With no digit left of the place of a power of ten, a decimal is below that power. -/
theorem toRat_lt_pow {d : Decimal} {p : Int}
    (h : (digits d.coefficient).length + d.exponent ≤ p) : d.toRat < (10 : ℚ) ^ p := by
  have hten : (10 : ℚ) ≠ 0 := by norm_num
  have hcoefficient : (d.coefficient : ℚ) < 10 ^ ((digits d.coefficient).length : Int) := by
    rw [zpow_natCast]
    exact_mod_cast Double.lt_pow_length_digits d.coefficient
  calc d.toRat < 10 ^ ((digits d.coefficient).length : Int) * 10 ^ d.exponent :=
        mul_lt_mul_of_pos_right hcoefficient (zpow_pos (by norm_num) _)
    _ = (10 : ℚ) ^ ((digits d.coefficient).length + d.exponent) := (zpow_add₀ hten _ _).symm
    _ ≤ (10 : ℚ) ^ p := zpow_le_zpow_right₀ (by norm_num) h

/-- With a digit left of it, a decimal is at least that power. -/
theorem pow_le_toRat {d : Decimal} (hc : d.coefficient ≠ 0) {p : Int}
    (h : p < (digits d.coefficient).length + d.exponent) : (10 : ℚ) ^ p ≤ d.toRat := by
  have hten : (10 : ℚ) ≠ 0 := by norm_num
  have hlength : 0 < (digits d.coefficient).length := Nat.length_toDigits_pos
  have hcoefficient : (10 : ℚ) ^ ((digits d.coefficient).length - 1 : Nat) ≤ d.coefficient := by
    exact_mod_cast Double.pow_le_of_lt_length_digits hc (Nat.sub_lt hlength Nat.one_pos)
  calc (10 : ℚ) ^ p ≤ 10 ^ (((digits d.coefficient).length - 1 : Nat) + d.exponent) :=
        zpow_le_zpow_right₀ (by norm_num) (by omega)
    _ = 10 ^ ((digits d.coefficient).length - 1 : Nat) * 10 ^ d.exponent := by
        rw [zpow_add₀ hten, zpow_natCast]
    _ ≤ d.toRat := mul_le_mul_of_nonneg_right hcoefficient (zpow_nonneg (by norm_num) _)

/-- The smaller one of two decimals has no digit left of those of the other one. -/
theorem place_le {a b : Decimal} (ha : a.coefficient ≠ 0) (h : a.toRat ≤ b.toRat) :
    (digits a.coefficient).length + a.exponent ≤ (digits b.coefficient).length + b.exponent := by
  by_contra hlt
  have hbelow : b.toRat < a.toRat :=
    (toRat_lt_pow le_rfl).trans_le (pow_le_toRat ha (not_le.mp hlt))
  exact hbelow.not_ge h

theorem toRat_pos {d : Decimal} (h : d.coefficient ≠ 0) : 0 < d.toRat :=
  mul_pos (Nat.cast_pos.mpr (Nat.pos_of_ne_zero h)) (zpow_pos (by norm_num) _)

/-- With one exponent, the coefficients decide. -/
theorem toRat_mono {c₁ c₂ : Nat} (e : Int) (h : c₁ ≤ c₂) : toRat ⟨c₁, e⟩ ≤ toRat ⟨c₂, e⟩ :=
  mul_le_mul_of_nonneg_right (Nat.cast_le.mpr h) (zpow_nonneg (by norm_num) _)

end Decimal

namespace Double

/-! ## The fewest digits -/

theorem ofDecimalValue_mono {a b : Decimal} (h : a.toRat ≤ b.toRat) :
    ofDecimalValue false a ≤ ofDecimalValue false b :=
  ofDecimal_mono ((Decimal.toRat_le_iff a b).mp h)

theorem units_of_nonneg {x : Double} (h : zero ≤ x) : x.units = x.magnitude := by
  cases x with
  | nan => rfl
  | infinite s => cases s <;> rfl
  | finite s m shift hc =>
    cases s with
    | false => rfl
    | true =>
      obtain ⟨rfl, rfl⟩ := eq_zero_of_nonneg h
      rfl

theorem magnitude_mono {x y : Double} (hx : x.isFinite = true) (hy : y.isFinite = true)
    (hnonneg : zero ≤ x) (h : x ≤ y) : x.magnitude ≤ y.magnitude := by
  have hunits : x.units ≤ y.units := by
    apply Quantity.units_le.mp
    rw [← quantity_of_isFinite hx, ← quantity_of_isFinite hy]
    exact h
  rw [units_of_nonneg hnonneg, units_of_nonneg (Double.le_trans hnonneg h)] at hunits
  exact Int.ofNat_le.mp hunits

/-- The fewest digits of a finite double read back as a finite one of its magnitude. -/
theorem shortest_reads {x : Double} (h : x.isFinite = true) :
    (ofDecimalValue false x.shortest).isFinite = true ∧
      (ofDecimalValue false x.shortest).magnitude = x.magnitude := by
  rw [ofDecimalValue_false_shortest]
  cases x with
  | finite s m shift hc =>
    rw [magnitude, roundUnits_self false hc]
    exact ⟨rfl, rfl⟩
  | _ => cases h

/-- A greater magnitude is not written as a smaller number: otherwise that number would read back as
both of them. -/
theorem shortest_mono {x y : Double} (hx : x.isFinite = true) (hy : y.isFinite = true)
    (h : x.magnitude ≤ y.magnitude) : x.shortest.toRat ≤ y.shortest.toRat := by
  by_contra hlt
  have hback := ofDecimalValue_mono (not_le.mp hlt).le
  have hforth : ofDecimalValue false x.shortest ≤ ofDecimalValue false y.shortest := by
    rw [ofDecimalValue_false_shortest, ofDecimalValue_false_shortest]
    exact roundUnits_mono Nat.one_pos Nat.one_pos (Nat.mul_le_mul_right 1 h)
  have hsame := magnitude_congr (Quantity.le_antisymm hforth hback)
  rw [(shortest_reads hx).2, (shortest_reads hy).2] at hsame
  exact hlt (le_of_eq (congrArg Decimal.toRat (shortest_congr hsame)))

end Double

namespace Filter

open Double

/-! ## The decimal of a time -/

theorem twentyPlaces_mono {x y : Double} (h : x.magnitude ≤ y.magnitude) :
    (twentyPlaces x).toRat ≤ (twentyPlaces y).toRat :=
  Decimal.toRat_mono _ (roundDiv_mono_num _ (Nat.mul_le_mul_right _ h))

/-- The powers of ten between which notation is positional are written exactly. -/
theorem twentyPlaces_ends :
    twentyPlaces (ofDecimal false 1 (-4)) = ⟨10 ^ 16, -20⟩ ∧
      twentyPlaces (ofDecimal false 1 16) = ⟨10 ^ 36, -20⟩ ∧
      (ofDecimal false 1 (-4)).isFinite = true ∧ (ofDecimal false 1 16).isFinite = true ∧
      zero ≤ ofDecimal false 1 16 := by decide +kernel

theorem twentyPlaces_least :
    (twentyPlaces (ofDecimal false 1 (-4))).toRat = (10 : ℚ) ^ (-4 : Int) := by
  rw [twentyPlaces_ends.1, Decimal.toRat]
  norm_num

theorem twentyPlaces_limit :
    (twentyPlaces (ofDecimal false 1 16)).toRat = (10 : ℚ) ^ (16 : Int) := by
  rw [twentyPlaces_ends.2.1, Decimal.toRat]
  norm_num

theorem twentyPlaces_le_least {x : Double} (h : x.isFinite = true)
    (hplace : (Decimal.digits x.shortest.coefficient).length + x.shortest.exponent ≤ -4) :
    (twentyPlaces x).toRat ≤ (10 : ℚ) ^ (-4 : Int) := by
  have hle : ofDecimalValue false x.shortest ≤ ofDecimal false 1 (-4) := ofDecimal_le_pow hplace
  have hnonneg : zero ≤ ofDecimalValue false x.shortest := by
    rw [← ofDecimal_zero 0]
    exact ofDecimal_mono (by rw [Nat.zero_mul]; exact Nat.zero_le _)
  obtain ⟨hfinite, hsame⟩ := shortest_reads h
  have hmagnitude := magnitude_mono hfinite twentyPlaces_ends.2.2.1 hnonneg hle
  rw [hsame] at hmagnitude
  exact (twentyPlaces_mono hmagnitude).trans_eq twentyPlaces_least

theorem limit_le_twentyPlaces {x : Double} (h : x.isFinite = true)
    (hc : x.shortest.coefficient ≠ 0)
    (hplace : 16 < (Decimal.digits x.shortest.coefficient).length + x.shortest.exponent) :
    (10 : ℚ) ^ (16 : Int) ≤ (twentyPlaces x).toRat := by
  have hle : ofDecimal false 1 16 ≤ ofDecimalValue false x.shortest := pow_le_ofDecimal hc hplace
  obtain ⟨hfinite, hsame⟩ := shortest_reads h
  obtain ⟨-, -, -, hlimit, hnonneg⟩ := twentyPlaces_ends
  have hmagnitude := magnitude_mono hlimit hfinite hnonneg hle
  rw [hsame] at hmagnitude
  exact twentyPlaces_limit.symm.trans_le (twentyPlaces_mono hmagnitude)

theorem written_of_positional {x : Double} (h : plainLayout.isPositional x.shortest = true) :
    written x = x.shortest := if_pos h

theorem written_of_not_positional {x : Double} (h : ¬ plainLayout.isPositional x.shortest = true) :
    written x = twentyPlaces x := if_neg h

/-- Fewest digits that need an exponent begin in front of the range of positional notation or behind
it. -/
theorem place_of_not_positional {d : Decimal} (h : ¬ plainLayout.isPositional d = true) :
    d.coefficient ≠ 0 ∧ ((Decimal.digits d.coefficient).length + d.exponent ≤ -4 ∨
      16 < (Decimal.digits d.coefficient).length + d.exponent) := by
  obtain ⟨hc, hplace⟩ := not_or.mp (mt Decimal.isPositional_iff.mpr h)
  refine ⟨hc, ?_⟩
  rcases not_and_or.mp hplace with hleast | hlimit
  · exact .inl (not_lt.mp hleast)
  · exact .inr (not_le.mp hlimit)

/-- The decimals that are written are in the order of the magnitudes. -/
theorem written_mono {x y : Double} (hx : x.isFinite = true) (hy : y.isFinite = true)
    (h : x.magnitude ≤ y.magnitude) : (written x).toRat ≤ (written y).toRat := by
  have hshortest := shortest_mono hx hy h
  by_cases hzero : x.shortest.coefficient = 0
  · rw [written_of_positional (Decimal.isPositional_iff.mpr (.inl hzero)),
      Decimal.toRat_of_zero hzero]
    exact Decimal.toRat_nonneg _
  have hyc : y.shortest.coefficient ≠ 0 := fun hyc =>
    ((Decimal.toRat_pos hzero).trans_le hshortest).ne' (Decimal.toRat_of_zero hyc)
  have hplace := Decimal.place_le hzero hshortest
  by_cases hxpos : plainLayout.isPositional x.shortest = true
  · obtain ⟨hxleast, hxlimit⟩ := (Decimal.isPositional_iff.mp hxpos).resolve_left hzero
    have hxleast : -4 < (Decimal.digits x.shortest.coefficient).length + x.shortest.exponent :=
      hxleast
    by_cases hypos : plainLayout.isPositional y.shortest = true
    · rw [written_of_positional hxpos, written_of_positional hypos]
      exact hshortest
    · rw [written_of_positional hxpos, written_of_not_positional hypos]
      obtain ⟨-, hlow | hhigh⟩ := place_of_not_positional hypos
      · omega
      · calc x.shortest.toRat ≤ (10 : ℚ) ^ (16 : Int) := (Decimal.toRat_lt_pow hxlimit).le
          _ ≤ (twentyPlaces y).toRat := limit_le_twentyPlaces hy hyc hhigh
  · by_cases hypos : plainLayout.isPositional y.shortest = true
    · obtain ⟨hyleast, hylimit⟩ := (Decimal.isPositional_iff.mp hypos).resolve_left hyc
      have hylimit : (Decimal.digits y.shortest.coefficient).length + y.shortest.exponent ≤ 16 :=
        hylimit
      rw [written_of_not_positional hxpos, written_of_positional hypos]
      obtain ⟨-, hlow | hhigh⟩ := place_of_not_positional hxpos
      · calc (twentyPlaces x).toRat ≤ (10 : ℚ) ^ (-4 : Int) := twentyPlaces_le_least hx hlow
          _ ≤ y.shortest.toRat := Decimal.pow_le_toRat hyc hyleast
      · omega
    · rw [written_of_not_positional hxpos, written_of_not_positional hypos]
      exact twentyPlaces_mono h

/-! ## The texts of times -/

/-- The minus is written for the negative zero alone. -/
theorem minus_mem_seconds_iff {x : Double} (hfinite : x.isFinite = true) (h : zero ≤ x) :
    '-' ∈ (seconds x).toList ↔ x = negativeZero := by
  cases x with
  | finite negative m shift hc =>
    obtain ⟨p, hp, -⟩ := seconds_finite negative hc
    have hminus : '-' ∉ p.chars := fun hmem =>
      (Plain.mem_chars hmem).elim (fun hdigit => absurd hdigit (by decide)) (by decide)
    rw [hp]
    cases negative with
    | false => exact iff_of_false hminus nofun
    | true =>
      obtain ⟨rfl, rfl⟩ := eq_zero_of_nonneg h
      exact iff_of_true List.mem_cons_self rfl
  | _ => cases hfinite

/-- The text of a time writes the decimal of its magnitude. -/
theorem numberOf_seconds {x : Double} (hfinite : x.isFinite = true) (h : zero ≤ x) :
    numberOf (seconds x).toList = (written x).toRat := by
  cases x with
  | finite negative m shift hc =>
    obtain ⟨p, hp, hsame, -⟩ := seconds_finite negative hc
    rw [hp, Plain.numberOf_chars, hsame.toRat_eq]
    cases negative with
    | false => rfl
    | true =>
      obtain ⟨rfl, rfl⟩ := eq_zero_of_nonneg h
      have hzero : (written negativeZero).toRat = 0 := Decimal.toRat_of_zero (by decide)
      show -(written negativeZero).toRat = (written negativeZero).toRat
      rw [hzero, neg_zero]
  | _ => cases hfinite

theorem seconds_mono {a b : Double} (ha : a.isFinite = true) (hb : b.isFinite = true)
    (hnonneg : zero ≤ a) (h : a ≤ b) :
    numberOf (seconds a).toList ≤ numberOf (seconds b).toList := by
  rw [numberOf_seconds ha hnonneg, numberOf_seconds hb (Double.le_trans hnonneg h)]
  exact written_mono ha hb (magnitude_mono ha hb hnonneg h)

/-- The time that a text in a clause writes: a number, or no end. -/
def timeOf (s : String) : WithTop ℚ := if s = "inf" then ⊤ else (numberOf s.toList : ℚ)

theorem timeOf_seconds {x : Double} (h : x.isFinite = true) :
    timeOf (seconds x) = (numberOf (seconds x).toList : ℚ) := by
  refine if_neg fun hinf => ?_
  cases x with
  | finite negative m shift hc =>
    obtain ⟨p, hp, -⟩ := seconds_finite negative hc
    have hi : 'i' ∈ (seconds (.finite negative m shift hc)).toList := by
      rw [hinf]
      decide
    rw [hp] at hi
    rcases List.mem_append.mp hi with hsign | hchars
    · revert hsign
      cases negative <;> decide
    · exact (Plain.mem_chars hchars).elim (fun hdigit => absurd hdigit (by decide)) (by decide)
  | _ => cases h

theorem isFinite_of_le {x y : Double} (hnonneg : zero ≤ x) (h : x ≤ y) (hy : y.isFinite = true) :
    x.isFinite = true := by
  cases x with
  | finite => rfl
  | nan => cases h
  | infinite s =>
    cases s with
    | true => cases hnonneg
    | false =>
      cases y with
      | finite => cases h
      | _ => cases hy

/-- The span of a cue is written as one that is not reversed, whether or not it ends. -/
theorem timeOf_start_le_stop (c : Cue) :
    timeOf (seconds c.start) ≤ timeOf (seconds c.stop) := by
  obtain ⟨hnonneg, hspan⟩ := And.intro c.start_nonneg c.start_le_stop
  cases hstop : c.stop with
  | finite =>
    rw [← hstop]
    have hfinite : c.stop.isFinite = true := by rw [hstop]; rfl
    have hstart := isFinite_of_le hnonneg hspan hfinite
    rw [timeOf_seconds hstart, timeOf_seconds hfinite]
    exact WithTop.coe_le_coe.mpr (seconds_mono hstart hfinite hnonneg hspan)
  | infinite s =>
    cases s with
    | false => exact le_top
    | true =>
      rw [hstop] at hspan
      exact absurd (Double.le_trans hnonneg hspan) (by decide)
  | nan =>
    rw [hstop] at hspan
    exact absurd (Double.le_trans hnonneg hspan) (by decide)

/-- Times are written as numerals, with a minus for the negative zero alone, and as numbers in the
order of the times. So no clause of an expression is enabled between times that are reversed. -/
theorem seconds_ordered :
    (∀ x : Double, x.isFinite = true → zero ≤ x →
      (seconds x).toList ∈ numeral.matches' ∧ ('-' ∈ (seconds x).toList ↔ x = negativeZero)) ∧
    (∀ a b : Double, a.isFinite = true → b.isFinite = true → zero ≤ a → a ≤ b →
      numberOf (seconds a).toList ≤ numberOf (seconds b).toList) ∧
    ∀ font box cues, ∃ captions,
      readExpression font box (compile font box cues).expression = some captions ∧
      captions.length = (cues.filter fun c => !c.isBlank).length ∧
      ∀ caption ∈ captions, timeOf caption.start ≤ timeOf caption.stop := by
  refine ⟨fun x hfinite hnonneg => ⟨?_, minus_mem_seconds_iff hfinite hnonneg⟩,
    fun a b => seconds_mono, fun font box cues => ?_⟩
  · cases x with
    | finite negative m shift hc =>
      obtain ⟨p, hp, -, htidy⟩ := seconds_finite negative hc
      rw [hp]
      exact htidy.mem_numeral negative
    | _ => cases hfinite
  · refine ⟨_, readExpression_compile font box cues, List.length_map _, ?_⟩
    intro caption hcaption
    obtain ⟨c, -, rfl⟩ := List.mem_map.mp hcaption
    exact timeOf_start_le_stop c

/-- In front of `0.0001`, where the fewest digits would need an exponent. -/
def belowLeast : Double := ofDecimal false 9999999999999999 (-20)

theorem seconds_ordered_at_least :
    (seconds negativeZero = "-0" ∧ seconds belowLeast = "0.00009999999999999999" ∧
      seconds (ofDecimal false 1 (-4)) = "0.0001") ∧
    (seconds negativeZero).toList ∈ numeral.matches' ∧
    numberOf (seconds belowLeast).toList ≤ numberOf (seconds (ofDecimal false 1 (-4))).toList :=
  ⟨by decide +kernel,
    (seconds_ordered.1 negativeZero (by decide +kernel) (by decide +kernel)).1,
    seconds_ordered.2.1 belowLeast (ofDecimal false 1 (-4)) (by decide +kernel) (by decide +kernel)
      (by decide +kernel) (by decide +kernel)⟩

end Filter

end TimedText
