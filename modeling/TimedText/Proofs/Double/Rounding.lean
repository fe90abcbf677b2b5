import Mathlib.Tactic.Linarith
import Mathlib.Tactic.Ring
import TimedText.Double.Basic

/-!
# Rounding to the nearest double

What `roundDiv` and `roundUnits` depend on is the quotient alone, not how it is written
(`roundDiv_congr`, `roundUnits_congr`), and both keep the order of quotients (`roundDiv_mono`,
`roundUnits_mono`). A double is the one nearest to itself (`roundUnits_self`).

`ofDecimal` answers very large and very small exponents without a power. `ofDecimal_eq` says that
these answers are the nearest doubles too; so a decimal is read as the same double however many
zeros its coefficient ends in (`ofDecimal_mul_pow`).
-/

namespace TimedText.Double

/-! ## Quotients rounded to whole numbers -/

theorem roundDiv_eq (num den : Nat) :
    roundDiv num den =
      if 2 * (num % den) < den ∨ (2 * (num % den) = den ∧ num / den % 2 = 0) then num / den
      else num / den + 1 := rfl

theorem div_le_roundDiv (num den : Nat) : num / den ≤ roundDiv num den := by
  rw [roundDiv_eq]
  split
  · exact Nat.le_refl _
  · exact Nat.le_succ _

theorem roundDiv_le_succ (num den : Nat) : roundDiv num den ≤ num / den + 1 := by
  rw [roundDiv_eq]
  split
  · exact Nat.le_succ _
  · exact Nat.le_refl _

theorem roundDiv_mul_left {k : Nat} (hk : 0 < k) (num den : Nat) :
    roundDiv (k * num) (k * den) = roundDiv num den := by
  have htwice : 2 * (k * (num % den)) = k * (2 * (num % den)) := by ring
  unfold roundDiv
  simp only [Nat.mul_div_mul_left _ _ hk, Nat.mul_mod_mul_left, htwice,
    Nat.mul_lt_mul_left hk, Nat.mul_right_inj hk.ne']

theorem roundDiv_congr {num₁ den₁ num₂ den₂ : Nat} (h₁ : 0 < den₁) (h₂ : 0 < den₂)
    (h : num₁ * den₂ = num₂ * den₁) : roundDiv num₁ den₁ = roundDiv num₂ den₂ := by
  rw [← roundDiv_mul_left h₂ num₁ den₁, ← roundDiv_mul_left h₁ num₂ den₂, Nat.mul_comm den₂ num₁,
    Nat.mul_comm den₁ num₂, h, Nat.mul_comm den₁ den₂]

theorem roundDiv_mul_self (m : Nat) {den : Nat} (hden : 0 < den) :
    roundDiv (m * den) den = m := by
  unfold roundDiv
  simp only [Nat.mul_mod_left, Nat.mul_div_cancel _ hden]
  rw [if_pos (.inl hden)]

/-- Over one denominator the order is kept: either the whole parts differ, or the remainders
decide. -/
theorem roundDiv_mono_num {num₁ num₂ : Nat} (den : Nat) (h : num₁ ≤ num₂) :
    roundDiv num₁ den ≤ roundDiv num₂ den := by
  rcases Nat.lt_or_ge (num₁ / den) (num₂ / den) with hlt | hge
  · calc roundDiv num₁ den ≤ num₁ / den + 1 := roundDiv_le_succ _ _
      _ ≤ num₂ / den := hlt
      _ ≤ roundDiv num₂ den := div_le_roundDiv _ _
  · have hq : num₁ / den = num₂ / den := Nat.le_antisymm (Nat.div_le_div_right h) hge
    have hr : num₁ % den ≤ num₂ % den := by
      have h₁ := Nat.div_add_mod num₁ den
      have h₂ := Nat.div_add_mod num₂ den
      rw [hq] at h₁
      omega
    rw [roundDiv_eq, roundDiv_eq, hq]
    split
    · split <;> omega
    · next hup =>
      rw [if_neg (by omega)]

theorem roundDiv_mono {num₁ den₁ num₂ den₂ : Nat} (h₁ : 0 < den₁) (h₂ : 0 < den₂)
    (h : num₁ * den₂ ≤ num₂ * den₁) : roundDiv num₁ den₁ ≤ roundDiv num₂ den₂ := by
  rw [← roundDiv_mul_left h₂ num₁ den₁, ← roundDiv_mul_left h₁ num₂ den₂, Nat.mul_comm den₁ den₂]
  refine roundDiv_mono_num _ ?_
  rw [Nat.mul_comm den₂, Nat.mul_comm den₁]
  exact h

/-! ## The last bit -/

/-- The power of two of the last bit of a double near this many units. -/
def lastBit (units : Nat) : Nat := Nat.log2 units - 52

theorem lt_pow_lastBit (units : Nat) : units < 2 ^ (53 + lastBit units) := by
  have hlog := Nat.lt_log2_self (n := units)
  refine lt_of_lt_of_le hlog (Nat.pow_le_pow_right (by decide) ?_)
  unfold lastBit
  omega

theorem pow_lastBit_le {units : Nat} (h : lastBit units ≠ 0) :
    2 ^ (52 + lastBit units) ≤ units := by
  unfold lastBit at h ⊢
  have hunits : units ≠ 0 := by
    rintro rfl
    exact h rfl
  rw [show 52 + (Nat.log2 units - 52) = Nat.log2 units by omega]
  exact Nat.log2_self_le hunits

theorem lastBit_mono {a b : Nat} (h : a ≤ b) : lastBit a ≤ lastBit b := by
  by_contra hlt
  have hlow : 2 ^ (52 + lastBit a) ≤ a := pow_lastBit_le (by omega)
  have hhigh := lt_pow_lastBit b
  have hpow : 2 ^ (53 + lastBit b) ≤ 2 ^ (52 + lastBit a) :=
    Nat.pow_le_pow_right (by decide) (by omega)
  omega

/-- The whole number of last bits nearest to a quotient. -/
def significand (num den : Nat) : Nat := roundDiv num (den * 2 ^ lastBit (num / den))

theorem roundUnits_eq_pack (negative : Bool) (num den : Nat) :
    roundUnits negative num den = pack negative (significand num den) (lastBit (num / den)) := by
  unfold roundUnits significand lastBit
  simp only [Nat.shiftLeft_eq]

theorem significand_le (num den : Nat) : significand num den ≤ 2 ^ 53 := by
  have hq : num / (den * 2 ^ lastBit (num / den)) < 2 ^ 53 := by
    rw [← Nat.div_div_eq_div_mul, Nat.div_lt_iff_lt_mul (Nat.two_pow_pos _), ← Nat.pow_add]
    exact lt_pow_lastBit _
  exact (roundDiv_le_succ _ _).trans hq

theorem le_significand {num den : Nat} (h : lastBit (num / den) ≠ 0) :
    2 ^ 52 ≤ significand num den := by
  refine le_trans ?_ (div_le_roundDiv _ _)
  rw [← Nat.div_div_eq_div_mul, Nat.le_div_iff_mul_le (Nat.two_pow_pos _), ← Nat.pow_add]
  exact pow_lastBit_le h

/-! ## What a rounded quotient stands for -/

/-- The units nearest to a quotient, the last bit being where it is; the range is not looked at. -/
def nearestUnits (num den : Nat) : Nat := significand num den * 2 ^ lastBit (num / den)

/-- The units at which the range ends: the longest significand under the largest shift is below. -/
def rangeEnd : Nat := 2 ^ (53 + 2045)

theorem rangeEnd_le {k : Nat} (h : 2098 ≤ k) : rangeEnd ≤ 2 ^ k := by
  unfold rangeEnd
  gcongr
  decide

theorem le_rangeEnd {k : Nat} (h : k ≤ 2098) : 2 ^ k ≤ rangeEnd := by
  unfold rangeEnd
  gcongr
  decide

/-- Units with a sign. -/
def signedUnits (negative : Bool) (units : Nat) : Int := if negative then -(units : Int) else units

theorem quantity_finite (negative : Bool) {m shift : Nat} (h : Canonical m shift) :
    (finite negative m shift h).quantity = .units (signedUnits negative (m * 2 ^ shift)) := by
  simp only [quantity, Nat.shiftLeft_eq, signedUnits]

theorem pack_of_canonical (negative : Bool) {m shift : Nat} (h : Canonical m shift) :
    pack negative m shift = .finite negative m shift h := by
  have hm : m ≠ Nat.pow 2 53 := Nat.ne_of_lt h.1
  simp only [pack, if_neg hm, dif_pos h]

theorem pack_of_large (negative : Bool) (m : Nat) {shift : Nat} (h : 2045 < shift) :
    pack negative m shift = .infinite negative := by
  unfold pack
  by_cases hm : m = Nat.pow 2 53
  · simp only [if_pos hm]
    exact dif_neg fun hcan => absurd hcan.2.1 (by omega)
  · simp only [if_neg hm]
    exact dif_neg fun hcan => absurd hcan.2.1 (by omega)

theorem quantity_pack (negative : Bool) {m shift : Nat} (hm : m ≤ 2 ^ 53)
    (hlow : shift ≠ 0 → 2 ^ 52 ≤ m) :
    (pack negative m shift).quantity =
      if m * 2 ^ shift < rangeEnd then .units (signedUnits negative (m * 2 ^ shift))
      else .infinite negative := by
  rcases Nat.lt_or_eq_of_le hm with hlt | rfl
  · rcases Nat.lt_or_ge 2045 shift with hshift | hshift
    · have hbig : rangeEnd ≤ m * 2 ^ shift := by
        calc rangeEnd ≤ 2 ^ (52 + shift) := rangeEnd_le (by omega)
          _ = 2 ^ 52 * 2 ^ shift := Nat.pow_add ..
          _ ≤ m * 2 ^ shift := Nat.mul_le_mul_right _ (hlow (by omega))
      rw [pack_of_large negative m hshift, if_neg (by omega)]
      rfl
    · have hsmall : m * 2 ^ shift < rangeEnd := by
        calc m * 2 ^ shift < 2 ^ 53 * 2 ^ shift :=
              Nat.mul_lt_mul_of_pos_right hlt (Nat.two_pow_pos _)
          _ = 2 ^ (53 + shift) := (Nat.pow_add ..).symm
          _ ≤ rangeEnd := le_rangeEnd (by omega)
      have hcan : Canonical m shift :=
        ⟨hlt, hshift, (Nat.eq_zero_or_pos shift).symm.imp (fun h => hlow h.ne') id⟩
      rw [if_pos hsmall, pack_of_canonical negative hcan, quantity_finite]
  · -- Rounding ended up at `2^53`: the same units with one shift more.
    have hvalue : 2 ^ 53 * 2 ^ shift = 2 ^ 52 * 2 ^ (shift + 1) := by
      rw [← Nat.pow_add, ← Nat.pow_add, show 53 + shift = 52 + (shift + 1) by omega]
    have hpack : pack negative (2 ^ 53) shift =
        if h : Canonical (Nat.pow 2 52) (shift + 1) then .finite negative _ _ h
        else .infinite negative := rfl
    have hlt : 2 ^ 53 * 2 ^ shift < rangeEnd ↔ shift + 1 ≤ 2045 := by
      rw [rangeEnd, ← Nat.pow_add, Nat.pow_lt_pow_iff_right (by decide)]
      omega
    rw [hpack]
    by_cases hshift : shift + 1 ≤ 2045
    · have hcan : Canonical (Nat.pow 2 52) (shift + 1) :=
        ⟨by decide, hshift, .inl (Nat.le_refl _)⟩
      rw [dif_pos hcan, quantity_finite, if_pos (hlt.mpr hshift), hvalue]
      rfl
    · have hnot : ¬ Canonical (Nat.pow 2 52) (shift + 1) := fun h => hshift h.2.1
      rw [dif_neg hnot, if_neg (mt hlt.mp hshift)]
      rfl

theorem quantity_roundUnits (negative : Bool) (num den : Nat) :
    (roundUnits negative num den).quantity =
      if nearestUnits num den < rangeEnd then
        .units (signedUnits negative (nearestUnits num den))
      else .infinite negative := by
  rw [roundUnits_eq_pack]
  exact quantity_pack negative (significand_le _ _) le_significand

theorem nearestUnits_mono {num₁ den₁ num₂ den₂ : Nat} (h₁ : 0 < den₁) (h₂ : 0 < den₂)
    (h : num₁ * den₂ ≤ num₂ * den₁) : nearestUnits num₁ den₁ ≤ nearestUnits num₂ den₂ := by
  have hq : num₁ / den₁ ≤ num₂ / den₂ := by
    rw [Nat.le_div_iff_mul_le h₂]
    refine Nat.le_of_mul_le_mul_right ?_ h₁
    calc num₁ / den₁ * den₂ * den₁ = num₁ / den₁ * den₁ * den₂ := by ring
      _ ≤ num₁ * den₂ := Nat.mul_le_mul_right _ (Nat.div_mul_le_self _ _)
      _ ≤ num₂ * den₁ := h
  unfold nearestUnits
  rcases Nat.lt_or_eq_of_le (lastBit_mono hq) with hlt | heq
  · -- The last bits differ: a power of two stands between both.
    calc significand num₁ den₁ * 2 ^ lastBit (num₁ / den₁)
        ≤ 2 ^ 53 * 2 ^ lastBit (num₁ / den₁) := Nat.mul_le_mul_right _ (significand_le _ _)
      _ = 2 ^ (53 + lastBit (num₁ / den₁)) := (Nat.pow_add ..).symm
      _ ≤ 2 ^ (52 + lastBit (num₂ / den₂)) := Nat.pow_le_pow_right (by decide) (by omega)
      _ = 2 ^ 52 * 2 ^ lastBit (num₂ / den₂) := Nat.pow_add ..
      _ ≤ significand num₂ den₂ * 2 ^ lastBit (num₂ / den₂) :=
          Nat.mul_le_mul_right _ (le_significand (by omega))
  · unfold significand
    rw [heq]
    refine Nat.mul_le_mul_right _ (roundDiv_mono ?_ ?_ ?_)
    · exact Nat.mul_pos h₁ (Nat.two_pow_pos _)
    · exact Nat.mul_pos h₂ (Nat.two_pow_pos _)
    · calc num₁ * (den₂ * 2 ^ lastBit (num₂ / den₂))
          = num₁ * den₂ * 2 ^ lastBit (num₂ / den₂) := by ring
        _ ≤ num₂ * den₁ * 2 ^ lastBit (num₂ / den₂) := Nat.mul_le_mul_right _ h
        _ = num₂ * (den₁ * 2 ^ lastBit (num₂ / den₂)) := by ring

theorem quantity_le_nonneg {a b : Nat} (h : a ≤ b) :
    (if a < rangeEnd then Quantity.units (signedUnits false a) else .infinite false).le
      (if b < rangeEnd then Quantity.units (signedUnits false b) else .infinite false) = true := by
  split
  · split
    · exact decide_eq_true (Int.ofNat_le.mpr h)
    · rfl
  · rw [if_neg (by omega)]
    rfl

/-- Rounding keeps the order. -/
theorem roundUnits_mono {num₁ den₁ num₂ den₂ : Nat} (h₁ : 0 < den₁) (h₂ : 0 < den₂)
    (h : num₁ * den₂ ≤ num₂ * den₁) :
    roundUnits false num₁ den₁ ≤ roundUnits false num₂ den₂ := by
  change (roundUnits false num₁ den₁).quantity.le (roundUnits false num₂ den₂).quantity = true
  rw [quantity_roundUnits, quantity_roundUnits]
  exact quantity_le_nonneg (nearestUnits_mono h₁ h₂ h)

/-! ## Quotients that are rounded alike -/

theorem roundUnits_congr {num₁ den₁ num₂ den₂ : Nat} (negative : Bool) (h₁ : 0 < den₁)
    (h₂ : 0 < den₂) (h : num₁ * den₂ = num₂ * den₁) :
    roundUnits negative num₁ den₁ = roundUnits negative num₂ den₂ := by
  have hq : num₁ / den₁ = num₂ / den₂ := by
    rw [← Nat.mul_div_mul_right _ _ h₂, h, Nat.mul_comm den₁ den₂, Nat.mul_div_mul_right _ _ h₁]
  rw [roundUnits_eq_pack, roundUnits_eq_pack, significand, significand, hq]
  congr 1
  refine roundDiv_congr (Nat.mul_pos h₁ (Nat.two_pow_pos _))
    (Nat.mul_pos h₂ (Nat.two_pow_pos _)) ?_
  rw [← Nat.mul_assoc, h, Nat.mul_assoc]

/-- A double is the one nearest to itself. -/
theorem roundUnits_self (negative : Bool) {m shift : Nat} (h : Canonical m shift) :
    roundUnits negative (m <<< shift) 1 = .finite negative m shift h := by
  have hshift : lastBit (m <<< shift / 1) = shift := by
    obtain ⟨hm, -, hlow⟩ := h
    rw [Nat.div_one, Nat.shiftLeft_eq, lastBit]
    rcases Nat.eq_zero_or_pos m with rfl | hpos
    · rcases hlow with hlow | rfl
      · exact absurd hlow (by decide)
      · rw [Nat.zero_mul]
        rfl
    · have hlt : Nat.log2 (m * 2 ^ shift) < 53 + shift := by
        rw [Nat.log2_lt (Nat.mul_pos hpos (Nat.two_pow_pos _)).ne', Nat.pow_add]
        exact Nat.mul_lt_mul_of_pos_right hm (Nat.two_pow_pos _)
      rcases hlow with hlow | rfl
      · have hge : 52 + shift ≤ Nat.log2 (m * 2 ^ shift) := by
          rw [Nat.le_log2 (Nat.mul_pos hpos (Nat.two_pow_pos _)).ne', Nat.pow_add]
          exact Nat.mul_le_mul_right _ hlow
        omega
      · omega
  rw [roundUnits_eq_pack, significand, hshift, Nat.one_mul, Nat.shiftLeft_eq,
    roundDiv_mul_self _ (Nat.two_pow_pos _), pack_of_canonical negative h]

theorem roundUnits_of_small (negative : Bool) {num den : Nat} (h : 2 * num < den) :
    roundUnits negative num den = roundUnits negative 0 1 := by
  have hq : num / den = 0 := Nat.div_eq_of_lt (by omega)
  have hzero : significand num den = 0 := by
    rw [significand, hq]
    change roundDiv num (den * 1) = 0
    rw [Nat.mul_one, roundDiv_eq, hq, Nat.mod_eq_of_lt (by omega), if_pos (.inl h)]
  rw [roundUnits_eq_pack, hzero, hq]
  rfl

theorem roundUnits_of_large (negative : Bool) {num den : Nat} (h : rangeEnd ≤ num / den) :
    roundUnits negative num den = .infinite negative := by
  have hshift : 2045 < lastBit (num / den) := by
    have hlt := lt_pow_lastBit (num / den)
    by_contra hle
    have hrange : 2 ^ (53 + lastBit (num / den)) ≤ rangeEnd := le_rangeEnd (by omega)
    omega
  rw [roundUnits_eq_pack, pack_of_large negative _ hshift]

theorem pack_true (m shift : Nat) : pack true m shift = (pack false m shift).neg := by
  unfold pack
  by_cases hm : m = Nat.pow 2 53
  · simp only [if_pos hm]
    split <;> rfl
  · simp only [if_neg hm]
    split <;> rfl

theorem roundUnits_true (num den : Nat) :
    roundUnits true num den = (roundUnits false num den).neg := pack_true _ _

/-! ## Decimals -/

theorem roundUnits_zero (negative : Bool) {den : Nat} (hden : 0 < den) :
    roundUnits negative 0 den = roundUnits negative 0 1 :=
  roundUnits_congr negative hden Nat.one_pos (by rw [Nat.zero_mul, Nat.zero_mul])

theorem unitsPerOne_eq : unitsPerOne = 2 ^ 1074 := by decide +kernel

/-- The same with the exponent under a name, for steps that would else evaluate the power. -/
theorem exists_unitsPerOne_eq : ∃ n, n = 1074 ∧ unitsPerOne = 2 ^ n := ⟨1074, rfl, unitsPerOne_eq⟩

theorem unitsPerOne_pos : 0 < unitsPerOne := by decide +kernel

/-- A power of ten past the four hundredth is past the range. -/
theorem rangeEnd_le_mul_pow {c k : Nat} (hc : c ≠ 0) (hk : 400 < k) :
    rangeEnd ≤ c * 10 ^ k * unitsPerOne := by
  obtain ⟨n, hn, hunits⟩ := exists_unitsPerOne_eq
  calc rangeEnd ≤ 2 ^ (3 * k + n) := rangeEnd_le (by omega)
    _ = 2 ^ (3 * k) * unitsPerOne := by rw [Nat.pow_add, hunits]
    _ = (2 ^ 3) ^ k * unitsPerOne := by rw [Nat.pow_mul 2 3 k]
    _ ≤ 10 ^ k * unitsPerOne := Nat.mul_le_mul_right _ (Nat.pow_le_pow_left (by decide) k)
    _ ≤ c * 10 ^ k * unitsPerOne :=
        Nat.mul_le_mul_right _ (Nat.le_mul_of_pos_left _ (Nat.pos_of_ne_zero hc))

/-- A decimal below `2^-400 · 5^-400` is less than half a unit. -/
theorem two_mul_lt_pow_ten {c k : Nat} (h : Nat.log2 c + 401 < k) :
    2 * (c * unitsPerOne) < 10 ^ k := by
  have hc : c < 2 ^ (Nat.log2 c + 1) := Nat.lt_log2_self
  obtain ⟨n, hn, hunits⟩ := exists_unitsPerOne_eq
  obtain ⟨j, hj⟩ : ∃ j, j = 400 := ⟨400, rfl⟩
  have hfive : unitsPerOne ≤ 2 ^ j * 5 ^ k :=
    calc unitsPerOne = 2 ^ n := hunits
      _ ≤ 2 ^ (j + 2 * k) := Nat.pow_le_pow_right (by decide) (by omega)
      _ = 2 ^ j * (2 ^ 2) ^ k := by rw [Nat.pow_add, Nat.pow_mul 2 2]
      _ ≤ 2 ^ j * 5 ^ k := Nat.mul_le_mul_left _ (Nat.pow_le_pow_left (by decide) k)
  calc 2 * (c * unitsPerOne) < 2 * (2 ^ (Nat.log2 c + 1) * unitsPerOne) :=
        Nat.mul_lt_mul_of_pos_left (Nat.mul_lt_mul_of_pos_right hc unitsPerOne_pos) (by decide)
    _ ≤ 2 * (2 ^ (Nat.log2 c + 1) * (2 ^ j * 5 ^ k)) :=
        Nat.mul_le_mul_left _ (Nat.mul_le_mul_left _ hfive)
    _ = 2 ^ (1 + (Nat.log2 c + 1) + j) * 5 ^ k := by
        rw [Nat.pow_add 2 (1 + (Nat.log2 c + 1)), Nat.pow_add 2 1, Nat.pow_one]
        simp only [Nat.mul_assoc]
    _ ≤ 2 ^ k * 5 ^ k := Nat.mul_le_mul_right _ (Nat.pow_le_pow_right (by decide) (by omega))
    _ = 10 ^ k := (Nat.mul_pow 2 5 k).symm

/-- The short answers are the nearest doubles too. -/
theorem ofDecimal_eq (negative : Bool) (c : Nat) (e : Int) :
    ofDecimal negative c e =
      roundUnits negative (c * 10 ^ e.toNat * unitsPerOne) (10 ^ (-e).toNat) := by
  unfold ofDecimal
  split
  · next hc =>
    rw [hc, Nat.zero_mul, Nat.zero_mul, roundUnits_zero negative (Nat.pow_pos (by decide))]
  · next hc =>
    split
    · next hlarge =>
      rw [show (-e).toNat = 0 by omega]
      refine (roundUnits_of_large negative ?_).symm
      rw [Nat.pow_zero, Nat.div_one]
      exact rangeEnd_le_mul_pow hc (by omega)
    · split
      · next hsmall =>
        rw [show e.toNat = 0 by omega, Nat.pow_zero, Nat.mul_one]
        exact (roundUnits_of_small negative (two_mul_lt_pow_ten (by omega))).symm
      · split
        · next hnonneg =>
          rw [show (-e).toNat = 0 by omega]
          rfl
        · next hneg =>
          rw [show e.toNat = 0 by omega, Nat.pow_zero, Nat.mul_one]
          rfl

theorem ofDecimal_zero (e : Int) : ofDecimal false 0 e = zero := by
  rw [ofDecimal, if_pos rfl]
  decide

theorem ofDecimal_whole (negative : Bool) (c : Nat) :
    ofDecimal negative c 0 = roundUnits negative (c * unitsPerOne) 1 := by
  rw [ofDecimal_eq, Int.neg_zero, Int.toNat_zero, Nat.pow_zero, Nat.mul_one]

/-- Zeros at the end of the coefficient may go into the exponent. -/
theorem ofDecimal_mul_pow (negative : Bool) (c i : Nat) (e : Int) :
    ofDecimal negative (c * 10 ^ i) (e - i) = ofDecimal negative c e := by
  rw [ofDecimal_eq, ofDecimal_eq]
  refine roundUnits_congr negative (Nat.pow_pos (by decide)) (Nat.pow_pos (by decide)) ?_
  have hexp : i + (e - i).toNat + (-e).toNat = e.toNat + (-(e - i)).toNat := by omega
  calc c * 10 ^ i * 10 ^ (e - i).toNat * unitsPerOne * 10 ^ (-e).toNat
      = c * 10 ^ (i + (e - i).toNat + (-e).toNat) * unitsPerOne := by ring
    _ = c * 10 ^ (e.toNat + (-(e - i)).toNat) * unitsPerOne := by rw [hexp]
    _ = c * 10 ^ e.toNat * unitsPerOne * 10 ^ (-(e - i)).toNat := by ring

end TimedText.Double
