import TimedText.Double.Basic

/-!
# The order of doubles

Doubles are compared as points of the extended line (`Quantity`). There the order is transitive and
antisymmetric, and every point that is compared with something is compared with itself: only `nan`
is not. A closed interval determines its ends (`interval_eq_iff`).
-/

namespace TimedText

namespace Quantity

/-- What it takes to be at most: an end of the line, or numbers in order. -/
protected theorem le_iff {a b : Quantity} :
    a.le b = true ↔ a ≠ .nan ∧ b ≠ .nan ∧
      (a = .infinite true ∨ b = .infinite false ∨ ∃ m n, a = .units m ∧ b = .units n ∧ m ≤ n) := by
  cases a with
  | nan => simp [le]
  | infinite s =>
    cases b with
    | nan => cases s <;> simp [le]
    | infinite u => cases s <;> cases u <;> simp [le]
    | units n => cases s <;> simp [le]
  | units m =>
    cases b with
    | nan => simp [le]
    | infinite s => cases s <;> simp [le]
    | units n => simp [le]

theorem units_le {m n : Int} : (units m).le (units n) = true ↔ m ≤ n := decide_eq_true_iff

theorem le_self {a : Quantity} (h : a ≠ .nan) : a.le a = true := by
  cases a with
  | nan => exact absurd rfl h
  | infinite s => cases s <;> rfl
  | units m => exact decide_eq_true (Int.le_refl m)

protected theorem le_trans {a b c : Quantity} (hab : a.le b = true) (hbc : b.le c = true) :
    a.le c = true := by
  obtain ⟨ha, -, hab⟩ := Quantity.le_iff.mp hab
  obtain ⟨-, hc, hbc⟩ := Quantity.le_iff.mp hbc
  refine Quantity.le_iff.mpr ⟨ha, hc, ?_⟩
  rcases hab with hlow | hhigh | ⟨m, n, rfl, rfl, hmn⟩
  · exact .inl hlow
  · subst hhigh
    rcases hbc with h | h | ⟨_, _, h, -⟩
    · cases h
    · exact .inr (.inl h)
    · cases h
  · rcases hbc with h | h | ⟨m', n', h, rfl, hmn'⟩
    · cases h
    · exact .inr (.inl h)
    · cases h
      exact .inr (.inr ⟨m, n', rfl, rfl, Int.le_trans hmn hmn'⟩)

protected theorem le_antisymm {a b : Quantity} (hab : a.le b = true) (hba : b.le a = true) :
    a = b := by
  obtain ⟨-, -, hab⟩ := Quantity.le_iff.mp hab
  obtain ⟨-, -, hba⟩ := Quantity.le_iff.mp hba
  rcases hab with rfl | rfl | ⟨m, n, rfl, rfl, hmn⟩
  · rcases hba with h | h | ⟨_, _, -, h, -⟩
    · exact h.symm
    · cases h
    · cases h
  · rcases hba with h | h | ⟨_, _, h, -⟩
    · cases h
    · exact h
    · cases h
  · rcases hba with h | h | ⟨m', n', h, h', hnm⟩
    · cases h
    · cases h
    · cases h
      cases h'
      exact congrArg _ (Int.le_antisymm hmn hnm)

protected theorem lt_iff {a b : Quantity} : a.lt b = true ↔ a.le b = true ∧ ¬ b.le a = true := by
  rw [lt, Bool.and_eq_true, Bool.not_eq_true', Bool.not_eq_true]

protected theorem lt_of_le_of_lt {a b c : Quantity} (hab : a.le b = true) (hbc : b.lt c = true) :
    a.lt c = true := by
  obtain ⟨hle, hnot⟩ := Quantity.lt_iff.mp hbc
  exact Quantity.lt_iff.mpr ⟨Quantity.le_trans hab hle, fun hca => hnot (Quantity.le_trans hca hab)⟩

protected theorem lt_of_lt_of_le {a b c : Quantity} (hab : a.lt b = true) (hbc : b.le c = true) :
    a.lt c = true := by
  obtain ⟨hle, hnot⟩ := Quantity.lt_iff.mp hab
  exact Quantity.lt_iff.mpr ⟨Quantity.le_trans hle hbc, fun hca => hnot (Quantity.le_trans hbc hca)⟩

/-- Two points of the line can be compared, `nan` apart. -/
protected theorem le_of_not_lt {a b : Quantity} (ha : a ≠ .nan) (hb : b ≠ .nan)
    (h : ¬ a.lt b = true) : b.le a = true := by
  refine Decidable.byContradiction fun hba => ?_
  refine h (Quantity.lt_iff.mpr ⟨?_, hba⟩)
  cases a with
  | nan => exact absurd rfl ha
  | infinite s =>
    cases b with
    | nan => exact absurd rfl hb
    | infinite u => cases s <;> cases u <;> first | rfl | exact absurd rfl hba
    | units n => cases s <;> first | rfl | exact absurd rfl hba
  | units m =>
    cases b with
    | nan => exact absurd rfl hb
    | infinite u => cases u <;> first | rfl | exact absurd rfl hba
    | units n => exact units_le.mpr (Int.le_of_not_le fun hnm => hba (units_le.mpr hnm))

end Quantity

namespace Double

protected theorem le_iff {a b : Double} : a ≤ b ↔ a.le b = true := Iff.rfl

protected theorem le_trans {a b c : Double} (hab : a ≤ b) (hbc : b ≤ c) : a ≤ c :=
  Quantity.le_trans hab hbc

theorem le_self_left {a b : Double} (h : a ≤ b) : a ≤ a :=
  Quantity.le_self (Quantity.le_iff.mp h).1

theorem le_self_right {a b : Double} (h : a ≤ b) : b ≤ b :=
  Quantity.le_self (Quantity.le_iff.mp h).2.1

/-- Two times can be compared. -/
theorem le_of_not_lt {a b : Double} (ha : zero ≤ a) (hb : zero ≤ b) (h : ¬ a < b) : b ≤ a :=
  Quantity.le_of_not_lt (Quantity.le_iff.mp ha).2.1 (Quantity.le_iff.mp hb).2.1 h

/-! ## Zeros and magnitudes -/

/-- The zero below which there is nothing to be seen. -/
def negativeZero : Double := zero.neg

/-- Of the negative doubles only the zero is not below zero. -/
theorem eq_zero_of_nonneg {m shift : Nat} {h : Canonical m shift}
    (hnonneg : zero ≤ finite true m shift h) : m = 0 ∧ shift = 0 := by
  have hunits : (0 : Int) ≤ -((m <<< shift : Nat) : Int) := of_decide_eq_true hnonneg
  have hm : m = 0 := by
    have hnone : m <<< shift = 0 := by
      generalize m <<< shift = units at hunits ⊢
      omega
    rw [Nat.shiftLeft_eq, Nat.mul_eq_zero] at hnone
    exact hnone.resolve_right (Nat.ne_of_gt (Nat.two_pow_pos shift))
  refine ⟨hm, h.2.2.resolve_left ?_⟩
  rw [hm]
  decide

/-- The magnitude is part of where a double stands. -/
theorem magnitude_congr {x y : Double} (h : x.quantity = y.quantity) :
    x.magnitude = y.magnitude := by
  have hread (z : Double) :
      z.magnitude = match z.quantity with | .units n => n.natAbs | _ => 0 := by
    cases z with
    | nan => rfl
    | infinite _ => rfl
    | finite negative m shift _ =>
      cases negative with
      | false => rfl
      | true =>
        change m <<< shift = (-((m <<< shift : Nat) : Int)).natAbs
        rw [Int.natAbs_neg, Int.natAbs_natCast]
  rw [hread x, hread y, h]

/-! ## Intervals -/

/-- Whether a double lies between two others, both included. -/
def isBetween (a b t : Double) : Bool := a.le t && t.le b

theorem isBetween_iff {a b t : Double} : isBetween a b t = true ↔ a ≤ t ∧ t ≤ b :=
  Bool.and_eq_true_iff

/-- Two closed intervals are one only if their ends are; the first one is not empty. -/
theorem interval_eq_iff {a b c d : Double} (h : a ≤ b) :
    (∀ t, isBetween a b t = isBetween c d t) ↔
      c.quantity = a.quantity ∧ d.quantity = b.quantity := by
  constructor
  · intro hsame
    have hmem (t : Double) : (a ≤ t ∧ t ≤ b) ↔ (c ≤ t ∧ t ≤ d) := by
      rw [← isBetween_iff, ← isBetween_iff, hsame t]
    -- Each end of one interval lies in both.
    obtain ⟨hca, had⟩ := (hmem a).mp ⟨le_self_left h, h⟩
    obtain ⟨hcb, hbd⟩ := (hmem b).mp ⟨h, le_self_right h⟩
    have hcd : c ≤ d := Double.le_trans hca had
    obtain ⟨hac, -⟩ := (hmem c).mpr ⟨le_self_left hca, hcd⟩
    obtain ⟨-, hdb⟩ := (hmem d).mpr ⟨hcd, le_self_right hbd⟩
    exact ⟨Quantity.le_antisymm hca hac, Quantity.le_antisymm hdb hbd⟩
  · rintro ⟨ha, hb⟩ t
    rw [isBetween, isBetween, le, le, le, le, ha, hb]

end Double

end TimedText
