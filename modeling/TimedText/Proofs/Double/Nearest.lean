import TimedText.Number
import TimedText.Proofs.Double.Order
import TimedText.Proofs.Double.Rounding

/-!
# The double nearest to a number

`nearest` takes a whole number of units to the double next to it. It keeps the order
(`nearest_mono`) and leaves a double where it stands (`quantity_nearest_units`). Differences to one
double are in the order of what it is taken from (`sub_le_sub`), and so are the doubles of numbers
that are compared exactly before they are rounded (`Number.toDouble_mono`).
-/

namespace TimedText

namespace Double

/-- The double nearest to a whole number of units. -/
def nearest (units : Int) : Double := roundUnits (units < 0) units.natAbs 1

theorem quantity_nearest (units : Int) :
    (nearest units).quantity =
      if nearestUnits units.natAbs 1 < rangeEnd then
        .units (signedUnits (units < 0) (nearestUnits units.natAbs 1))
      else .infinite (units < 0) :=
  quantity_roundUnits _ _ _

theorem nearest_mono {m n : Int} (h : m ≤ n) : nearest m ≤ nearest n := by
  have hunits {a b : Nat} (hab : a ≤ b) : nearestUnits a 1 ≤ nearestUnits b 1 :=
    nearestUnits_mono Nat.one_pos Nat.one_pos (Nat.mul_le_mul_right 1 hab)
  show (nearest m).quantity.le (nearest n).quantity = true
  rw [quantity_nearest, quantity_nearest]
  rcases Int.lt_or_le m 0 with hm | hm
  · rcases Int.lt_or_le n 0 with hn | hn
    · -- below zero the larger one has the smaller magnitude
      have hmag := hunits (show n.natAbs ≤ m.natAbs by omega)
      simp only [hm, hn, decide_true]
      split
      · rw [if_pos (by omega)]
        exact Quantity.units_le.mpr (Int.neg_le_neg (Int.ofNat_le.mpr hmag))
      · split <;> rfl
    · have hn' : ¬ n < 0 := by omega
      simp only [hm, hn', decide_true, decide_false]
      split
      · split
        · apply Quantity.units_le.mpr
          have hneg : signedUnits true (nearestUnits m.natAbs 1) ≤ 0 := by
            simp [signedUnits]
          exact Int.le_trans hneg (Int.natCast_nonneg _)
        · rfl
      · split <;> rfl
  · have hm' : ¬ m < 0 := by omega
    have hn' : ¬ n < 0 := by omega
    have hmag := hunits (show m.natAbs ≤ n.natAbs by omega)
    simp only [hm', hn', decide_false]
    exact quantity_le_nonneg hmag

/-! ## Finite doubles -/

theorem nearest_natCast (units : Nat) : nearest units = roundUnits false units 1 := by
  have hsign : ¬ (units : Int) < 0 := by omega
  rw [nearest, decide_eq_false hsign, Int.natAbs_natCast]

theorem nearest_neg {units : Nat} (h : 0 < units) :
    nearest (-(units : Int)) = roundUnits true units 1 := by
  have hsign : -(units : Int) < 0 := by omega
  rw [nearest, decide_eq_true hsign, Int.natAbs_neg, Int.natAbs_natCast]

theorem quantity_of_isFinite {x : Double} (h : x.isFinite = true) : x.quantity = .units x.units := by
  cases x with
  | finite s m shift hc => cases s <;> rfl
  | _ => cases h

/-- A double is the one nearest to itself, but for the sign of zero. -/
theorem nearest_units {x : Double} (h : x.isFinite = true)
    (signed : x.isNegative = true → x.isZero = false) :
    nearest x.units = x := by
  cases x with
  | nan => cases h
  | infinite s => cases h
  | finite s m shift hc =>
    cases s with
    | false => exact (nearest_natCast (m <<< shift)).trans (roundUnits_self false hc)
    | true =>
      have hm : m ≠ 0 := of_decide_eq_false (signed rfl)
      have hpos : 0 < m <<< shift := by
        rw [Nat.shiftLeft_eq]
        exact Nat.mul_pos (Nat.pos_of_ne_zero hm) (Nat.two_pow_pos shift)
      exact (nearest_neg hpos).trans (roundUnits_self true hc)

theorem quantity_of_isZero {x : Double} (h : x.isZero = true) : x.quantity = .units 0 := by
  cases x with
  | finite s m shift hc =>
    obtain rfl : m = 0 := of_decide_eq_true h
    cases s <;> simp [quantity]
  | _ => cases h

theorem quantity_zero : zero.quantity = .units 0 := rfl

theorem quantity_nearest_units {x : Double} (h : x.isFinite = true) :
    (nearest x.units).quantity = x.quantity := by
  cases hzero : x.isZero with
  | false => rw [nearest_units h fun _ => hzero]
  | true =>
    have hunits := (quantity_of_isFinite h).symm.trans (quantity_of_isZero hzero)
    rw [quantity_of_isZero hzero, Quantity.units.inj hunits]
    decide

theorem isNegative_of_pos {x : Double} (h : zero < x) : x.isNegative = false := by
  cases x with
  | nan => rfl
  | infinite s =>
    cases s with
    | false => rfl
    | true => cases h
  | finite s m shift hc =>
    cases s with
    | false => rfl
    | true =>
      -- what has the sign is at most zero
      have hbelow : finite true m shift hc ≤ zero := by
        show Quantity.le (.units (-((m <<< shift : Nat) : Int))) (.units 0) = true
        exact Quantity.units_le.mpr (Int.neg_nonpos_of_nonneg (Int.natCast_nonneg _))
      have hlt : (zero.quantity.le (finite true m shift hc).quantity &&
        !(finite true m shift hc).quantity.le zero.quantity) = true := h
      rw [show (finite true m shift hc).quantity.le zero.quantity = true from hbelow] at hlt
      simp at hlt

/-- Two doubles above zero that stand at the same place are one. -/
theorem eq_of_quantity_eq {x y : Double} (h : x.quantity = y.quantity) (pos : zero < x) : x = y := by
  have pos' : zero < y := by
    show zero.quantity.lt y.quantity = true
    rw [← h]
    exact pos
  have hx := isNegative_of_pos pos
  have hy := isNegative_of_pos pos'
  cases x with
  | nan => cases pos
  | infinite s =>
    cases y with
    | infinite u =>
      cases h
      rfl
    | nan => cases h
    | finite => cases h
  | finite s m shift hc =>
    cases y with
    | nan => cases h
    | infinite u => cases h
    | finite u m' shift' hc' =>
      have hunits : (finite s m shift hc).units = (finite u m' shift' hc').units := by
        rw [quantity_of_isFinite rfl, quantity_of_isFinite rfl] at h
        exact Quantity.units.inj h
      calc finite s m shift hc = nearest (finite s m shift hc).units :=
            (nearest_units rfl fun sign => absurd (hx.symm.trans sign) Bool.false_ne_true).symm
        _ = nearest (finite u m' shift' hc').units := by rw [hunits]
        _ = finite u m' shift' hc' :=
            nearest_units rfl fun sign => absurd (hy.symm.trans sign) Bool.false_ne_true

theorem bounded?_eq_some_iff {x y : Double} :
    x.bounded? = some y ↔ x = y ∧ ∀ s, y ≠ .infinite s := by
  cases x with
  | infinite s =>
    refine iff_of_false nofun ?_
    rintro ⟨rfl, hbounded⟩
    exact hbounded s rfl
  | nan => exact ⟨fun h => by cases h; exact ⟨rfl, nofun⟩, fun h => congrArg some h.1⟩
  | finite => exact ⟨fun h => by cases h; exact ⟨rfl, nofun⟩, fun h => congrArg some h.1⟩

/-! ## Differences -/

theorem quantity_add {x y : Double} (hx : x.isFinite = true) (hy : y.isFinite = true) :
    (x.add y).quantity = (nearest (x.units + y.units)).quantity := by
  cases x with
  | nan => cases hx
  | infinite s => cases hx
  | finite s m shift hc =>
    cases y with
    | nan => cases hy
    | infinite u => cases hy
    | finite u m' shift' hc' =>
      show quantity (if _ = (0 : Int) then roundUnits (s && u) 0 1 else nearest _) = _
      split
      · next hsum =>
        rw [hsum]
        cases s <;> cases u <;> decide
      · rfl

theorem isFinite_neg (x : Double) : x.neg.isFinite = x.isFinite := by
  cases x <;> rfl

theorem units_neg {x : Double} (h : x.isFinite = true) : x.neg.units = -x.units := by
  cases x with
  | finite s m shift hc => cases s <;> simp [neg, units, isNegative, magnitude]
  | _ => cases h

theorem quantity_sub {x y : Double} (hx : x.isFinite = true) (hy : y.isFinite = true) :
    (x - y).quantity = (nearest (x.units - y.units)).quantity := by
  have hsum := quantity_add hx (y.isFinite_neg.trans hy)
  rw [units_neg hy] at hsum
  exact hsum

/-- Differences of finite doubles to the same one are in the order of these. -/
theorem sub_le_sub {a b c : Double} (h : a ≤ b) (ha : a.isFinite = true) (hb : b.isFinite = true)
    (hc : c.isFinite = true) : a - c ≤ b - c := by
  have hunits : a.units ≤ b.units := by
    apply Quantity.units_le.mp
    rw [← quantity_of_isFinite ha, ← quantity_of_isFinite hb]
    exact h
  show (a - c).quantity.le (b - c).quantity = true
  rw [quantity_sub ha hc, quantity_sub hb hc]
  exact nearest_mono (Int.sub_le_sub_right hunits c.units)

end Double

namespace Quantity

/-- Where the double stands that is nearest to a point. -/
def rounded : Quantity → Quantity
  | .units n => (Double.nearest n).quantity
  | q => q

theorem rounded_eq_nan_iff {a : Quantity} : a.rounded = .nan ↔ a = .nan := by
  cases a with
  | units n =>
    rw [rounded, Double.quantity_nearest]
    split <;> simp
  | _ => rfl

theorem rounded_mono {a b : Quantity} (h : a.le b = true) : a.rounded.le b.rounded = true := by
  obtain ⟨ha, hb, hends⟩ := Quantity.le_iff.mp h
  have ha' : a.rounded ≠ .nan := mt rounded_eq_nan_iff.mp ha
  have hb' : b.rounded ≠ .nan := mt rounded_eq_nan_iff.mp hb
  rcases hends with rfl | rfl | ⟨m, n, rfl, rfl, hmn⟩
  · exact Quantity.le_iff.mpr ⟨ha', hb', .inl rfl⟩
  · exact Quantity.le_iff.mpr ⟨ha', hb', .inr (.inl rfl)⟩
  · exact Double.nearest_mono hmn

end Quantity

namespace Number

/-- The double nearest to a number. -/
def toDouble : Number → Double
  | .whole i => .ofInt i
  | .double d => d

theorem ofInt_eq_nearest (i : Int) : Double.ofInt i = Double.nearest (i * Double.unitsPerOne) := by
  have hpos : (0 : Int) < Double.unitsPerOne := Int.natCast_pos.mpr Double.unitsPerOne_pos
  have hsign : i * Double.unitsPerOne < 0 ↔ i < 0 := by
    constructor
    · intro h
      by_contra hi
      exact absurd (Int.mul_nonneg (Int.not_lt.mp hi) hpos.le) (Int.not_le.mpr h)
    · exact fun hi => Int.mul_neg_of_neg_of_pos hi hpos
  show Double.roundUnits (i < 0) (i.natAbs * Double.unitsPerOne) 1 = _
  rw [Double.nearest, Int.natAbs_mul, Int.natAbs_natCast]
  simp only [hsign]

theorem quantity_toDouble (n : Number) : n.toDouble.quantity = n.quantity.rounded := by
  cases n with
  | whole i => exact congrArg Double.quantity (ofInt_eq_nearest i)
  | double d =>
    cases d with
    | finite s m shift hc =>
      show Double.quantity (.finite s m shift hc) = (Double.quantity (.finite s m shift hc)).rounded
      rw [Double.quantity_of_isFinite rfl]
      exact (Double.quantity_of_isFinite rfl).symm.trans (Double.quantity_nearest_units rfl).symm
    | _ => rfl

/-- Numbers in order are rounded to doubles in order. -/
theorem toDouble_mono {a b : Number} (h : a.quantity.le b.quantity = true) :
    a.toDouble ≤ b.toDouble := by
  show a.toDouble.quantity.le b.toDouble.quantity = true
  rw [quantity_toDouble, quantity_toDouble]
  exact Quantity.rounded_mono h

/-! ## A double among numbers -/

theorem ofInt_mono {i j : Int} (h : i ≤ j) : Double.ofInt i ≤ Double.ofInt j := by
  apply toDouble_mono (a := .whole i) (b := .whole j)
  exact Quantity.units_le.mpr (Int.mul_le_mul_of_nonneg_right h (Int.natCast_nonneg _))

/-- Whole numbers next to zero are not rounded to it. -/
theorem ofInt_beside_zero :
    Double.zero < Double.ofInt 1 ∧ ¬ Double.zero ≤ Double.ofInt (-1) := by decide +kernel

theorem pos_of_zero_lt {i : Int} (h : Double.zero.quantity.lt (Number.whole i).quantity = true) :
    Double.zero < Double.ofInt i := by
  have hi : 1 ≤ i := by
    by_contra hlow
    rw [Double.quantity_zero] at h
    refine (Quantity.lt_iff.mp h).2 (Quantity.units_le.mpr ?_)
    exact Int.mul_nonpos_of_nonpos_of_nonneg (by omega) (Int.natCast_nonneg _)
  exact Quantity.lt_of_lt_of_le ofInt_beside_zero.1 (ofInt_mono hi)

/-- A number that is rounded to a double above zero or at it was not below zero. -/
theorem nonneg_of_toDouble {n : Number} (h : Double.zero ≤ n.toDouble) :
    Double.zero.quantity.le n.quantity = true := by
  cases n with
  | double d => exact h
  | whole i =>
    have hi : 0 ≤ i := by
      by_contra hlow
      exact ofInt_beside_zero.2 (Double.le_trans h (ofInt_mono (show i ≤ -1 by omega)))
    rw [Double.quantity_zero]
    exact Quantity.units_le.mpr (Int.mul_nonneg hi (Int.natCast_nonneg _))

/-- Between a number and its double there is no other double: one that is below the number without
being below its double is its double. -/
theorem eq_toDouble_of_lt {d : Double} {n : Number} (nonneg : Double.zero ≤ d)
    (below : (Number.double d).lt n = true) (notBelow : n.toDouble ≤ d) : n.toDouble = d := by
  have habove := (Quantity.lt_iff.mp below).1
  have hquantity := Quantity.le_antisymm notBelow (toDouble_mono habove)
  cases n with
  | double x => exact absurd notBelow (Quantity.lt_iff.mp below).2
  | whole i =>
    exact Double.eq_of_quantity_eq hquantity
      (pos_of_zero_lt (Quantity.lt_of_le_of_lt nonneg below))

theorem eq_toDouble_of_gt {d : Double} {n : Number} (nonneg : Double.zero ≤ n.toDouble)
    (above : n.lt (.double d) = true) (notAbove : d ≤ n.toDouble) : n.toDouble = d := by
  have hbelow := (Quantity.lt_iff.mp above).1
  have hquantity := Quantity.le_antisymm (toDouble_mono hbelow) notAbove
  cases n with
  | double x => exact absurd notAbove (Quantity.lt_iff.mp above).2
  | whole i =>
    have hpos : Double.zero < d := Quantity.lt_of_le_of_lt (nonneg_of_toDouble nonneg) above
    exact (Double.eq_of_quantity_eq hquantity.symm hpos).symm

end Number

end TimedText
