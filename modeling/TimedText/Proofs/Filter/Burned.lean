import TimedText.Preview
import TimedText.Proofs.Double.Shortest
import TimedText.Proofs.Filter.Reading

/-!
# What is previewed and what is burned

A clause is enabled while the playback time lies between its two times, read back from their texts.
`burned` follows the compiled expression: the cues whose clauses are enabled. The preview compares
the times themselves.

Both show the same at all times exactly when the texts of the times are read back as the times
(`visible_eq_burned_iff`), and that is known beforehand (`reread_iff`): the fewest digits always
read back, and they are written from a ten-thousandth of a second on; a shorter time is written
with twenty places and is `Kept` only if these determine it. A tiny time is not
(`tiny_start_is_burned_early`).
-/

namespace TimedText.Filter

open Double

/-! ## Times that are read back -/

/-- A time that its text determines: at least a ten-thousandth, or settled by twenty places. -/
def Kept (x : Double) : Prop :=
  ofDecimal false 1 (-4) ≤ x ∨ (ofDecimalValue false (twentyPlaces x)).quantity = x.quantity

instance (x : Double) : Decidable (Kept x) := inferInstanceAs (Decidable (_ ∨ _))

/-- Zeros of either sign are kept, and the infinite time. -/
theorem kept_zero_and_infinite : Kept zero ∧ Kept negativeZero ∧ Kept (infinite false) := by
  decide +kernel

/-- A time in positional notation is kept. -/
theorem kept_of_positional {m shift : Nat} (h : Canonical m shift)
    (hpositional : plainLayout.isPositional (shortest (finite false m shift h)) = true) :
    Kept (finite false m shift h) := by
  have hread := ofDecimalValue_shortest false h
  rw [← hread, ofDecimalValue]
  by_cases hzero : (shortest (finite false m shift h)).coefficient = 0
  · rw [hzero, ofDecimal_zero]
    exact kept_zero_and_infinite.1
  · obtain ⟨hleast, -⟩ := (Decimal.isPositional_iff.mp hpositional).resolve_left hzero
    exact .inl (pow_le_ofDecimal hzero hleast)

/-- A whole number needs no places. -/
theorem twentyPlaces_of_whole {m shift k : Nat} (h : Canonical m shift)
    (hwhole : m <<< shift = k * unitsPerOne) :
    ofDecimalValue false (twentyPlaces (finite false m shift h)) = finite false m shift h := by
  have hround : roundDiv (m <<< shift * Nat.pow 10 20) unitsPerOne = k * 10 ^ 20 := by
    rw [hwhole, Nat.mul_right_comm]
    exact roundDiv_mul_self _ unitsPerOne_pos
  have hexponent : (0 : Int) - (20 : Nat) = -20 := by decide
  have hexact := ofDecimal_mul_pow false k 20 0
  rw [← hround, ofDecimal_whole, ← hwhole, roundUnits_self false h, hexponent] at hexact
  simp only [ofDecimalValue, twentyPlaces, magnitude]
  exact hexact

/-- Where the digits have an exponent, a time of at least a ten-thousandth is a whole number. -/
theorem twentyPlaces_of_least {m shift : Nat} (h : Canonical m shift)
    (hnot : ¬ plainLayout.isPositional (shortest (finite false m shift h)) = true)
    (hleast : ofDecimal false 1 (-4) ≤ finite false m shift h) :
    ofDecimalValue false (twentyPlaces (finite false m shift h)) = finite false m shift h := by
  have hread := ofDecimalValue_shortest false h
  rw [ofDecimalValue] at hread
  have hplace := hnot
  rw [Decimal.isPositional_iff, not_or, not_and] at hplace
  obtain ⟨hnonzero, hplace⟩ := hplace
  by_cases hlow : -4 < (Decimal.digits (shortest (finite false m shift h)).coefficient).length +
      (shortest (finite false m shift h)).exponent
  · have hhigh := pow_le_ofDecimal hnonzero (Int.not_le.mp (hplace hlow))
    rw [hread] at hhigh
    obtain ⟨k, hwhole⟩ := whole_of_large h hhigh
    exact twentyPlaces_of_whole h hwhole
  · -- A ten-thousandth itself is written without an exponent.
    have hmost := ofDecimal_le_pow (Int.not_lt.mp hlow)
    rw [hread] at hmost
    have hdigits := shortest_congr (magnitude_congr (Quantity.le_antisymm hmost hleast))
    rw [hdigits] at hnot
    exact absurd (by decide +kernel) hnot

/-- The text of a time is read back as the time exactly if the time is kept. -/
theorem reread_iff {x : Double} (hnonneg : zero ≤ x) :
    (reread x).quantity = x.quantity ↔ Kept x := by
  cases x with
  | nan => cases hnonneg
  | infinite negative =>
    cases negative with
    | true => cases hnonneg
    | false => exact iff_of_true rfl kept_zero_and_infinite.2.2
  | finite negative m shift h =>
    cases negative with
    | true =>
      obtain ⟨rfl, rfl⟩ := eq_zero_of_nonneg hnonneg
      have hreread : (reread negativeZero).quantity = negativeZero.quantity := by decide
      exact iff_of_true hreread kept_zero_and_infinite.2.1
    | false =>
      by_cases hpositional : plainLayout.isPositional (shortest (finite false m shift h)) = true
      · have hreread : reread (finite false m shift h) = finite false m shift h := by
          rw [reread, written, if_pos hpositional, ofDecimalValue_shortest]
        rw [hreread]
        exact iff_of_true rfl (kept_of_positional h hpositional)
      · have hreread : reread (finite false m shift h) =
            ofDecimalValue false (twentyPlaces (finite false m shift h)) := by
          rw [reread, written, if_neg hpositional]
        rw [hreread]
        constructor
        · exact .inr
        · rintro (hleast | hplaces)
          · rw [twentyPlaces_of_least h hpositional hleast]
          · exact hplaces

/-! ## Cues that are burned -/

/-- Whether the clause is enabled at a time, as its two texts say. -/
def Caption.isEnabled (caption : Caption) (t : Double) : Bool :=
  match read? asciiDigit caption.start.toList, read? asciiDigit caption.stop.toList with
  | some start, some stop => start.le t && t.le stop
  | _, _ => false

/-- The cues whose clauses in the compiled expression are enabled at a time. The clauses stand in
the order of the cues that show something. -/
def burned (font : String) (box : Box) (cues : List Cue) (t : Double) : List Cue :=
  match readExpression font box (compile font box cues).expression with
  | some captions =>
    (((cues.filter fun c => !c.isBlank).zip captions).filter fun p => p.2.isEnabled t).map (·.1)
  | none => []

theorem isActive_eq (c : Cue) (t : Double) : c.isActive t = isBetween c.start c.stop t := rfl

theorem isEnabled_ofCue (c : Cue) (t : Double) :
    (Caption.ofCue c).isEnabled t = isBetween (reread c.start) (reread c.stop) t := by
  simp only [Caption.isEnabled, Caption.ofCue, read?_seconds, isBetween]

theorem filter_zip_map {α β : Type} (f : α → β) (p : β → Bool) (xs : List α) :
    ((xs.zip (xs.map f)).filter fun q => p q.2).map (·.1) = xs.filter fun x => p (f x) := by
  induction xs with
  | nil => rfl
  | cons x xs ih =>
    rw [List.map_cons, List.zip_cons_cons, List.filter_cons, List.filter_cons]
    split
    · rw [List.map_cons, ih]
    · exact ih

theorem burned_eq (font : String) (box : Box) (cues : List Cue) (t : Double) :
    burned font box cues t =
      cues.filter fun c => !c.isBlank && isBetween (reread c.start) (reread c.stop) t := by
  unfold burned
  rw [readExpression_compile]
  dsimp only
  rw [filter_zip_map Caption.ofCue (·.isEnabled t), List.filter_filter]
  simp only [isEnabled_ofCue, Bool.and_comm]

theorem filter_eq_filter_iff {α : Type} {p q : α → Bool} {xs : List α} :
    xs.filter p = xs.filter q ↔ ∀ x ∈ xs, p x = q x := by
  constructor
  · intro h x hx
    have hmem : x ∈ xs.filter p ↔ x ∈ xs.filter q := by rw [h]
    rw [List.mem_filter, List.mem_filter, and_iff_right hx, and_iff_right hx] at hmem
    exact Bool.eq_iff_iff.mpr hmem
  · exact List.filter_congr

/-- The preview shows what is burned, at all times, exactly if the times of all cues that show
something are kept. -/
theorem visible_eq_burned_iff (font : String) (box : Box) (cues : List Cue) :
    (∀ t, Preview.visible cues t = burned font box cues t) ↔
      ∀ c ∈ cues, c.isBlank = false → Kept c.start ∧ Kept c.stop := by
  have hcue (c : Cue) :
      (∀ t, isBetween c.start c.stop t = isBetween (reread c.start) (reread c.stop) t) ↔
        Kept c.start ∧ Kept c.stop := by
    rw [interval_eq_iff c.start_le_stop, reread_iff c.start_nonneg,
      reread_iff (Double.le_trans c.start_nonneg c.start_le_stop)]
  simp only [burned_eq, Preview.visible, filter_eq_filter_iff]
  constructor
  · intro h c hc hblank
    refine (hcue c).mp fun t => ?_
    have hsame := h t c hc
    simpa [Preview.isShown, isActive_eq, hblank] using hsame
  · intro h t c hc
    cases hblank : c.isBlank with
    | true => simp [Preview.isShown, hblank]
    | false =>
      have hsame := (hcue c).mpr (h c hc hblank) t
      simpa [Preview.isShown, isActive_eq, hblank] using hsame

/-- A cue that begins `10^-21` seconds after the video does. -/
def tinyStart : Cue where
  text := "a"
  start := ofDecimal false 1 (-21)
  stop := ofDecimal false 1 0
  fontSize := 24
  color := "#FFFFFF"
  position := .middle
  start_nonneg := by decide +kernel
  start_le_stop := by decide +kernel
  fontSize_pos := by decide
  color_valid := by decide +kernel

/-- Twenty places say that it begins with the video. -/
theorem tiny_start_is_burned_early :
    Preview.visible [tinyStart] zero = [] ∧
      burned defaultFont {} [tinyStart] zero = [tinyStart] := by
  decide +kernel

end TimedText.Filter
