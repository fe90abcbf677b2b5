import TimedText.Proofs.Double.Accuracy
import TimedText.Proofs.Progress.Stamp

/-!
# Percentages

A percentage is computed the same way in every arithmetic. In the rational numbers it is the part of
the duration that has elapsed, at most a hundred (`Elapsed.share_eq`); in doubles it is that up to
four roundings (`within_percent`). Lines in the order of their times tell percentages in the same
order.
-/

namespace TimedText.Progress

open Double (IsAmount Within Estimates Regular step toRat)

/-! ## Two arithmetics -/

section SecondsIn

variable {α : Type} [Add α] (whole hundredths : Nat → α)

/-- The elapsed time in seconds, in an arithmetic with these numbers. -/
def secondsIn (e : Elapsed) : α :=
  whole (e.hours * 3600 + e.minutes * 60) + hundredths e.hundredths

theorem secondsIn_eq (e : Elapsed) :
    secondsIn whole hundredths e =
      whole (e.hours * 3600 + e.minutes * 60) + hundredths e.hundredths := rfl

/-- How much of the duration has elapsed, in percent, at most a hundred. -/
def percentIn [Mul α] [Div α] [LT α] [DecidableLT α] (e : Elapsed) (total : α) : α :=
  let p := secondsIn whole hundredths e / total * whole 100
  if p < whole 100 then p else whole 100

end SecondsIn

theorem secondsIn_double (e : Elapsed) :
    secondsIn Double.ofNat (fun n => Double.ofDecimal false n (-2)) e = e.seconds := by
  rw [secondsIn_eq, Elapsed.seconds]

theorem percentIn_double (e : Elapsed) (total : Double) :
    percentIn Double.ofNat (fun n => Double.ofDecimal false n (-2)) e total = percent e total := by
  unfold percent percentIn
  rw [secondsIn_double]

/-- The time that a stamp tells, in seconds. -/
def Elapsed.exact (e : Elapsed) : ℚ := 3600 * e.hours + 60 * e.minutes + e.hundredths / 100

/-- The percentage in rational numbers. -/
def Elapsed.share (e : Elapsed) (total : ℚ) : ℚ :=
  percentIn (fun n => (n : ℚ)) (fun n => n / 100) e total

theorem Elapsed.share_eq (e : Elapsed) (total : ℚ) :
    e.share total = min 100 (100 * e.exact / total) := by
  have hseconds : secondsIn (fun n => (n : ℚ)) (fun n => n / 100) e = e.exact := by
    unfold secondsIn Elapsed.exact
    push_cast
    ring
  have hpart : e.exact / total * 100 = 100 * e.exact / total := by ring
  simp only [share, percentIn, hseconds, Nat.cast_ofNat, hpart]
  split
  · next hless => exact (min_eq_right hless.le).symm
  · next hless => exact (min_eq_left (not_lt.mp hless)).symm

/-! ## Times of stamps -/

section Stamp

variable {stamp : List Char} {e e' : Elapsed}

theorem twoDigits_lt {a b : Char} {n : Nat} (h : twoDigits a b = some n) : n < 100 := by
  have hdigit {c : Char} {k : Nat} (hc : Text.digitValue c = some k) : k < 10 := by
    obtain ⟨z, hfind, rfl⟩ := Option.map_eq_some_iff.mp hc
    have hz := List.find?_some hfind
    simp only [Bool.and_eq_true, decide_eq_true_eq] at hz
    omega
  simp only [twoDigits, bind, Option.bind_eq_some_iff] at h
  obtain ⟨x, ha, y, hb, h⟩ := h
  have hx := hdigit ha
  have hy := hdigit hb
  cases h
  omega

theorem exact_nonneg (e : Elapsed) : 0 ≤ e.exact := by
  unfold Elapsed.exact
  positivity

/-- A stamp tells no more than ninety-nine of each. -/
theorem IsStamp.exact_le (h : IsStamp stamp e) : e.exact ≤ 362440 := by
  cases h with
  | @mk _ _ _ _ _ _ _ _ hours minutes seconds hundredths hh hm hs hc =>
    have hhours : (hours : ℚ) ≤ 99 := by exact_mod_cast Nat.le_of_lt_succ (twoDigits_lt hh)
    have hminutes : (minutes : ℚ) ≤ 99 := by exact_mod_cast Nat.le_of_lt_succ (twoDigits_lt hm)
    have hseconds : (seconds : ℚ) ≤ 99 := by exact_mod_cast Nat.le_of_lt_succ (twoDigits_lt hs)
    have hlast : (hundredths : ℚ) ≤ 99 := by exact_mod_cast Nat.le_of_lt_succ (twoDigits_lt hc)
    unfold Elapsed.exact
    push_cast
    linarith

/-- Two times are at least a hundredth apart. -/
theorem exact_add_le (h : e.exact < e'.exact) : e.exact + 1 / 100 ≤ e'.exact := by
  have hwhole (e : Elapsed) :
      e.exact * 100 = ((360000 * e.hours + 6000 * e.minutes + e.hundredths : Nat) : ℚ) := by
    unfold Elapsed.exact
    push_cast
    ring
  have hless : e.exact * 100 < e'.exact * 100 := mul_lt_mul_of_pos_right h (by norm_num)
  rw [hwhole, hwhole, Nat.cast_lt] at hless
  have hnext : e.exact * 100 + 1 ≤ e'.exact * 100 := by
    rw [hwhole, hwhole]
    exact_mod_cast hless
  linarith

end Stamp

/-! ## Four roundings -/

theorem exact_eq_zero_or_le (e : Elapsed) : e.exact = 0 ∨ 1 / 100 ≤ e.exact := by
  rcases (exact_nonneg e).eq_or_lt with hzero | hpos
  · exact .inl hzero.symm
  · have hnone : Elapsed.exact ⟨0, 0, 0⟩ = 0 := by simp [Elapsed.exact]
    have hnext := exact_add_le (hnone ▸ hpos : Elapsed.exact ⟨0, 0, 0⟩ < e.exact)
    rw [hnone, zero_add] at hnext
    exact .inr hnext

/-- Up to four roundings leave a hundredth of the longest duration far from the smallest double. -/
theorem regular_of_within {k : Nat} {x v : ℚ} (h : Within k x v) (few : k ≤ 4)
    (large : v = 0 ∨ 1 / (100 * 2 ^ 1024) ≤ v) : Regular x := by
  rcases large with rfl | large
  · exact .inl h.eq_zero
  · right
    have hsteps : (100 : ℚ) / 128 ≤ (1 - step) ^ k :=
      calc (100 : ℚ) / 128 ≤ (1 - step) ^ 4 := by norm_num [step]
        _ ≤ (1 - step) ^ k := pow_le_pow_of_le_one Double.step_nonneg.1 (by norm_num [step]) few
    have hpow : (1 : ℚ) / 2 ^ 1031 = 100 / 128 * (1 / (100 * 2 ^ 1024)) := by
      rw [show 1031 = 7 + 1024 from rfl, pow_add]
      field_simp
      norm_num
    calc (1 : ℚ) / 2 ^ 1031 = 100 / 128 * (1 / (100 * 2 ^ 1024)) := hpow
      _ ≤ (1 - step) ^ k * v :=
          mul_le_mul hsteps large (by positivity) (pow_nonneg Double.step_nonneg.1 k)
      _ ≤ x := h.1

/-- No time of a stamp is taken past the range. -/
theorem not_large {k : Nat} {v : ℚ} (few : k ≤ 4) (nonneg : 0 ≤ v) (small : v ≤ 362440) :
    (1 + step) ^ k * v < 2 ^ 1024 := by
  have hsteps : (1 + step) ^ k ≤ 2 :=
    calc (1 + step) ^ k ≤ (1 + step) ^ 4 := pow_le_pow_right₀ (by norm_num [step]) few
      _ ≤ 2 := by norm_num [step]
  calc (1 + step) ^ k * v ≤ 2 * 362440 := mul_le_mul hsteps small nonneg (by norm_num)
    _ < 2 ^ 44 := by norm_num
    _ ≤ 2 ^ 1024 := pow_le_pow_right₀ (by norm_num) (by norm_num)

theorem least_le {v : ℚ} (h : 1 / 100 ≤ v) : 1 / (100 * 2 ^ 1024) ≤ v := by
  refine le_trans ?_ h
  apply one_div_le_one_div_of_le (by norm_num)
  exact le_mul_of_one_le_right (by norm_num) (one_le_pow₀ (by norm_num))

/-- One part of a time is rounded once. -/
theorem within_part (n : Nat) {den : Nat} (hden : 0 < den) (few : den ≤ 100)
    (small : (n : ℚ) / den ≤ 362440) :
    (Double.ofRatio false n den).IsAmount ∧
      Within 1 (Double.ofRatio false n den).toRat (n / den) := by
  have hden' : (0 : ℚ) < den := Nat.cast_pos.mpr hden
  have hlarge : (n : ℚ) / den = 0 ∨ 1 / (100 * 2 ^ 1024) ≤ (n : ℚ) / den := by
    rcases Nat.eq_zero_or_pos n with rfl | hn
    · exact .inl (by rw [Nat.cast_zero, zero_div])
    · refine .inr (least_le ?_)
      rw [div_le_div_iff₀ (by norm_num) hden', one_mul]
      have hle : den ≤ n * 100 := few.trans (Nat.le_mul_of_pos_left 100 hn)
      exact_mod_cast hle
  have hregular : Regular ((n : ℚ) / den) :=
    regular_of_within (k := 0) (by simp [Within]) (by decide) hlarge
  exact (Double.estimates_ofRatio n hden hregular).of_small
    (not_large (by decide) (by positivity) small)

/-- The hundred that percentages are taken of. -/
theorem hundred : (Double.ofNat 100).IsAmount ∧ (Double.ofNat 100).toRat = 100 := by
  have hunits : (Double.ofNat 100).units = 100 * (Double.unitsPerOne : Int) := by decide +kernel
  refine ⟨⟨by decide +kernel, by decide +kernel⟩, ?_⟩
  rw [toRat, hunits, Int.cast_mul, Int.cast_natCast,
    mul_div_cancel_right₀ _ Double.unitsPerOne_pos_rat.ne']
  rfl

section Rounded

variable {e : Elapsed} {d : Double}

/-- The sum of two rounded parts is rounded once more. -/
theorem within_seconds (small : e.exact ≤ 362440) :
    e.seconds.IsAmount ∧ Within 2 e.seconds.toRat e.exact := by
  have hsum : ((e.hours * 3600 + e.minutes * 60 : Nat) : ℚ) / (1 : Nat) +
      e.hundredths / (100 : Nat) = e.exact := by
    unfold Elapsed.exact
    push_cast
    ring
  have hhundredths : Double.ofDecimal false e.hundredths (-2) =
      Double.ofRatio false e.hundredths 100 := by
    rw [Double.ofDecimal_eq, Int.toNat_of_nonpos (by decide), Nat.pow_zero, Nat.mul_one]
    rfl
  have hwhole : 0 ≤ ((e.hours * 3600 + e.minutes * 60 : Nat) : ℚ) / (1 : Nat) := by positivity
  have hlast : 0 ≤ (e.hundredths : ℚ) / (100 : Nat) := by positivity
  obtain ⟨ha, hwa⟩ := within_part (e.hours * 3600 + e.minutes * 60) Nat.one_pos (by decide)
    (by linarith)
  obtain ⟨hb, hwb⟩ := within_part e.hundredths (by decide : 0 < 100) (by decide)
    (by linarith)
  have hadd := hwa.add hwb
  rw [hsum] at hadd
  have hregular := regular_of_within hadd (by decide) ((exact_eq_zero_or_le e).imp id least_le)
  have hround := Double.estimates_add ha hb hwa hwb hregular
  rw [hsum] at hround
  unfold Elapsed.seconds
  rw [hhundredths]
  exact hround.of_small (not_large (by decide) (exact_nonneg e) small)

variable (amount : d.IsAmount) (pos : 0 < d.toRat) (small : e.exact ≤ 362440)
include amount pos small

/-- The quotient is rounded once more, -/
theorem estimates_quotient : Estimates 3 (e.seconds / d) (e.exact / d.toRat) := by
  obtain ⟨hseconds, hwithin⟩ := within_seconds small
  have hquotient := hwithin.mul_right (inv_pos.mpr pos).le
  rw [← div_eq_mul_inv, ← div_eq_mul_inv] at hquotient
  refine Double.estimates_div hseconds amount pos hwithin ?_
  refine regular_of_within hquotient (by decide) ?_
  rcases exact_eq_zero_or_le e with hzero | hle
  · exact .inl (by rw [hzero, zero_div])
  · right
    rw [← div_div]
    exact div_le_div₀ (exact_nonneg e) hle pos amount.toRat_lt.le

/-- and so is its multiple. -/
theorem estimates_multiple :
    Estimates 4 (e.seconds / d * Double.ofNat 100) (100 * e.exact / d.toRat) := by
  obtain ⟨hamount, hvalue⟩ := hundred
  have hquotient := estimates_quotient amount pos small
  have hnonneg : 0 ≤ e.exact / d.toRat := div_nonneg (exact_nonneg e) pos.le
  have hmultiple : e.exact / d.toRat * 100 = 100 * e.exact / d.toRat := by ring
  rw [← hmultiple, ← hvalue]
  refine hquotient.mul hamount (by rw [hvalue]; norm_num) hnonneg fun hq => ?_
  refine regular_of_within ((hquotient.within hq).mul_right hamount.toRat_nonneg) (by decide) ?_
  rw [hvalue]
  rcases exact_eq_zero_or_le e with hzero | hle
  · exact .inl (by rw [hzero, zero_div, zero_mul])
  · right
    calc 1 / (100 * 2 ^ 1024) = 1 / 100 / 2 ^ 1024 := (div_div _ _ _).symm
      _ ≤ e.exact / d.toRat := div_le_div₀ (exact_nonneg e) hle pos amount.toRat_lt.le
      _ ≤ e.exact / d.toRat * 100 := le_mul_of_one_le_right hnonneg (by norm_num)

/-- The percentage in doubles is the one in rational numbers up to four roundings. -/
theorem within_percent :
    (percent e d).IsAmount ∧ (percent e d).toRat ≤ 100 ∧
      Within 4 (percent e d).toRat (min 100 (100 * e.exact / d.toRat)) := by
  obtain ⟨hamount, hvalue⟩ := hundred
  have hmultiple := estimates_multiple amount pos small
  have hnonneg : 0 ≤ 100 * e.exact / d.toRat :=
    div_nonneg (mul_nonneg (by norm_num) (exact_nonneg e)) pos.le
  unfold percent
  generalize e.seconds / d * Double.ofNat 100 = p at hmultiple
  generalize 100 * e.exact / d.toRat = v at hmultiple hnonneg
  cases hmultiple with
  | amount hp hwithin =>
    have hbounded := hwithin.min (t := 100) (by norm_num)
    dsimp only
    split
    · next hless =>
      rw [← Double.toRat_lt_iff hp.1 hamount.1, hvalue] at hless
      rw [min_eq_right hless.le] at hbounded
      exact ⟨hp, hless.le, hbounded⟩
    · next hless =>
      rw [← Double.toRat_lt_iff hp.1 hamount.1, hvalue, not_lt] at hless
      rw [min_eq_left hless] at hbounded
      rw [hvalue]
      exact ⟨hamount, le_refl _, hbounded⟩
  | infinite large =>
    have hpast : ¬ Double.infinite false < Double.ofNat 100 := by decide +kernel
    have hshare : 100 ≤ v := by
      have hsteps : (1 + step) ^ 4 ≤ 2 := by norm_num [step]
      have hpow : (2 : ℚ) ^ 44 ≤ 2 ^ 1024 := pow_le_pow_right₀ (by norm_num) (by norm_num)
      by_contra hless
      have hle := mul_le_mul hsteps (not_le.mp hless).le hnonneg (by norm_num)
      exact absurd (hpow.trans (large.trans hle)) (by norm_num)
    rw [if_neg hpast, min_eq_left hshare, hvalue]
    refine ⟨hamount, le_refl _, ?_⟩
    norm_num [Within, step]

end Rounded

section Order

variable {e e' : Elapsed} {d : Double}

/-- What is at most a hundred afterwards is in the order it was in before. -/
theorem bounded_le_bounded {p p' : Double} (h : p ≤ p') :
    (if p < Double.ofNat 100 then p else Double.ofNat 100) ≤
      if p' < Double.ofNat 100 then p' else Double.ofNat 100 := by
  split
  · next hless =>
    split
    · exact h
    · exact (Quantity.lt_iff.mp hless).1
  · next hnot =>
    split
    · next hless => exact absurd (Quantity.lt_of_le_of_lt h hless) hnot
    · decide +kernel

/-- Times that differ by a hundredth are told apart whatever is rounded. -/
theorem seconds_le_seconds (small : e.exact ≤ 362440) (small' : e'.exact ≤ 362440)
    (h : e.exact < e'.exact) : e.seconds ≤ e'.seconds := by
  obtain ⟨hs, -, hhigh⟩ := within_seconds small
  obtain ⟨hs', hlow, -⟩ := within_seconds small'
  rw [← Double.toRat_le_iff hs.1 hs'.1]
  have hnext := exact_add_le h
  have hnonneg := exact_nonneg e
  have hlow' : (1 - step) ^ 2 * (e.exact + 1 / 100) ≤ (1 - step) ^ 2 * e'.exact :=
    mul_le_mul_of_nonneg_left hnext (pow_nonneg Double.step_nonneg.1 2)
  norm_num [step] at hlow hlow' hhigh
  linarith

theorem percent_le_percent (amount : d.IsAmount) (pos : 0 < d.toRat) (small : e.exact ≤ 362440)
    (small' : e'.exact ≤ 362440) (h : e.exact < e'.exact) : percent e d ≤ percent e' d := by
  have hseconds := seconds_le_seconds small small' h
  have hquotient :=
    (within_seconds small).1.div_le_div (within_seconds small').1 amount pos hseconds
  obtain ⟨hhundred, hvalue⟩ := hundred
  have hmultiple := Double.mul_le_mul_of_estimates (estimates_quotient amount pos small)
    (estimates_quotient amount pos small') hhundred (by rw [hvalue]; norm_num) hquotient
  exact bounded_le_bounded hmultiple

end Order

theorem near_of_within {x v : ℚ} (h : Within 4 x v) (nonneg : 0 ≤ v) : |x - v| ≤ v / 10 ^ 12 := by
  have hlow : 1 - 1 / 10 ^ 12 ≤ (1 - step) ^ 4 := by norm_num [step]
  have hhigh : (1 + step) ^ 4 ≤ 1 + 1 / 10 ^ 12 := by norm_num [step]
  have hbelow := (mul_le_mul_of_nonneg_right hlow nonneg).trans h.1
  have habove := h.2.trans (mul_le_mul_of_nonneg_right hhigh nonneg)
  rw [abs_le]
  constructor <;> linarith

/-! ## Lines -/

section Line

variable {line : String} {total : Option Double} {d : Double} {e : Elapsed}

theorem isKnown_iff : isKnown d = true ↔ ¬ d ≤ .zero := by
  unfold isKnown
  rw [Bool.not_eq_true', Bool.eq_false_iff]
  rfl

theorem ofLine?_eq_none_iff :
    ofLine? line total = none ↔ total = none ∨ (∃ d, total = some d ∧ d ≤ .zero) ∨
      ∀ stamp e, IsStamp stamp e → ¬ stamp <:+: line.toList := by
  cases total with
  | none => exact iff_of_true rfl (.inl rfl)
  | some d =>
    have hline : ofLine? line (some d) =
        if isKnown d then (findElapsed? line.toList).map (percent · d) else none := rfl
    rw [hline, ← findElapsed?_eq_none_iff]
    by_cases h : d ≤ .zero
    · rw [if_neg (mt isKnown_iff.mp (not_not.mpr h))]
      exact iff_of_true rfl (.inr (.inl ⟨d, rfl, h⟩))
    · rw [if_pos (isKnown_iff.mpr h), Option.map_eq_none_iff]
      simp [h]

theorem ofLine?_eq_some {p : Double} (h : ofLine? line total = some p) :
    ∃ d e, total = some d ∧ ¬ d ≤ .zero ∧ Leftmost line.toList e ∧ p = percent e d := by
  unfold ofLine? at h
  split at h
  · cases h
  · next d =>
    split at h
    · next hknown =>
      obtain ⟨e, hfound, rfl⟩ := Option.map_eq_some_iff.mp h
      exact ⟨d, e, rfl, isKnown_iff.mp hknown, findElapsed?_eq_some_iff.mp hfound, rfl⟩
    · cases h

theorem Leftmost.exact_le (h : Leftmost line.toList e) : e.exact ≤ 362440 := by
  obtain ⟨before, stamp, after, -, hstamp, -⟩ := h
  exact hstamp.exact_le

theorem amount_of_known (finite : d.isFinite = true) (known : ¬ d ≤ .zero) :
    d.IsAmount ∧ 0 < d.toRat := by
  have hzero : Double.zero.toRat = 0 := by
    rw [toRat, show Double.zero.units = 0 by decide, Int.cast_zero, zero_div]
  rw [← Double.toRat_le_iff finite (by decide), not_le, hzero] at known
  have hpos : Double.zero < d := by
    rw [← Double.toRat_lt_iff (by decide) finite, hzero]
    exact known
  exact ⟨⟨finite, Double.isNegative_of_pos hpos⟩, known⟩

theorem share_mono {e e' : Elapsed} {t : ℚ} (pos : 0 < t) (h : e.exact ≤ e'.exact) :
    e.share t ≤ e'.share t := by
  rw [Elapsed.share_eq, Elapsed.share_eq]
  exact min_le_min_left 100 (div_le_div_of_nonneg_right (by linarith) pos.le)

/-- A line tells no percentage exactly if no duration is known or there is no stamp in it. Otherwise
the leftmost stamp counts: it tells the part of the duration that has elapsed, at most a hundred,
computed in doubles as it would be in rational numbers, where a double differs from it by a
millionth of a millionth of it at most. Later times tell no less: in rational numbers, and in
doubles too. -/
theorem line_tells_share_of_leftmost (line : String) {total : Option Double}
    (finite : ∀ d, total = some d → d.isFinite = true) :
    (ofLine? line total = none ↔ total = none ∨ (∃ d, total = some d ∧ d ≤ .zero) ∨
        ∀ stamp e, IsStamp stamp e → ¬ stamp <:+: line.toList) ∧
      ∀ p, ofLine? line total = some p → ∃ d e, total = some d ∧ Leftmost line.toList e ∧
        stampWord <:+: line.toList ∧
        p = percentIn Double.ofNat (fun n => Double.ofDecimal false n (-2)) e d ∧
        percentIn (fun n => (n : ℚ)) (fun n => n / 100) e d.toRat =
          min 100 (100 * e.exact / d.toRat) ∧
        0 ≤ e.share d.toRat ∧ e.share d.toRat ≤ 100 ∧
        p.isFinite = true ∧ 0 ≤ p.toRat ∧ p.toRat ≤ 100 ∧
        |p.toRat - e.share d.toRat| ≤ e.share d.toRat / 10 ^ 12 ∧
        ∀ line' e' p', Leftmost line'.toList e' → ofLine? line' total = some p' →
          (e.exact ≤ e'.exact → e.share d.toRat ≤ e'.share d.toRat) ∧
            (e.exact < e'.exact ∨ e = e' → p ≤ p') := by
  refine ⟨ofLine?_eq_none_iff, fun p h => ?_⟩
  obtain ⟨d, e, rfl, hknown, hleftmost, rfl⟩ := ofLine?_eq_some h
  obtain ⟨hamount, hpos⟩ := amount_of_known (finite d rfl) hknown
  obtain ⟨hp, hmost, hwithin⟩ := within_percent hamount hpos hleftmost.exact_le
  have hword := word_infix_of_findElapsed? (findElapsed?_eq_some_iff.mpr hleftmost)
  have hshare : 0 ≤ e.share d.toRat ∧ e.share d.toRat ≤ 100 := by
    rw [Elapsed.share_eq]
    have hpart : 0 ≤ 100 * e.exact / d.toRat :=
      div_nonneg (mul_nonneg (by norm_num) (exact_nonneg e)) hpos.le
    exact ⟨le_min (by norm_num) hpart, min_le_left 100 _⟩
  rw [← Elapsed.share_eq] at hwithin
  refine ⟨d, e, rfl, hleftmost, hword, (percentIn_double e d).symm, e.share_eq d.toRat, hshare.1,
    hshare.2, hp.1, hp.toRat_nonneg, hmost, near_of_within hwithin hshare.1, ?_⟩
  intro line' e' p' hleftmost' h'
  obtain ⟨d', e₂, hd, -, hleftmost₂, rfl⟩ := ofLine?_eq_some h'
  cases hd
  -- one line has one leftmost stamp
  obtain rfl : e' = e₂ := Option.some.inj ((findElapsed?_eq_some_iff.mpr hleftmost').symm.trans
    (findElapsed?_eq_some_iff.mpr hleftmost₂))
  refine ⟨share_mono hpos, ?_⟩
  rintro (hless | rfl)
  · exact percent_le_percent hamount hpos hleftmost.exact_le hleftmost'.exact_le hless
  · exact (Double.toRat_le_iff hp.1 hp.1).mp le_rfl

/-- The first stamp is broken, the second one counts, and the third one does not. -/
theorem second_stamp_tells_quarter :
    let line := "frame=25 time=00:00:1 time=00:00:01.00 time=00:00:03.00"
    ofLine? line (some (.ofNat 4)) = some (.ofNat 25) ∧
      ∃ p, ofLine? line (some (.ofNat 4)) = some p ∧ 0 ≤ p.toRat ∧ p.toRat ≤ 100 ∧
        ∃ e, Leftmost line.toList e ∧ e.share (toRat (.ofNat 4)) =
          min 100 (100 * e.exact / toRat (.ofNat 4)) := by
  intro line
  have hline : ofLine? line (some (.ofNat 4)) = some (.ofNat 25) := by decide +kernel
  have hfinite : (Double.ofNat 4).isFinite = true := by decide +kernel
  obtain ⟨-, htold⟩ := line_tells_share_of_leftmost line
    fun d (hd : some (Double.ofNat 4) = some d) => Option.some.inj hd ▸ hfinite
  obtain ⟨d, e, hd, hleftmost, -, -, hshare, -, -, -, hlow, hhigh, -⟩ := htold _ hline
  obtain rfl := Option.some.inj hd
  exact ⟨hline, _, hline, hlow, hhigh, e, hleftmost, hshare⟩

end Line

end TimedText.Progress
