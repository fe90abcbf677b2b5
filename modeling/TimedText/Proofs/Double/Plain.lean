import Mathlib.Data.List.Basic
import TimedText.Double.Reader
import TimedText.Proofs.Double.Rounding

/-!
# Numbers written without an exponent

`Plain` is a number as digits with at most one point, and `Plain.value` is the decimal that it
writes. It reads back as the double nearest to that decimal (`Plain.read?_chars`).

Two ways of setting out digits are plain: the positional notation of `Decimal.positional`
(`positional_cases`), and a fixed number of places (`pointed_cases`). Both keep the number, although
they move zeros: `Decimal.Same`. A number is `Plain.Tidy` if it has no needless zeros.
-/

namespace TimedText

/-- One number: the coefficients differ by zeros at the end alone. -/
def Decimal.Same (a b : Decimal) : Prop :=
  ∃ i j : Nat, a.coefficient * 10 ^ i = b.coefficient * 10 ^ j ∧ a.exponent - i = b.exponent - j

theorem Decimal.same_of_zero {a b : Decimal} (ha : a.coefficient = 0) (hb : b.coefficient = 0) :
    a.Same b := by
  refine ⟨(a.exponent - b.exponent).toNat, (b.exponent - a.exponent).toNat, ?_, by omega⟩
  rw [ha, hb, Nat.zero_mul, Nat.zero_mul]

/-- Positional notation, by the place of the point behind the first digits. -/
theorem Decimal.isPositional_iff {l : Decimal.Layout} {d : Decimal} :
    l.isPositional d = true ↔ d.coefficient = 0 ∨
      l.least < (digits d.coefficient).length + d.exponent ∧
        (digits d.coefficient).length + d.exponent ≤ l.limit := by
  simp [Layout.isPositional]

namespace Double

/-- The double nearest to a decimal. -/
def ofDecimalValue (negative : Bool) (d : Decimal) : Double :=
  ofDecimal negative d.coefficient d.exponent

theorem ofDecimalValue_same (negative : Bool) {a b : Decimal} (h : a.Same b) :
    ofDecimalValue negative a = ofDecimalValue negative b := by
  obtain ⟨i, j, hcoefficient, hexponent⟩ := h
  rw [ofDecimalValue, ofDecimalValue, ← ofDecimal_mul_pow _ _ i, hcoefficient, hexponent,
    ofDecimal_mul_pow]

/-! ## Digits -/

/-- What a digit of ASCII is worth. -/
def digitValue (c : Char) : Nat := c.toNat - '0'.toNat

theorem asciiDigit_of_isDigit {c : Char} (h : c.isDigit = true) :
    asciiDigit c = some (digitValue c) := by
  have hrange : '0' ≤ c ∧ c ≤ '9' := by
    simpa [Char.isDigit, Char.le_def] using h
  exact if_pos hrange

theorem digit_ne {c d : Char} (h : c.isDigit = true) (hd : d.isDigit = false) : c ≠ d := by
  rintro rfl
  rw [h] at hd
  cases hd

/-- A run of digits ends where the text does, or at a point. -/
theorem digitRun_digits {ds rest : List Char} (hds : ∀ c ∈ ds, c.isDigit = true)
    (hrest : rest = [] ∨ ∃ cs, rest = '.' :: cs) (inside : Bool) :
    digitRun asciiDigit inside (ds ++ rest) = (ds.map digitValue, rest) := by
  induction ds generalizing inside with
  | nil =>
    rcases hrest with rfl | ⟨cs, rfl⟩
    · rfl
    · have hpoint : asciiDigit '.' = none := by decide
      simp [digitRun, hpoint]
  | cons c ds ih =>
    have hc : c.isDigit = true := hds c List.mem_cons_self
    have hunderscore : c ≠ '_' := digit_ne hc (by decide)
    have hrun := ih (fun d hd => hds d (List.mem_cons_of_mem _ hd)) true
    simp [digitRun, hunderscore, asciiDigit_of_isDigit hc, hrun]

theorem ofDigits_map (ds : List Char) :
    ofDigits (ds.map digitValue) = Nat.ofDigitChars 10 ds 0 := by
  rw [ofDigits, List.foldl_map, Nat.ofDigitChars_eq_foldl]
  rfl

theorem isDigit_digits {n : Nat} : ∀ c ∈ Decimal.digits n, c.isDigit = true := fun _ hc =>
  Nat.isDigit_of_mem_toDigits (by decide) (by decide) hc

theorem isDigit_replicate {k : Nat} : ∀ c ∈ List.replicate k '0', c.isDigit = true := by
  intro c hc
  rw [List.eq_of_mem_replicate hc]
  decide

theorem isDigit_append {xs ys : List Char} (hx : ∀ c ∈ xs, c.isDigit = true)
    (hy : ∀ c ∈ ys, c.isDigit = true) : ∀ c ∈ xs ++ ys, c.isDigit = true := fun c hc =>
  (List.mem_append.mp hc).elim (hx c) (hy c)

theorem digits_ne_nil (n : Nat) : Decimal.digits n ≠ [] := Nat.toDigits_ne_nil

theorem ofDigitChars_digits (n : Nat) : Nat.ofDigitChars 10 (Decimal.digits n) 0 = n :=
  Nat.ofDigitChars_ten_toDigits

/-- Zeros in front of digits are worth nothing. -/
theorem ofDigitChars_zeros (k : Nat) (ds : List Char) :
    Nat.ofDigitChars 10 (List.replicate k '0' ++ ds) 0 = Nat.ofDigitChars 10 ds 0 := by
  rw [Nat.ofDigitChars_append, Nat.ofDigitChars_replicate_zero, Nat.mul_zero]

/-- Each zero behind digits is worth a factor of ten. -/
theorem ofDigitChars_append_zeros (ds : List Char) (k : Nat) :
    Nat.ofDigitChars 10 (ds ++ List.replicate k '0') 0 = Nat.ofDigitChars 10 ds 0 * 10 ^ k := by
  rw [Nat.ofDigitChars_append, Nat.ofDigitChars_replicate_zero, Nat.mul_comm]

theorem digitChar_ne_zero : ∀ d < 10, d ≠ 0 → d.digitChar ≠ '0' := by decide

/-- The digits of a number have no zero in front, but for the one of zero. -/
theorem head?_digits {n : Nat} (h : n ≠ 0) : (Decimal.digits n).head? ≠ some '0' := by
  induction n using Nat.strongRecOn with
  | _ n ih =>
    rcases Nat.lt_or_ge n 10 with hlt | hge
    · rw [Decimal.digits, Nat.toDigits_of_lt_base hlt, List.head?_cons, Ne, Option.some.injEq]
      exact digitChar_ne_zero n hlt h
    · rw [Decimal.digits, Nat.toDigits_of_base_le (by decide) hge,
        List.head?_append_of_ne_nil _ Nat.toDigits_ne_nil]
      exact ih (n / 10) (by omega) (by omega)

/-- The last digit of a number is a zero only if ten divides it. -/
theorem getLast?_digits {n : Nat} (h : n % 10 ≠ 0) : (Decimal.digits n).getLast? ≠ some '0' := by
  have hlast : (Decimal.digits n).getLast? = some (n % 10).digitChar := by
    rcases Nat.lt_or_ge n 10 with hlt | hge
    · rw [Decimal.digits, Nat.toDigits_of_lt_base hlt, List.getLast?_singleton,
        Nat.mod_eq_of_lt hlt]
    · rw [Decimal.digits, Nat.toDigits_of_base_le (by decide) hge, List.getLast?_concat]
  rw [hlast, Ne, Option.some.injEq]
  exact digitChar_ne_zero _ (by omega) h

/-! ## Plain numbers -/

/-- Digits, and places behind a point where there are any. -/
structure Plain where
  whole : List Char
  places : List Char
  whole_ne_nil : whole ≠ []
  whole_digit : ∀ c ∈ whole, c.isDigit = true
  places_digit : ∀ c ∈ places, c.isDigit = true

namespace Plain

/-- The number as it is written. -/
def chars (p : Plain) : List Char :=
  p.whole ++ if p.places.isEmpty then [] else '.' :: p.places

/-- The number that is written. -/
def value (p : Plain) : Decimal := ⟨Nat.ofDigitChars 10 (p.whole ++ p.places) 0, -p.places.length⟩

/-- No zero stands in front of other digits, and none at the end of the places. -/
structure Tidy (p : Plain) : Prop where
  whole : p.whole.head? = some '0' → p.whole = ['0']
  places : p.places.getLast? ≠ some '0'

theorem chars_of_nil {p : Plain} (h : p.places = []) : p.chars = p.whole := by
  rw [chars, h]
  exact List.append_nil _

theorem chars_of_ne_nil {p : Plain} (h : p.places ≠ []) :
    p.chars = p.whole ++ '.' :: p.places := by
  rw [chars, if_neg (by simpa using h)]

theorem mem_chars {p : Plain} {c : Char} (h : c ∈ p.chars) : c.isDigit = true ∨ c = '.' := by
  rcases List.mem_append.mp h with h | h
  · exact .inl (p.whole_digit c h)
  · split at h
    · cases h
    · rcases List.mem_cons.mp h with rfl | h
      · exact .inr rfl
      · exact .inl (p.places_digit c h)

theorem exists_cons (p : Plain) : ∃ c cs, p.chars = c :: cs ∧ c.isDigit = true := by
  obtain ⟨c, cs, hwhole⟩ := List.exists_cons_of_ne_nil p.whole_ne_nil
  refine ⟨c, cs ++ if p.places.isEmpty then [] else '.' :: p.places, ?_, ?_⟩
  · rw [chars, hwhole, List.cons_append]
  · exact p.whole_digit c (hwhole ▸ List.mem_cons_self)

theorem readUnsigned_chars (negative : Bool) (p : Plain) :
    readUnsigned asciiDigit negative p.chars = some (ofDecimalValue negative p.value) := by
  have hwhole : (p.whole.map digitValue).isEmpty = false := by
    simp [p.whole_ne_nil]
  unfold readUnsigned
  by_cases hplaces : p.places = []
  · have hrun := digitRun_digits p.whole_digit (.inl rfl) false
    rw [List.append_nil] at hrun
    rw [chars_of_nil hplaces, hrun]
    simp only [hwhole, readPower, ofDigits_map, Option.map_some, ofDecimalValue, value, hplaces,
      List.append_nil]
    rfl
  · have hrun := digitRun_digits p.places_digit (.inl rfl) false
    rw [List.append_nil] at hrun
    rw [chars_of_ne_nil hplaces, digitRun_digits p.whole_digit (.inr ⟨_, rfl⟩)]
    simp only [hrun, hwhole, readPower, Bool.false_and, Option.map_some, ofDecimalValue, value,
      ← List.map_append, ofDigits_map, List.length_map, Int.zero_sub]
    rfl

theorem toLower_of_isDigit {c : Char} (h : c.isDigit = true) : c.toLower = c := by
  simp only [Char.isDigit, Bool.and_eq_true, decide_eq_true_eq] at h
  apply dif_neg
  intro hupper
  exact absurd (UInt32.le_trans hupper.1 h.2) (by decide)

/-- A word for a number begins with a letter. -/
theorem word_ne {c : Char} {cs : List Char} (h : c.isDigit = true) {word : String}
    (hword : ∃ d ds, word.toList = d :: ds ∧ d.isDigit = false) :
    String.ofList ((c :: cs).map Char.toLower) ≠ word := by
  obtain ⟨d, ds, hd, hnot⟩ := hword
  rintro rfl
  rw [String.toList_ofList, List.map_cons, toLower_of_isDigit h] at hd
  injection hd with hd
  exact digit_ne h hnot hd

theorem readSign_chars (negative : Bool) (p : Plain) :
    readSign (signText negative ++ p.chars) = (negative, p.chars) := by
  cases negative with
  | true => rfl
  | false =>
    obtain ⟨c, cs, hchars, hc⟩ := p.exists_cons
    rw [hchars]
    change readSign (c :: cs) = (false, c :: cs)
    unfold readSign
    split
    · next heq =>
      injection heq with heq
      exact absurd heq (digit_ne hc (by decide))
    · next heq =>
      injection heq with heq
      exact absurd heq (digit_ne hc (by decide))
    · rfl

/-- A plain number reads back as the double nearest to it. -/
theorem read?_chars (negative : Bool) (p : Plain) :
    read? asciiDigit (signText negative ++ p.chars) = some (ofDecimalValue negative p.value) := by
  obtain ⟨c, cs, hchars, hc⟩ := p.exists_cons
  unfold read?
  rw [readSign_chars, hchars]
  dsimp only
  rw [if_neg, if_neg, ← hchars, readUnsigned_chars]
  · exact word_ne hc ⟨_, _, rfl, by decide⟩
  · rintro (h | h)
    · exact word_ne hc ⟨_, _, rfl, by decide⟩ h
    · exact word_ne hc ⟨_, _, rfl, by decide⟩ h

end Plain

/-! ## Setting out digits -/

/-- Positional notation keeps the number. Its whole part has no needless zero, unless zero itself is
filled up. With `.0` behind a whole number there are always places; without it the last of them is
no zero if the digits end in none. -/
theorem positional_cases (point : Bool) (c : Nat) (place : Int) :
    ∃ p : Plain, Decimal.positional point (Decimal.digits c) place = p.chars ∧
      p.value.Same ⟨c, place - (Decimal.digits c).length⟩ ∧
      (c ≠ 0 ∨ place = 1 → p.whole.head? = some '0' → p.whole = ['0']) ∧
      (point = true → p.places ≠ []) ∧
      (point = false → c % 10 ≠ 0 → p.places.getLast? ≠ some '0') := by
  have hds := ofDigitChars_digits c
  have hdigit := isDigit_digits (n := c)
  have hne := digits_ne_nil c
  have hhead : c ≠ 0 → (Decimal.digits c).head? ≠ some '0' := head?_digits
  have hzero : c = 0 → Decimal.digits c = ['0'] := by
    rintro rfl
    rfl
  have hlast : c % 10 ≠ 0 → (Decimal.digits c).getLast? ≠ some '0' := getLast?_digits
  generalize Decimal.digits c = ds at hds hdigit hne hhead hzero hlast ⊢
  unfold Decimal.positional
  split
  · next hplace =>
    -- All digits are places.
    refine ⟨⟨List.replicate 1 '0', List.replicate (-place).toNat '0' ++ ds, by simp,
      isDigit_replicate, isDigit_append isDigit_replicate hdigit⟩, ?_, ⟨0, 0, ?_, ?_⟩,
      fun _ _ => rfl, ?_, ?_⟩
    · rw [Plain.chars_of_ne_nil (by simp [hne])]
      rfl
    · simp only [Plain.value, ofDigitChars_zeros, hds]
    · simp only [Plain.value, List.length_append, List.length_replicate]
      omega
    · simp [hne]
    · intro _ h
      rw [List.getLast?_append_of_ne_nil _ hne]
      exact hlast h
  · split
    · next hpos hplace =>
      -- A whole number; zeros fill it up to the point, and one may stand behind it.
      refine ⟨⟨ds ++ List.replicate (place.toNat - ds.length) '0', List.replicate point.toNat '0',
        by simp [hne], isDigit_append hdigit isDigit_replicate, isDigit_replicate⟩, ?_,
        ⟨0, place.toNat - ds.length + point.toNat, ?_, ?_⟩, ?_, ?_, ?_⟩
      · cases point <;> rfl
      · rw [Plain.value, List.append_assoc, List.replicate_append_replicate,
          ofDigitChars_append_zeros, hds, Nat.pow_zero, Nat.mul_one]
      · simp only [Plain.value, List.length_replicate]
        omega
      · rintro hlead hfront
        rw [List.head?_append_of_ne_nil _ hne] at hfront
        have hc : c = 0 := Classical.not_not.mp fun h => hhead h hfront
        have hone : place = 1 := hlead.resolve_left (not_not_intro hc)
        simp only [hzero hc, hone]
        rfl
      · rintro rfl
        exact List.cons_ne_nil _ _
      · rintro rfl _
        exact nofun
    · next hpos hplace =>
      -- The point stands between two digits.
      have hdrop : ds.drop place.toNat ≠ [] := by
        rw [Ne, List.drop_eq_nil_iff]
        omega
      have htake : ds.take place.toNat ≠ [] := by
        rw [Ne, List.take_eq_nil_iff, or_iff_left hne]
        omega
      refine ⟨⟨ds.take place.toNat, ds.drop place.toNat, htake,
        fun d hd => hdigit d (List.mem_of_mem_take hd),
        fun d hd => hdigit d (List.mem_of_mem_drop hd)⟩, ?_, ⟨0, 0, ?_, ?_⟩, ?_, fun _ => hdrop, ?_⟩
      · rw [Plain.chars_of_ne_nil hdrop]
      · simp only [Plain.value, List.take_append_drop, hds]
      · simp only [Plain.value, List.length_drop]
        omega
      · intro hlead hfront
        rw [List.head?_take, if_neg (by omega)] at hfront
        have hc : c = 0 := Classical.not_not.mp fun h => hhead h hfront
        rw [hzero hc] at hplace
        exact absurd (hlead.resolve_left (not_not_intro hc)) (by simp at hplace; omega)
      · have hinside : ¬ ds.length ≤ place.toNat := by omega
        intro _ h
        rw [List.getLast?_drop, if_neg hinside]
        exact hlast h

/-- Positional notation without `.0` keeps the number. It is tidy if the digits have no zero at
either end. -/
theorem positional_plain (c : Nat) (place : Int) :
    ∃ p : Plain, Decimal.positional false (Decimal.digits c) place = p.chars ∧
      p.value.Same ⟨c, place - (Decimal.digits c).length⟩ ∧ (c % 10 ≠ 0 → p.Tidy) := by
  obtain ⟨p, hp, hsame, hlead, -, hlast⟩ := positional_cases false c place
  refine ⟨p, hp, hsame, fun h => ⟨hlead (.inl ?_), hlast rfl h⟩⟩
  rintro rfl
  exact h rfl

/-- A fixed number of places: the digits in front of the point and behind it. The zeros that fill
them up reach in front of the point only if nothing else is there. -/
theorem pointed_cases {places : Nat} (hplaces : places ≠ 0) (n : Nat) :
    ∃ p : Plain, pointed places n = p.whole ++ '.' :: p.places ∧ p.places.length = places ∧
      Nat.ofDigitChars 10 (p.whole ++ p.places) 0 = n ∧
      (p.whole.head? = some '0' → p.whole = ['0']) := by
  have hdigit : ∀ c ∈ Decimal.padZeros (places + 1) (Decimal.digits n), c.isDigit = true :=
    isDigit_append isDigit_replicate isDigit_digits
  have hds : Nat.ofDigitChars 10 (Decimal.padZeros (places + 1) (Decimal.digits n)) 0 = n := by
    rw [Decimal.padZeros, ofDigitChars_zeros, ofDigitChars_digits]
  have hlength : places < (Decimal.padZeros (places + 1) (Decimal.digits n)).length := by
    rw [Decimal.padZeros, List.length_append, List.length_replicate]
    omega
  have hfront : (Decimal.padZeros (places + 1) (Decimal.digits n)).length = places + 1 ∨
      (Decimal.padZeros (places + 1) (Decimal.digits n)).head? ≠ some '0' := by
    rw [Decimal.padZeros, List.length_append, List.length_replicate]
    rcases Nat.lt_or_ge (Decimal.digits n).length (places + 2) with hlt | hge
    · exact .inl (by omega)
    · right
      rw [show places + 1 - (Decimal.digits n).length = 0 by omega]
      refine head?_digits ?_
      rintro rfl
      exact absurd hge (by simp [Decimal.digits])
  unfold pointed
  generalize Decimal.padZeros (places + 1) (Decimal.digits n) = ds at hdigit hds hlength hfront ⊢
  have htake : ds.take (ds.length - places) ≠ [] := by
    rw [Ne, List.take_eq_nil_iff, ← List.length_eq_zero_iff]
    omega
  refine ⟨⟨ds.take (ds.length - places), ds.drop (ds.length - places), htake,
    fun d hd => hdigit d (List.mem_of_mem_take hd),
    fun d hd => hdigit d (List.mem_of_mem_drop hd)⟩, if_neg hplaces, ?_, ?_, ?_⟩
  · rw [List.length_drop]
    omega
  · rw [List.take_append_drop, hds]
  · intro hzero
    rw [List.head?_take, if_neg (by omega)] at hzero
    rcases hfront with hshort | hfront
    · obtain ⟨c, cs, rfl⟩ := List.exists_cons_of_length_pos (Nat.zero_lt_of_lt hlength)
      obtain rfl : c = '0' := Option.some.inj hzero
      show ('0' :: cs).take (('0' :: cs).length - places) = ['0']
      rw [hshort, Nat.add_sub_cancel_left]
      rfl
    · exact absurd hzero hfront

end Double

end TimedText
