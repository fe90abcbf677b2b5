import TimedText.Filter.Token
import TimedText.Proofs.Double.Shortest

/-!
# The times of a filter clause

The text of a time is a plain and tidy number (`plainDigits_plain`), so none of its characters
divides a clause (`mem_seconds`). It is read back as the double nearest to the decimal that it
writes, `written` (`read?_seconds`): the fewest digits where these need no exponent, else the
magnitude rounded to twenty places.
-/

namespace TimedText.Filter

open Double

/-! ## Trimming -/

theorem trimEnd_append (c : Char) (xs ys : List Char) :
    trimEnd c (xs ++ ys) = if trimEnd c ys = [] then trimEnd c xs else xs ++ trimEnd c ys := by
  unfold trimEnd
  rw [List.reverse_append, List.dropWhile_append]
  simp only [List.reverse_eq_nil_iff, List.isEmpty_iff]
  split
  · rfl
  · rw [List.reverse_append, List.reverse_reverse]

theorem trimEnd_of_not_mem {c : Char} {cs : List Char} (h : c ∉ cs) : trimEnd c cs = cs := by
  unfold trimEnd
  cases hcs : cs.reverse with
  | nil => rw [List.reverse_eq_nil_iff.mp hcs]; rfl
  | cons d ds =>
    have hd : d ∈ cs := List.mem_reverse.mp (hcs ▸ List.mem_cons_self)
    have hne : d ≠ c := fun heq => h (heq ▸ hd)
    rw [List.dropWhile_cons_of_neg (by simpa using hne), ← hcs, List.reverse_reverse]

theorem exists_trimEnd (c : Char) (cs : List Char) :
    ∃ k, cs = trimEnd c cs ++ List.replicate k c := by
  refine ⟨(cs.reverse.takeWhile (· = c)).length, ?_⟩
  have htake : cs.reverse.takeWhile (· = c) =
      List.replicate (cs.reverse.takeWhile (· = c)).length c :=
    List.eq_replicate_of_mem fun d hd => by
      simpa using List.all_eq_true.mp List.all_takeWhile d hd
  rw [trimEnd, ← List.reverse_replicate, ← htake, ← List.reverse_append,
    List.takeWhile_append_dropWhile, List.reverse_reverse]

theorem point_not_mem {ds : List Char} (h : ∀ c ∈ ds, c.isDigit = true) : '.' ∉ ds := fun hmem =>
  absurd (h _ hmem) (by decide)

/-- The zeros at the end go, up to the point. -/
theorem trimEnd_zero (whole places : List Char) :
    trimEnd '0' (whole ++ '.' :: places) = whole ++ '.' :: trimEnd '0' places := by
  have hpoint : trimEnd '0' (whole ++ ['.']) = whole ++ ['.'] := by
    rw [trimEnd_append, if_neg (by decide)]
    rfl
  rw [List.append_cons, trimEnd_append, hpoint]
  split
  · next hplaces => rw [hplaces]
  · rw [List.append_assoc, List.singleton_append]

/-- A point that nothing follows goes too. -/
theorem trimEnd_point (p : Plain) : trimEnd '.' (p.whole ++ '.' :: p.places) = p.chars := by
  by_cases hplaces : p.places = []
  · rw [Plain.chars_of_nil hplaces, hplaces, trimEnd_append, if_pos (by decide),
      trimEnd_of_not_mem (point_not_mem p.whole_digit)]
  · rw [Plain.chars_of_ne_nil hplaces, List.append_cons, trimEnd_append,
      trimEnd_of_not_mem (point_not_mem p.places_digit), if_neg hplaces, List.append_assoc,
      List.singleton_append]

theorem getLast?_trimEnd (c : Char) (cs : List Char) : (trimEnd c cs).getLast? ≠ some c := by
  rw [trimEnd, List.getLast?_reverse]
  intro h
  have hnot := List.head?_dropWhile_not (· = c) cs.reverse
  rw [h] at hnot
  simp at hnot

/-- Trimmed, the number is the same, and tidy if it has no needless zeros in front. -/
theorem trimEnd_plain (p : Plain) :
    ∃ q : Plain, trimEnd '.' (trimEnd '0' (p.whole ++ '.' :: p.places)) = q.chars ∧
      q.value.Same p.value ∧ ((p.whole.head? = some '0' → p.whole = ['0']) → q.Tidy) := by
  obtain ⟨k, hk⟩ := exists_trimEnd '0' p.places
  have hdigit : ∀ c ∈ trimEnd '0' p.places, c.isDigit = true := fun c hc =>
    p.places_digit c (hk ▸ List.mem_append_left _ hc)
  refine ⟨⟨p.whole, trimEnd '0' p.places, p.whole_ne_nil, p.whole_digit, hdigit⟩, ?_,
    ⟨k, 0, ?_, ?_⟩, fun h => ⟨h, getLast?_trimEnd '0' p.places⟩⟩
  · rw [trimEnd_zero, ← trimEnd_point]
  · simp only [Plain.value, Nat.pow_zero, Nat.mul_one]
    rw [← ofDigitChars_append_zeros, List.append_assoc, ← hk]
  · have hlength := congrArg List.length hk
    rw [List.length_append, List.length_replicate] at hlength
    simp only [Plain.value]
    omega

/-! ## Seconds -/

/-- The magnitude rounded to twenty places. -/
def twentyPlaces (x : Double) : Decimal :=
  ⟨roundDiv (x.magnitude * Nat.pow 10 20) unitsPerOne, -20⟩

/-- The decimal that is written for the magnitude of a time. -/
def written (x : Double) : Decimal :=
  if plainLayout.isPositional x.shortest then x.shortest else twentyPlaces x

theorem layOut_plain {d : Decimal} (h : plainLayout.isPositional d = true) :
    ∃ p : Plain, d.layOut { plainLayout with wholePoint := false } = p.chars ∧
      p.value.Same d ∧ (d.Trimmed → p.Tidy) := by
  obtain ⟨c, e⟩ := d
  have hlayout : (Decimal.mk c e).layOut { plainLayout with wholePoint := false } =
      Decimal.positional false (Decimal.digits c)
        (if c = 0 then 1 else (Decimal.digits c).length + e) := by
    unfold Decimal.layOut
    exact if_pos h
  rw [hlayout]
  by_cases hc : c = 0
  · -- Zero is zero under any exponent, and is one digit.
    subst hc
    let p : Plain :=
      ⟨['0'], [], List.cons_ne_nil _ _, List.forall_mem_singleton.mpr rfl, List.forall_mem_nil _⟩
    exact ⟨p, rfl, Decimal.same_of_zero rfl rfl, fun _ => ⟨fun _ => rfl, nofun⟩⟩
  · obtain ⟨p, hp, hsame, htidy⟩ := positional_plain c ((Decimal.digits c).length + e)
    rw [add_sub_cancel_left] at hsame
    rw [if_neg hc]
    exact ⟨p, hp, hsame, fun trimmed => htidy (trimmed.resolve_left hc)⟩

/-- The digits of a time are a plain number without needless zeros. -/
theorem plainDigits_plain (x : Double) :
    ∃ p : Plain, plainDigits x = p.chars ∧ p.value.Same (written x) ∧ p.Tidy := by
  unfold plainDigits written
  dsimp only
  split
  · next hpositional =>
    obtain ⟨p, hp, hsame, htidy⟩ := layOut_plain hpositional
    exact ⟨p, hp, hsame, htidy x.shortest_trimmed⟩
  · obtain ⟨p, hp, hlength, hvalue, hfront⟩ := pointed_cases (show 20 ≠ 0 by decide)
      (roundDiv (x.magnitude * Nat.pow 10 20) unitsPerOne)
    obtain ⟨q, hq, hsame, htidy⟩ := trimEnd_plain p
    refine ⟨q, ?_, ?_, htidy hfront⟩
    · rw [fixedDigits, hp, hq]
    · rw [Plain.value.eq_1 p, hvalue, hlength] at hsame
      exact hsame

theorem seconds_finite (negative : Bool) {m shift : Nat} (h : Canonical m shift) :
    ∃ p : Plain, (seconds (.finite negative m shift h)).toList = signText negative ++ p.chars ∧
      p.value.Same (written (.finite negative m shift h)) ∧ p.Tidy := by
  obtain ⟨p, hp, hsame, htidy⟩ := plainDigits_plain (.finite negative m shift h)
  refine ⟨p, ?_, hsame, htidy⟩
  rw [seconds, withWords, String.toList_ofList, hp]

/-- The characters of a time that are not digits. -/
def otherChars : List Char := ['.', '-', 'i', 'n', 'f', 'a']

theorem mem_otherChars {cs : List Char} (h : cs.all otherChars.contains = true) {c : Char}
    (hc : c ∈ cs) : c ∈ otherChars :=
  List.contains_iff_mem.mp (List.all_eq_true.mp h c hc)

theorem mem_seconds {x : Double} {c : Char} (h : c ∈ (seconds x).toList) :
    c.isDigit = true ∨ c ∈ otherChars := by
  cases x with
  | nan =>
    exact .inr (mem_otherChars (by decide) h)
  | infinite negative =>
    exact .inr (mem_otherChars (by cases negative <;> decide) h)
  | finite negative m shift hcan =>
    obtain ⟨p, hp, -⟩ := seconds_finite negative hcan
    rw [hp] at h
    rcases List.mem_append.mp h with h | h
    · exact .inr (mem_otherChars (by cases negative <;> decide) h)
    · rcases Plain.mem_chars h with hc | rfl
      · exact .inl hc
      · exact .inr (by decide)

/-- A character that divides a clause stands in no time. -/
theorem not_mem_seconds {c : Char} (hdigit : c.isDigit = false) (hother : c ∉ otherChars)
    (x : Double) : c ∉ (seconds x).toList := by
  intro h
  rcases mem_seconds h with hc | hc
  · rw [hc] at hdigit
    cases hdigit
  · exact hother hc

/-- What the text of a time is read back as. -/
def reread (x : Double) : Double :=
  match x with
  | .finite negative .. => ofDecimalValue negative (written x)
  | x => x

theorem read?_seconds (x : Double) : read? asciiDigit (seconds x).toList = some (reread x) := by
  cases x with
  | nan => decide
  | infinite s => cases s <;> decide
  | finite s m shift hcan =>
    obtain ⟨p, hp, hsame, -⟩ := seconds_finite s hcan
    rw [hp, Plain.read?_chars, ofDecimalValue_same s hsame]
    rfl

end TimedText.Filter
