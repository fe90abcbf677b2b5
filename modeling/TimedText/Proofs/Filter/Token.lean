import TimedText.Filter.Clause

/-!
# Reading the parts of a filter clause

`unescapeChars` takes back what `escapeChars` does (`unescapeChars_escapeChars`). A text may hold
any character, yet its end in a clause is in plain sight: a colon of the text has a backslash in
front of it, so a quote in front of a colon can only be the one that closes the text
(`untilClose_escapeChars`). All other parts are free of the character that follows them.
-/

namespace TimedText.Filter

/-! ## Texts -/

/-- A text as it was before it was written: the backslash in front of a quote or a colon goes. -/
def unescapeChars : List Char → List Char
  | '\\' :: '\'' :: cs => '\'' :: unescapeChars cs
  | '\\' :: ':' :: cs => ':' :: unescapeChars cs
  | c :: cs => c :: unescapeChars cs
  | [] => []

/-- What stands in front of the first quote that a colon follows, and what stands behind both. -/
def untilClose : List Char → Option (List Char × List Char)
  | '\'' :: ':' :: cs => some ([], cs)
  | c :: cs => (untilClose cs).map fun (before, rest) => (c :: before, rest)
  | [] => none

theorem escapeChars_cons_special {c : Char} (h : c = '\'' ∨ c = ':') (cs : List Char) :
    escapeChars (c :: cs) = '\\' :: c :: escapeChars cs := by
  simp [escapeChars, escapeChar, h]

theorem escapeChars_cons_other {c : Char} (h : ¬ (c = '\'' ∨ c = ':')) (cs : List Char) :
    escapeChars (c :: cs) = c :: escapeChars cs := by
  simp [escapeChars, escapeChar, h]

/-- A written text never begins with a quote or a colon: a backslash stands in front. -/
theorem head?_escapeChars {c : Char} {cs : List Char} (h : (escapeChars cs).head? = some c) :
    ¬ (c = '\'' ∨ c = ':') := by
  cases cs with
  | nil => cases h
  | cons d cs =>
    by_cases hd : d = '\'' ∨ d = ':'
    · rw [escapeChars_cons_special hd] at h
      cases h
      decide
    · rw [escapeChars_cons_other hd] at h
      cases h
      exact hd

theorem untilClose_cons {c : Char} {cs : List Char} (h : c = '\'' → cs.head? ≠ some ':') :
    untilClose (c :: cs) = (untilClose cs).map fun (before, rest) => (c :: before, rest) := by
  rw [untilClose]
  rintro cs' hc rfl
  exact h hc rfl

theorem head?_escapeChars_quote (cs rest : List Char) :
    (escapeChars cs ++ '\'' :: rest).head? ≠ some ':' := by
  cases hcs : escapeChars cs with
  | nil => simp
  | cons c cs' =>
    intro hc
    exact head?_escapeChars (by rw [hcs]; exact hc) (.inr rfl)

/-- The first quote in front of a colon closes a written text, whatever the text is. -/
theorem untilClose_escapeChars (cs rest : List Char) :
    untilClose (escapeChars cs ++ '\'' :: ':' :: rest) = some (escapeChars cs, rest) := by
  induction cs with
  | nil => rfl
  | cons c cs ih =>
    by_cases h : c = '\'' ∨ c = ':'
    · rw [escapeChars_cons_special h, List.cons_append, List.cons_append,
        untilClose_cons (fun hc => absurd hc (by decide)),
        untilClose_cons (fun _ => head?_escapeChars_quote cs _), ih]
      rfl
    · rw [escapeChars_cons_other h, List.cons_append,
        untilClose_cons (fun hq => absurd (.inl hq) h), ih]
      rfl

theorem unescapeChars_cons {c : Char} {cs : List Char}
    (h : ∀ d, cs.head? = some d → ¬ (d = '\'' ∨ d = ':')) :
    unescapeChars (c :: cs) = c :: unescapeChars cs := by
  rw [unescapeChars]
  · rintro cs' - rfl
    exact h _ rfl (.inl rfl)
  · rintro cs' - rfl
    exact h _ rfl (.inr rfl)

theorem unescapeChars_escapeChars (cs : List Char) : unescapeChars (escapeChars cs) = cs := by
  induction cs with
  | nil => rfl
  | cons c cs ih =>
    by_cases h : c = '\'' ∨ c = ':'
    · rw [escapeChars_cons_special h]
      rcases h with rfl | rfl
      · rw [unescapeChars, ih]
      · rw [unescapeChars, ih]
    · rw [escapeChars_cons_other h, unescapeChars_cons (fun _ => head?_escapeChars), ih]

/-! ## Parts that end where a character stands -/

/-- What stands in front of the first of a character, and what stands behind it. -/
def untilChar (c : Char) (cs : List Char) : Option (List Char × List Char) :=
  match cs.dropWhile (· ≠ c) with
  | _ :: rest => some (cs.takeWhile (· ≠ c), rest)
  | [] => none

theorem untilChar_append {c : Char} {before : List Char} (h : c ∉ before) (rest : List Char) :
    untilChar c (before ++ c :: rest) = some (before, rest) := by
  have hall : ∀ d ∈ before, (decide (d ≠ c)) = true := by
    intro d hd
    exact decide_eq_true fun hdc => h (hdc ▸ hd)
  unfold untilChar
  rw [List.dropWhile_append_of_pos hall, List.takeWhile_append_of_pos hall]
  simp

/-- What follows an expected text. -/
def afterText (text : List Char) (cs : List Char) : Option (List Char) :=
  if text.isPrefixOf cs then some (cs.drop text.length) else none

theorem afterText_append (text rest : List Char) :
    afterText text (text ++ rest) = some rest := by
  unfold afterText
  rw [if_pos (List.isPrefixOf_iff_prefix.mpr (List.prefix_append text rest)),
    List.drop_left]

/-! ## Colours and positions -/

/-- A colour as it was before it was written. -/
def ofColorChars : List Char → List Char
  | '0' :: 'x' :: rest => '#' :: rest
  | cs => cs

theorem color_cases {s : String} (h : IsColor s) :
    ∃ ds, s.toList = '#' :: ds ∧ ∀ d ∈ ds, isHexDigit d = true := by
  unfold IsColor at h
  split at h
  · next ds heq => exact ⟨ds, heq, fun d hd => List.all_eq_true.mp h.2 d hd⟩
  · exact h.elim

theorem ofColorChars_colorChars {s : String} (h : IsColor s) :
    ofColorChars (colorChars s.toList) = s.toList := by
  obtain ⟨ds, hds, -⟩ := color_cases h
  rw [hds]
  rfl

theorem colon_not_mem_colorChars {s : String} (h : IsColor s) :
    ':' ∉ colorChars s.toList := by
  obtain ⟨ds, hds, hhex⟩ := color_cases h
  rw [hds]
  intro hmem
  rcases List.mem_cons.mp hmem with hc | hmem
  · exact absurd hc (by decide)
  · rcases List.mem_cons.mp hmem with hc | hmem
    · exact absurd hc (by decide)
    · exact absurd (hhex _ hmem) (by decide)

/-- The position that is written like this. -/
def ofPositionY (s : String) : Option Position := Position.all.find? (positionY · = s)

theorem ofPositionY_positionY (p : Position) : ofPositionY (positionY p) = some p := by
  cases p <;> rfl

theorem colon_not_mem_positionY (p : Position) : ':' ∉ (positionY p).toList := by
  cases p <;> decide

end TimedText.Filter
