import TimedText.Proofs.Filter.Reading

/-!
# Where the text of a clause ends for a reader of backslashes

A backslash is written in front of the quotes and colons of a text, and none in front of a
backslash. To a reader for whom a backslash makes the next character literal, whatever it is, and
for whom a quote without one ends the text, a backslash of the text is like one that was written.
Such a reader gives a text back, and stops at the quote that closes it, exactly if every backslash
of the text stands directly in front of a colon (`text_reads_back_iff_backslashes_guard_colons`):
only there the backslash that is written behind it comes to stand for it.
-/

namespace TimedText.Filter

/-- A quoted text and what stands behind its closing quote. A backslash makes the character behind
it literal, and a quote that is not literal closes. -/
def readQuoted : List Char → Option (List Char × List Char)
  | [] => none
  | '\\' :: c :: cs => (readQuoted cs).map (Prod.map (c :: ·) id)
  | c :: cs => if c = '\'' then some ([], cs) else (readQuoted cs).map (Prod.map (c :: ·) id)

/-- Every backslash stands directly in front of a colon. -/
def BackslashesGuardColons (cs : List Char) : Prop :=
  ∀ rest, '\\' :: rest <:+ cs → rest.head? = some ':'

variable {c d : Char} {cs s rest : List Char}

/-! ## One character -/

theorem readQuoted_backslash (c : Char) (cs : List Char) :
    readQuoted ('\\' :: c :: cs) = (readQuoted cs).map (Prod.map (c :: ·) id) := rfl

theorem readQuoted_quote (cs : List Char) : readQuoted ('\'' :: cs) = some ([], cs) := by
  rw [readQuoted, if_pos rfl]
  rintro c cs h -
  exact absurd h (by decide)

theorem readQuoted_plain (backslash : c ≠ '\\') (quote : c ≠ '\'') (cs : List Char) :
    readQuoted (c :: cs) = (readQuoted cs).map (Prod.map (c :: ·) id) := by
  rw [readQuoted, if_neg quote]
  rintro d cs h -
  exact absurd h backslash

/-- What is read in front of a character. -/
theorem map_cons_eq_some {read : Option (List Char × List Char)} :
    read.map (Prod.map (c :: ·) id) = some (s, rest) ↔ ∃ s', s = c :: s' ∧ read = some (s', rest) := by
  rw [Option.map_eq_some_iff]
  constructor
  · rintro ⟨⟨s', rest'⟩, hread, h⟩
    cases h
    exact ⟨s', rfl, hread⟩
  · rintro ⟨s', rfl, hread⟩
    exact ⟨(s', rest), hread, rfl⟩

theorem map_cons_eq_some_cons {read : Option (List Char × List Char)} :
    read.map (Prod.map (c :: ·) id) = some (c :: s, rest) ↔ read = some (s, rest) := by
  rw [map_cons_eq_some]
  constructor
  · rintro ⟨s', h, hread⟩
    cases h
    exact hread
  · exact fun hread => ⟨s, rfl, hread⟩

theorem guardColons_cons (h : c ≠ '\\') :
    BackslashesGuardColons (c :: cs) ↔ BackslashesGuardColons cs := by
  constructor
  · exact fun guards rest hrest => guards rest (hrest.trans (List.suffix_cons c cs))
  · intro guards rest hrest
    rcases List.suffix_cons_iff.mp hrest with heq | hrest
    · cases heq
      exact absurd rfl h
    · exact guards rest hrest

theorem guardColons_backslash :
    BackslashesGuardColons ('\\' :: cs) ↔ cs.head? = some ':' ∧ BackslashesGuardColons cs := by
  constructor
  · exact fun guards =>
      ⟨guards cs List.suffix_rfl, fun rest hrest => guards rest (hrest.trans (List.suffix_cons _ _))⟩
  · rintro ⟨hhead, guards⟩ rest hrest
    rcases List.suffix_cons_iff.mp hrest with heq | hrest
    · cases heq
      exact hhead
    · exact guards rest hrest

/-- Behind what is read something is left out: the closing quote at least. -/
theorem length_lt_of_readQuoted (h : readQuoted cs = some (s, rest)) : rest.length < cs.length := by
  induction cs using readQuoted.induct generalizing s with
  | case1 => cases h
  | case2 c cs ih =>
    obtain ⟨s', -, hread⟩ := map_cons_eq_some.mp h
    have hless := ih hread
    simp only [List.length_cons]
    omega
  | case3 cs =>
    rw [readQuoted_quote] at h
    cases h
    exact Nat.lt_succ_self _
  | case4 c cs backslash quote ih =>
    rw [readQuoted, if_neg quote] at h
    · obtain ⟨s', -, hread⟩ := map_cons_eq_some.mp h
      exact Nat.lt_succ_of_lt (ih hread)
    · exact backslash

/-! ## Written texts -/

section Written

variable {t : List Char}

theorem readQuoted_special (h : c = '\'' ∨ c = ':') :
    readQuoted (escapeChars (c :: cs) ++ t) =
      (readQuoted (escapeChars cs ++ t)).map (Prod.map (c :: ·) id) := by
  rw [escapeChars_cons_special h]
  exact readQuoted_backslash c _

theorem readQuoted_other (special : ¬ (c = '\'' ∨ c = ':')) (backslash : c ≠ '\\') :
    readQuoted (escapeChars (c :: cs) ++ t) =
      (readQuoted (escapeChars cs ++ t)).map (Prod.map (c :: ·) id) := by
  rw [escapeChars_cons_other special]
  exact readQuoted_plain backslash (fun h => special (.inl h)) _

/-- A backslash of the text takes the character of the text behind it. -/
theorem readQuoted_backslash_other (special : ¬ (d = '\'' ∨ d = ':')) :
    readQuoted (escapeChars ('\\' :: d :: cs) ++ t) =
      (readQuoted (escapeChars cs ++ t)).map (Prod.map (d :: ·) id) := by
  rw [escapeChars_cons_other (by decide), escapeChars_cons_other special]
  exact readQuoted_backslash d _

/-- It takes the backslash that is written in front of a quote, so that the quote closes. -/
theorem readQuoted_backslash_quote :
    readQuoted (escapeChars ('\\' :: '\'' :: cs) ++ t) = some (['\\'], escapeChars cs ++ t) := by
  rw [escapeChars_cons_other (by decide), escapeChars_cons_special (.inl rfl)]
  show (readQuoted ('\'' :: (escapeChars cs ++ t))).map _ = _
  rw [readQuoted_quote]
  rfl

/-- It takes the backslash that is written in front of a colon, which needs none. -/
theorem readQuoted_backslash_colon :
    readQuoted (escapeChars ('\\' :: ':' :: cs) ++ t) =
      ((readQuoted (escapeChars cs ++ t)).map (Prod.map (':' :: ·) id)).map
        (Prod.map ('\\' :: ·) id) := by
  rw [escapeChars_cons_other (by decide), escapeChars_cons_special (.inr rfl)]
  show (readQuoted (':' :: (escapeChars cs ++ t))).map _ = _
  rw [readQuoted_plain (by decide) (by decide)]

end Written

/-- At the end of the text it takes the quote that should close. -/
theorem readQuoted_backslash_last :
    readQuoted (escapeChars ['\\'] ++ '\'' :: rest) =
      (readQuoted rest).map (Prod.map ('\'' :: ·) id) := rfl

/-- Induction on a text by what is read of it: a backslash takes a character with it. -/
theorem text_ind {motive : List Char → Prop} (nil : motive [])
    (special : ∀ c cs, c = '\'' ∨ c = ':' → motive cs → motive (c :: cs))
    (other : ∀ c cs, ¬ (c = '\'' ∨ c = ':') → c ≠ '\\' → motive cs → motive (c :: cs))
    (last : motive ['\\']) (quote : ∀ cs, motive cs → motive ('\\' :: '\'' :: cs))
    (colon : ∀ cs, motive cs → motive ('\\' :: ':' :: cs))
    (backslash : ∀ d cs, ¬ (d = '\'' ∨ d = ':') → motive cs → motive ('\\' :: d :: cs)) :
    ∀ cs, motive cs := by
  intro cs
  induction hn : cs.length using Nat.strongRecOn generalizing cs with
  | _ n ih =>
    subst hn
    cases cs with
    | nil => exact nil
    | cons c cs =>
      have hcs := ih cs.length (Nat.lt_succ_self _) cs rfl
      by_cases hspecial : c = '\'' ∨ c = ':'
      · exact special c cs hspecial hcs
      · by_cases hbackslash : c = '\\'
        · subst hbackslash
          cases cs with
          | nil => exact last
          | cons d cs =>
            have hrest := ih cs.length (Nat.lt_succ_of_lt (Nat.lt_succ_self _)) cs rfl
            by_cases hd : d = '\'' ∨ d = ':'
            · rcases hd with rfl | rfl
              · exact quote cs hrest
              · exact colon cs hrest
            · exact backslash d cs hd hrest
        · exact other c cs hspecial hbackslash hcs

/-- Up to the quote that closes a text no more is read than the text is long: what is left out of
it makes it shorter, and what is written besides is not read. -/
theorem length_le_of_readQuoted
    (h : readQuoted (escapeChars cs ++ '\'' :: rest) = some (s, rest)) : s.length ≤ cs.length := by
  induction cs using text_ind generalizing s with
  | nil =>
    cases (readQuoted_quote rest).symm.trans h
    exact Nat.le_refl _
  | special c cs hc ih =>
    rw [readQuoted_special hc] at h
    obtain ⟨s', rfl, hread⟩ := map_cons_eq_some.mp h
    exact Nat.succ_le_succ (ih hread)
  | other c cs hc hbackslash ih =>
    rw [readQuoted_other hc hbackslash] at h
    obtain ⟨s', rfl, hread⟩ := map_cons_eq_some.mp h
    exact Nat.succ_le_succ (ih hread)
  | last =>
    -- what stands behind the closing quote cannot end behind itself
    rw [readQuoted_backslash_last] at h
    obtain ⟨s', -, hread⟩ := map_cons_eq_some.mp h
    exact absurd (length_lt_of_readQuoted hread) (Nat.lt_irrefl _)
  | quote cs ih =>
    rw [readQuoted_backslash_quote] at h
    have hs : ['\\'] = s := congrArg Prod.fst (Option.some.inj h)
    rw [← hs]
    exact Nat.le_add_left 1 _
  | colon cs ih =>
    rw [readQuoted_backslash_colon] at h
    obtain ⟨s', rfl, hread⟩ := map_cons_eq_some.mp h
    obtain ⟨s'', rfl, hread'⟩ := map_cons_eq_some.mp hread
    exact Nat.succ_le_succ (Nat.succ_le_succ (ih hread'))
  | backslash d cs hd ih =>
    rw [readQuoted_backslash_other hd] at h
    obtain ⟨s', rfl, hread⟩ := map_cons_eq_some.mp h
    exact Nat.le_succ_of_le (Nat.succ_le_succ (ih hread))

theorem readQuoted_escapeChars_iff :
    readQuoted (escapeChars cs ++ '\'' :: rest) = some (cs, rest) ↔ BackslashesGuardColons cs := by
  induction cs using text_ind with
  | nil => exact iff_of_true (readQuoted_quote rest) fun _ h => by cases List.suffix_nil.mp h
  | special c cs hc ih =>
    have hbackslash : c ≠ '\\' := by rcases hc with rfl | rfl <;> decide
    rw [readQuoted_special hc, map_cons_eq_some_cons, guardColons_cons hbackslash, ih]
  | other c cs hc hbackslash ih =>
    rw [readQuoted_other hc hbackslash, map_cons_eq_some_cons, guardColons_cons hbackslash, ih]
  | last =>
    rw [readQuoted_backslash_last, guardColons_backslash]
    refine iff_of_false (fun h => ?_) (fun h => by cases h.1)
    obtain ⟨s', hs, -⟩ := map_cons_eq_some.mp h
    cases hs
  | quote cs ih =>
    rw [readQuoted_backslash_quote, guardColons_backslash]
    exact iff_of_false (fun h => by cases h) (fun h => by cases h.1)
  | colon cs ih =>
    rw [readQuoted_backslash_colon, map_cons_eq_some_cons, map_cons_eq_some_cons,
      guardColons_backslash, guardColons_cons (by decide), ih]
    exact (and_iff_right rfl).symm
  | backslash d cs hd ih =>
    rw [readQuoted_backslash_other hd, guardColons_backslash]
    refine iff_of_false (fun h => ?_) (fun h => hd (.inr (Option.some.inj h.1)))
    -- of two backslashes one is left, so that not all of the text can have been read
    obtain ⟨s', hs, hread⟩ := map_cons_eq_some.mp h
    cases hs
    exact absurd (length_le_of_readQuoted hread) (Nat.not_succ_le_self _)

/-! ## Clauses -/

/-- What stands behind the quote that closes the text of a clause. -/
def behindText (box : Box) (c : Cue) : String :=
  ":fontcolor=" ++ colorToken c.color ++ ":fontsize=" ++ toString c.fontSize ++ ":x=" ++ centeredX
    ++ ":y=" ++ positionY c.position ++ ":enable='" ++ enableExpression c ++ "':box=1:boxcolor="
    ++ box.color ++ ":boxborderw=" ++ toString box.border

theorem toList_clause_text (font : String) (box : Box) (c : Cue) :
    (clause font box c).toList =
      clauseHead font ++ (escapeChars c.text.toList ++ '\'' :: (behindText box c).toList) := by
  unfold clause clauseHead behindText escape
  simp only [String.toList_append, String.toList_ofList, List.append_assoc]
  rfl

/-- The text of a clause as a reader of backslashes reads it from its opening quote on, and what is
left of the clause. -/
def readText (font clause : String) : Option (List Char × List Char) :=
  (afterText (clauseHead font) clause.toList).bind readQuoted

/-- From its opening quote on the text of a clause is read as it is, up to the quote that was
written to close it, exactly if every backslash of it stands directly in front of a colon. -/
theorem text_reads_back_iff_backslashes_guard_colons (font : String) (box : Box) (c : Cue) :
    (clause font box c).toList =
        clauseHead font ++ ((escape c.text).toList ++ '\'' :: (behindText box c).toList) ∧
      (readText font (clause font box c) = some (c.text.toList, (behindText box c).toList) ↔
        BackslashesGuardColons c.text.toList) := by
  have hclause := toList_clause_text font box c
  constructor
  · rw [hclause, escape, String.toList_ofList]
  · unfold readText
    rw [hclause, afterText_append]
    exact readQuoted_escapeChars_iff

/-- A backslash at the end of a text takes the quote that should close the text, which then goes on
to the quote in front of the times. -/
theorem last_backslash_takes_closing_quote :
    let c : Cue := { Cue.blank with text := "a\\" }
    c.isBlank = false ∧
      readText defaultFont (clause defaultFont {} c) ≠
        some (c.text.toList, (behindText {} c).toList) ∧
      readText defaultFont (clause defaultFont {} c) =
        some ("a':fontcolor=0xFFFFFF:fontsize=24:x=(w-text_w)/2:y=(h-text_h)/2:enable=".toList,
          "between(t,0,0)':box=1:boxcolor=black@0.5:boxborderw=5".toList) := by
  decide +kernel

end TimedText.Filter
