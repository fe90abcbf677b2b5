import TimedText.Proofs.Filter.Seconds
import TimedText.Proofs.Filter.Token
import TimedText.Proofs.Progress.Stamp

/-!
# Colons of an expression

A colon of a text has a backslash in front of it, and a colon that divides a clause has a letter
behind it. So no colon of an expression stands between two digits (`colonsGuarded_compile`), and a
stamp has a colon that does (`ColonsGuarded.not_infix`): texts may imitate stamps, but the
expression holds none.
-/

namespace TimedText.Filter

open Progress (IsStamp twoDigits)

/-- Every colon has a backslash in front of it or something that is no digit behind it. -/
def ColonsGuarded (cs : List Char) : Prop :=
  ∀ before after, cs = before ++ ':' :: after →
    before.getLast? = some '\\' ∨ ∃ c, after.head? = some c ∧ Text.digitValue c = none

variable {xs ys cs : List Char}

theorem digitValue_of_twoDigits {a b : Char} {n : Nat} (h : twoDigits a b = some n) :
    Text.digitValue a ≠ none ∧ Text.digitValue b ≠ none := by
  simp only [twoDigits, bind, Option.bind_eq_some_iff] at h
  obtain ⟨x, ha, y, hb, -⟩ := h
  rw [ha, hb]
  exact ⟨nofun, nofun⟩

/-- The first colon of a stamp stands between two digits. -/
theorem ColonsGuarded.not_infix (h : ColonsGuarded cs) {stamp : List Char} {e : Progress.Elapsed}
    (hstamp : IsStamp stamp e) : ¬ stamp <:+: cs := by
  rintro ⟨before, after, rfl⟩
  cases hstamp with
  | @mk h₁ h₂ m₁ m₂ s₁ s₂ c₁ c₂ _ _ _ _ hours_eq minutes_eq _ _ =>
    have hcolon := h (before ++ Progress.stampWord ++ [h₁, h₂])
      (m₁ :: m₂ :: ':' :: s₁ :: s₂ :: '.' :: c₁ :: c₂ :: after) (by simp)
    rcases hcolon with hlast | ⟨c, hhead, hc⟩
    · have hdigit := (digitValue_of_twoDigits hours_eq).2
      obtain rfl : h₂ = '\\' := by simpa using hlast
      exact hdigit (by decide)
    · have hdigit := (digitValue_of_twoDigits minutes_eq).1
      obtain rfl : m₁ = c := by simpa using hhead
      exact hdigit hc

theorem ColonsGuarded.findElapsed? (h : ColonsGuarded cs) : Progress.findElapsed? cs = none :=
  Progress.findElapsed?_eq_none_iff.mpr fun _ _ hstamp => h.not_infix hstamp

/-! ## Guarded texts side by side -/

theorem colonsGuarded_of_not_mem (h : ':' ∉ cs) : ColonsGuarded cs := by
  rintro before after rfl
  exact absurd (List.mem_append_right before List.mem_cons_self) h

theorem ColonsGuarded.append (hx : ColonsGuarded xs) (hy : ColonsGuarded ys) :
    ColonsGuarded (xs ++ ys) := by
  intro before after h
  rcases List.append_eq_append_iff.mp h with ⟨middle, rfl, hys⟩ | ⟨middle, rfl, hafter⟩
  · -- the colon is one of the second text
    rcases hy middle after hys with hlast | hhead
    · left
      rw [List.getLast?_append, hlast, Option.some_or]
    · exact .inr hhead
  · cases middle with
    | nil =>
      have hcolon := hy [] after hafter.symm
      exact .inr (hcolon.resolve_left nofun)
    | cons c middle =>
      -- the colon is one of the first text
      obtain ⟨rfl, rfl⟩ := List.cons.inj hafter
      rcases hx before middle rfl with hlast | ⟨c, hhead, hc⟩
      · exact .inl hlast
      · refine .inr ⟨c, ?_, hc⟩
        show (middle ++ ys).head? = some c
        rw [List.head?_append, hhead, Option.some_or]

/-- A colon that is written for one of a text. -/
theorem colonsGuarded_escaped : ColonsGuarded ['\\', ':'] := by
  intro before after h
  cases before with
  | nil => simp at h
  | cons d before =>
    cases before with
    | nil =>
      simp at h
      exact .inl (congrArg some h.1.symm)
    | cons => simp at h

/-- A colon that divides: something that is no digit stands behind it. -/
theorem colonsGuarded_divider {c : Char} (hc : Text.digitValue c = none) (hys : ':' ∉ c :: ys) :
    ColonsGuarded (':' :: c :: ys) := by
  intro before after h
  cases before with
  | nil =>
    obtain ⟨-, rfl⟩ := List.cons.inj h
    exact .inr ⟨c, rfl, hc⟩
  | cons d before =>
    obtain ⟨-, h⟩ := List.cons.inj h
    exact absurd (h ▸ List.mem_append_right before List.mem_cons_self) hys

/-- Guarded texts with a guarded one between any two of them. -/
theorem colonsGuarded_intercalate {between : List Char} (hbetween : ColonsGuarded between)
    {parts : List (List Char)} (h : ∀ part ∈ parts, ColonsGuarded part) :
    ColonsGuarded (between.intercalate parts) := by
  induction parts with
  | nil => exact colonsGuarded_of_not_mem List.not_mem_nil
  | cons part parts ih =>
    obtain ⟨hpart, hparts⟩ := List.forall_mem_cons.mp h
    cases parts with
    | nil => rwa [List.intercalate_singleton]
    | cons next parts =>
      rw [List.intercalate_cons_cons]
      exact (hpart.append hbetween).append (ih hparts)

/-! ## Expressions -/

theorem colonsGuarded_escapeChars (cs : List Char) : ColonsGuarded (escapeChars cs) := by
  induction cs with
  | nil => exact colonsGuarded_of_not_mem List.not_mem_nil
  | cons c cs ih =>
    have hfront : ColonsGuarded (escapeChar c) := by
      by_cases hc : c = ':'
      · subst hc
        exact colonsGuarded_escaped
      · apply colonsGuarded_of_not_mem
        unfold escapeChar
        split <;> simp [Ne.symm hc]
    exact hfront.append ih

theorem colon_not_mem_digits (n : Nat) : ':' ∉ (toString n).toList := by
  intro h
  rw [Nat.toString_eq_repr, Nat.toList_repr] at h
  exact absurd (Nat.isDigit_of_mem_toDigits (by decide) (by decide) h) (by decide)

theorem colon_not_mem_int (i : Int) : ':' ∉ (toString i).toList := by
  cases i with
  | ofNat n => exact colon_not_mem_digits n
  | negSucc n =>
    show ':' ∉ ("-" ++ toString (n + 1)).toList
    rw [String.toList_append, List.mem_append, not_or]
    exact ⟨by decide, colon_not_mem_digits (n + 1)⟩

theorem colon_not_mem_enableExpression (c : Cue) : ':' ∉ (enableExpression c).toList := by
  have htime (x : Double) : ':' ∉ (seconds x).toList :=
    not_mem_seconds (by decide) (by decide) x
  unfold enableExpression
  simp only [String.toList_append, List.mem_append, not_or]
  exact ⟨⟨⟨⟨by decide, htime c.start⟩, by decide⟩, htime c.stop⟩, by decide⟩

section Clause

variable {font : String} {box : Box} (hfont : ':' ∉ font.toList) (hcolor : ':' ∉ box.color.toList)
include hfont hcolor

theorem colonsGuarded_clause (c : Cue) : ColonsGuarded (clause font box c).toList := by
  have hplain {s : String} (h : ':' ∉ s.toList) : ColonsGuarded s.toList :=
    colonsGuarded_of_not_mem h
  have htext : ColonsGuarded (escape c.text).toList := by
    rw [escape, String.toList_ofList]
    exact colonsGuarded_escapeChars _
  have htoken : ':' ∉ (colorToken c.color).toList := by
    rw [colorToken, String.toList_ofList]
    exact colon_not_mem_colorChars c.color_valid
  -- the quote that closes a value, and the key behind it
  have hclosing {d : Char} {ds : List Char} (hd : Text.digitValue d = none) (hds : ':' ∉ d :: ds) :
      ColonsGuarded ('\'' :: ':' :: d :: ds) :=
    (colonsGuarded_of_not_mem (show ':' ∉ ['\''] by decide)).append (colonsGuarded_divider hd hds)
  have hbox : ColonsGuarded "':box=1:boxcolor=".toList :=
    (hclosing (show Text.digitValue 'b' = none by decide)
      (show ':' ∉ "box=1".toList by decide)).append
      (colonsGuarded_divider (by decide) (show ':' ∉ "boxcolor=".toList by decide))
  have hhead : ':' ∉ "drawtext=fontfile=".toList := by decide
  unfold clause
  simp only [String.toList_append]
  exact (hplain hhead).append (hplain hfont)
    |>.append (colonsGuarded_divider (by decide) (by decide)) |>.append htext
    |>.append (hclosing (by decide) (by decide)) |>.append (hplain htoken)
    |>.append (colonsGuarded_divider (by decide) (by decide))
    |>.append (hplain (colon_not_mem_digits c.fontSize))
    |>.append (colonsGuarded_divider (by decide) (by decide)) |>.append (hplain (by decide))
    |>.append (colonsGuarded_divider (by decide) (by decide))
    |>.append (hplain (colon_not_mem_positionY c.position))
    |>.append (colonsGuarded_divider (by decide) (by decide))
    |>.append (hplain (colon_not_mem_enableExpression c)) |>.append hbox |>.append (hplain hcolor)
    |>.append (colonsGuarded_divider (by decide) (by decide))
    |>.append (hplain (colon_not_mem_int box.border))

theorem colonsGuarded_compile (cues : List Cue) :
    ColonsGuarded (compile font box cues).expression.toList := by
  rw [compile, String.toList_intercalate]
  apply colonsGuarded_intercalate (colonsGuarded_of_not_mem (by decide))
  intro part hpart
  obtain ⟨s, hs, rfl⟩ := List.mem_map.mp hpart
  obtain ⟨c, -, rfl⟩ := List.mem_map.mp hs
  exact colonsGuarded_clause hfont hcolor c

/-- A colon of the arguments is one of the expression, or the one of `-c:a`. -/
theorem colonsGuarded_arguments (cues : List Cue) :
    ∀ argument ∈ (compile font box cues).encoderArguments, ColonsGuarded argument.toList := by
  have hplain {words : List String} (h : ∀ word ∈ words, ':' ∉ word.toList) :
      ∀ word ∈ words, ColonsGuarded word.toList :=
    fun word hword => colonsGuarded_of_not_mem (h word hword)
  have hcodec : ColonsGuarded "-c:a".toList :=
    (colonsGuarded_of_not_mem (show ':' ∉ ['-', 'c'] by decide)).append
      (colonsGuarded_divider (by decide) (by decide))
  unfold Graph.encoderArguments
  rw [List.forall_mem_append, List.forall_mem_append]
  refine ⟨⟨hplain (by decide), ?_⟩, List.forall_mem_cons.mpr ⟨hcodec, hplain (by decide)⟩⟩
  split
  · exact nofun
  · rw [List.forall_mem_cons, List.forall_mem_singleton]
    exact ⟨colonsGuarded_of_not_mem (by decide), colonsGuarded_compile hfont hcolor cues⟩

end Clause

end TimedText.Filter
