import Mathlib.Data.List.TakeWhile
import TimedText.Proofs.Double.Written
import TimedText.Proofs.Json.Figure
import TimedText.Text.Blank
import TimedText.Text.Digit

/-!
# Numbers as they are typed

A typed number is a text that writes a double in the digits of any script, with white space around
it (`Typed`). These are the texts that are read once they are trimmed (`read?_trimmed_eq_some_iff`).
What a double is printed as is one of them, infinities and `nan` included (`typed_text`).
-/

namespace TimedText

open Double

namespace Text

/-! ## Digits of any script -/

theorem apart_digitValue : Apart digitValue := forall_mem_of_all (by decide +kernel)

/-- A digit of ASCII is worth in any script what it is worth there. -/
theorem digitValue_of_isDigit {c : Char} (h : c.isDigit = true) :
    digitValue c = some (Double.digitValue c) := by
  simp only [Char.isDigit, Bool.and_eq_true, decide_eq_true_eq, UInt32.le_iff_toNat_le] at h
  have hlow : 0x30 ≤ c.toNat := h.1
  have hhigh : c.toNat < 0x30 + 10 := Nat.lt_succ_of_le h.2
  rw [digitValue, zeroDigits, List.find?_cons_of_pos (by simp [hlow, hhigh])]
  rfl

theorem isWhiteSpace_of_digitValue {c : Char} {d : Nat} (h : digitValue c = some d) :
    isWhiteSpace c = false := by
  have hgap : ∀ z ∈ zeroDigits, ∀ r ∈ whiteSpace, z + 10 ≤ r.1 ∨ r.2 < z := by decide +kernel
  obtain ⟨z, hz, -⟩ := Option.map_eq_some_iff.mp h
  have hmem := List.mem_of_find?_eq_some hz
  have hrange := List.find?_some hz
  simp only [Bool.and_eq_true, decide_eq_true_eq] at hrange
  rw [isWhiteSpace, inRanges, List.any_eq_false]
  rintro ⟨a, b⟩ hr
  have := hgap z hmem (a, b) hr
  simp only [Bool.and_eq_true, decide_eq_true_eq]
  omega

/-! ## Trimming -/

section Trimming

variable {p : Char → Bool}

theorem trimBy_append {front body back : List Char} (hfront : ∀ c ∈ front, p c = true)
    (hbody : ∀ c ∈ body, p c = false) (hback : ∀ c ∈ back, p c = true) :
    trimBy p (front ++ (body ++ back)) = body := by
  have hkept {cs : List Char} (h : ∀ c ∈ cs, p c = false) : cs.dropWhile p = cs := by
    cases cs with
    | nil => rfl
    | cons c cs => exact List.dropWhile_cons_of_neg (by simp [h c List.mem_cons_self])
  rw [trimBy, List.dropWhile_append_of_pos hfront]
  cases body with
  | nil =>
    have hnothing : back.dropWhile p = [] := List.dropWhile_eq_nil_iff.mpr hback
    rw [List.nil_append, hnothing]
    rfl
  | cons c cs =>
    have hc : ¬ p c = true := by simp [hbody c List.mem_cons_self]
    rw [List.cons_append, List.dropWhile_cons_of_neg hc, ← List.cons_append, List.reverse_append,
      List.dropWhile_append_of_pos fun d hd => hback d (List.mem_reverse.mp hd),
      hkept fun d hd => hbody d (List.mem_reverse.mp hd), List.reverse_reverse]

/-- Nothing but what is trimmed away stands around the rest. -/
theorem exists_trimBy (p : Char → Bool) (cs : List Char) :
    ∃ front back, cs = front ++ (trimBy p cs ++ back) ∧ (∀ c ∈ front, p c = true) ∧
      ∀ c ∈ back, p c = true := by
  let rest := (cs.dropWhile p).reverse
  refine ⟨cs.takeWhile p, (rest.takeWhile p).reverse, ?_, fun c => List.mem_takeWhile_imp, ?_⟩
  · have hrest : (rest.dropWhile p).reverse ++ (rest.takeWhile p).reverse = cs.dropWhile p := by
      rw [← List.reverse_append, List.takeWhile_append_dropWhile, List.reverse_reverse]
    show cs = cs.takeWhile p ++ ((rest.dropWhile p).reverse ++ (rest.takeWhile p).reverse)
    rw [hrest, List.takeWhile_append_dropWhile]
  · intro c hc
    exact List.mem_takeWhile_imp (List.mem_reverse.mp hc)

end Trimming

end Text

namespace Double

/-! ## Characters of a number -/

section Characters

variable {digit : DigitValue} {P : Char → Prop}

theorem Sign.forall {sign : List Char} {negative : Bool} (h : Sign sign negative)
    (hmark : ∀ c ∈ "+-._eE".toList, P c) : ∀ c ∈ sign, P c := by
  cases h with
  | none => exact nofun
  | plus => exact List.forall_mem_singleton.mpr (hmark '+' (by decide))
  | minus => exact List.forall_mem_singleton.mpr (hmark '-' (by decide))

theorem DigitPart.forall {cs : List Char} {ds : List Nat} (h : DigitPart digit cs ds)
    (hdigit : ∀ c d, digit c = some d → P c) (hmark : ∀ c ∈ "+-._eE".toList, P c) :
    ∀ c ∈ cs, P c := by
  induction h with
  | one hc => exact List.forall_mem_singleton.mpr (hdigit _ _ hc)
  | next hc _ ih => exact List.forall_mem_cons.mpr ⟨hdigit _ _ hc, ih⟩
  | apart hc _ ih =>
    exact List.forall_mem_cons.mpr
      ⟨hdigit _ _ hc, List.forall_mem_cons.mpr ⟨hmark '_' (by decide), ih⟩⟩

theorem Mantissa.forall {cs : List Char} {ds : List Nat} {places : Nat}
    (h : Mantissa digit cs ds places) (hdigit : ∀ c d, digit c = some d → P c)
    (hmark : ∀ c ∈ "+-._eE".toList, P c) : ∀ c ∈ cs, P c := by
  have hpoint : P '.' := hmark '.' (by decide)
  cases h with
  | whole hwhole => exact hwhole.forall hdigit hmark
  | point hwhole =>
    exact List.forall_mem_append.mpr
      ⟨hwhole.forall hdigit hmark, List.forall_mem_singleton.mpr hpoint⟩
  | places hplaces => exact List.forall_mem_cons.mpr ⟨hpoint, hplaces.forall hdigit hmark⟩
  | both hwhole hplaces =>
    exact List.forall_mem_append.mpr ⟨hwhole.forall hdigit hmark,
      List.forall_mem_cons.mpr ⟨hpoint, hplaces.forall hdigit hmark⟩⟩

theorem PowerPart.forall {cs : List Char} {p : Int} (h : PowerPart digit cs p)
    (hdigit : ∀ c d, digit c = some d → P c) (hmark : ∀ c ∈ "+-._eE".toList, P c) :
    ∀ c ∈ cs, P c := by
  cases h with
  | empty => exact nofun
  | marked he hsign hdigits =>
    refine List.forall_mem_cons.mpr ⟨?_, List.forall_mem_append.mpr
      ⟨hsign.forall hmark, hdigits.forall hdigit hmark⟩⟩
    rcases he with rfl | rfl <;> exact hmark _ (by decide)

theorem Spells.forall {cs : List Char} {word : String} (h : Spells cs word)
    (hletter : ∀ d ∈ word.toList, P d ∧ P (Char.ofNat (d.toNat - 32))) : ∀ c ∈ cs, P c := by
  intro c hc
  have hmem : c.toLower ∈ word.toList := by
    rw [← h, String.toList_ofList]
    exact List.mem_map_of_mem hc
  obtain ⟨hlower, hupper⟩ := hletter _ hmem
  rcases eq_of_toLower (c := c) rfl with heq | heq <;> rw [heq]
  · exact hlower
  · exact hupper

/-- What holds of digits, of the characters beside them, and of the letters of the words holds of
every character of a number. -/
theorem Writes.forall {cs : List Char} {x : Double} (h : Writes digit cs x)
    (hdigit : ∀ c d, digit c = some d → P c) (hmark : ∀ c ∈ "+-._eE".toList, P c)
    (hletter : ∀ d ∈ "infinitynan".toList, P d ∧ P (Char.ofNat (d.toNat - 32))) :
    ∀ c ∈ cs, P c := by
  cases h with
  | infinite hsign hword =>
    refine List.forall_mem_append.mpr ⟨hsign.forall hmark, ?_⟩
    rcases hword with hword | hword
    all_goals exact hword.forall fun d hd => hletter d (forall_mem_of_all (by decide) d hd)
  | nan hsign hword =>
    refine List.forall_mem_append.mpr ⟨hsign.forall hmark, ?_⟩
    exact hword.forall fun d hd => hletter d (forall_mem_of_all (by decide) d hd)
  | number hsign hmantissa hpower =>
    exact List.forall_mem_append.mpr ⟨hsign.forall hmark, List.forall_mem_append.mpr
      ⟨hmantissa.forall hdigit hmark, hpower.forall hdigit hmark⟩⟩

end Characters

/-! ## White space around a number -/

/-- A number in digits of any script, and white space around it. -/
def Typed (cs : List Char) (x : Double) : Prop :=
  ∃ front body back, cs = front ++ (body ++ back) ∧
    (∀ c ∈ front, Text.isWhiteSpace c = true) ∧ (∀ c ∈ back, Text.isWhiteSpace c = true) ∧
    Writes Text.digitValue body x

theorem Writes.isWhiteSpace_eq_false {cs : List Char} {x : Double}
    (h : Writes Text.digitValue cs x) : ∀ c ∈ cs, Text.isWhiteSpace c = false :=
  h.forall (fun _ _ => Text.isWhiteSpace_of_digitValue) (forall_mem_of_all (by decide +kernel))
    (forall_mem_of_all (by decide +kernel))

theorem read?_trimmed_eq_some_iff {cs : List Char} {x : Double} :
    read? Text.digitValue (Text.trimBy Text.isWhiteSpace cs) = some x ↔ Typed cs x := by
  rw [read?_eq_some_iff Text.apart_digitValue]
  constructor
  · intro h
    obtain ⟨front, back, hcs, hfront, hback⟩ := Text.exists_trimBy Text.isWhiteSpace cs
    exact ⟨front, _, back, hcs, hfront, hback, h⟩
  · rintro ⟨front, body, back, rfl, hfront, hback, hbody⟩
    rwa [Text.trimBy_append hfront hbody.isWhiteSpace_eq_false hback]

theorem Writes.typed {cs : List Char} {x : Double} (h : Writes Text.digitValue cs x) : Typed cs x :=
  ⟨[], cs, [], by rw [List.nil_append, List.append_nil], nofun, nofun, h⟩

/-! ## Printed doubles -/

theorem digitPart_of_isDigit {cs : List Char} (hne : cs ≠ [])
    (h : ∀ c ∈ cs, c.isDigit = true) : DigitPart Text.digitValue cs (cs.map digitValue) := by
  induction cs with
  | nil => exact absurd rfl hne
  | cons c cs ih =>
    have hc := Text.digitValue_of_isDigit (h c List.mem_cons_self)
    cases cs with
    | nil => exact .one hc
    | cons c' cs' =>
      exact .next hc (ih (List.cons_ne_nil _ _) fun d hd => h d (List.mem_cons_of_mem c hd))

theorem sign_signText (negative : Bool) : Sign (signText negative) negative := by
  cases negative with
  | false => exact .none
  | true => exact .minus

/-- The power of ten of a figure. -/
theorem powerPart_figure (f : Json.Figure) :
    PowerPart Text.digitValue f.powerChars f.exponent := by
  unfold Json.Figure.powerChars Json.Figure.exponent
  cases f.power with
  | none => exact .empty
  | some p =>
    have hsign : Sign p.sign (decide (p.sign = ['-'])) := by
      rcases p.sign_one with h | h | h <;> rw [h]
      · exact .none
      · exact .plus
      · exact .minus
    have hpower := PowerPart.marked p.mark_e hsign
      (digitPart_of_isDigit p.digits_ne_nil p.digits_digit)
    simpa [Json.Power.chars, Json.Power.value, ofDigits_map] using hpower

theorem mantissa_plain (p : Plain) :
    Mantissa Text.digitValue p.chars ((p.whole ++ p.places).map digitValue) p.places.length := by
  have hwhole := digitPart_of_isDigit p.whole_ne_nil p.whole_digit
  by_cases hplaces : p.places = []
  · rw [Plain.chars_of_nil hplaces, hplaces, List.append_nil]
    exact .whole hwhole
  · have hboth := Mantissa.both hwhole (digitPart_of_isDigit hplaces p.places_digit)
    rwa [List.length_map, ← List.map_append, ← Plain.chars_of_ne_nil hplaces] at hboth

/-- A figure writes its decimal. -/
theorem writes_figure (negative : Bool) (f : Json.Figure) :
    Writes Text.digitValue (signText negative ++ f.chars) (ofDecimalValue negative f.decimal) := by
  have hwrites :=
    Writes.number (sign_signText negative) (mantissa_plain f.toPlain) (powerPart_figure f)
  rwa [ofDigits_map] at hwrites

theorem writes_text (x : Double) : Writes Text.digitValue x.text.toList x := by
  cases x with
  | nan => exact .nan .none rfl
  | infinite s =>
    rw [text, withWords, String.toList_ofList]
    exact .infinite (sign_signText s) (.inl rfl)
  | finite s m shift h =>
    obtain ⟨f, hf, -, hsame⟩ := Json.exists_figure_layOut (finite s m shift h).shortest
    have hwrites := writes_figure s f
    rw [ofDecimalValue_same s hsame, ofDecimalValue_shortest s h, ← hf] at hwrites
    rwa [text, withWords, String.toList_ofList]

/-- What a double is printed as is typed text of that double. -/
theorem typed_text (x : Double) : Typed x.text.toList x := x.writes_text.typed

end Double

end TimedText
