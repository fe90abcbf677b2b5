import Mathlib.Data.Bool.AllAny
import TimedText.Proofs.Json.Figure

/-!
# The grammar of JSON texts

`Derives` is the grammar of RFC 8259, stated without regard to the reader and the printer, and
`IsText` its texts. What is printed is a text exactly if all doubles in it are finite
(`isText_print_iff`).

That a word such as `Infinity` is in no text is seen outside the strings: behind it, but for the
strings, no text has a letter with which such a word begins (`Derives.silent`), whereas a string may
hold any letters.
-/

namespace TimedText

namespace Json

open Double (signText)

/-- What holds of all values in a list or an object holds of it: induction over a value. -/
@[induction_eliminator]
theorem induction {motive : Json → Prop} (null : motive .null) (bool : ∀ b, motive (.bool b))
    (int : ∀ i, motive (.int i)) (float : ∀ d, motive (.float d)) (str : ∀ s, motive (.str s))
    (list : ∀ items, (∀ j ∈ items, motive j) → motive (.list items))
    (dict : ∀ members, (∀ m ∈ members, motive m.2) → motive (.dict members)) (j : Json) :
    motive j :=
  @Json.rec motive (fun items => ∀ j ∈ items, motive j)
    (fun members => ∀ m ∈ members, motive m.2) (fun m => motive m.2)
    null bool int float str list dict (List.forall_mem_nil _)
    (fun _ _ first rest => List.forall_mem_cons.mpr ⟨first, rest⟩) (List.forall_mem_nil _)
    (fun _ _ first rest => List.forall_mem_cons.mpr ⟨first, rest⟩) (fun _ _ value => value) j

/-! ## The grammar -/

/-- Space between tokens. -/
def IsGap (cs : List Char) : Prop := ∀ c ∈ cs, isSpace c = true

/-- What may stand between the quotes of a string. -/
inductive IsBody : List Char → Prop
  | nil : IsBody []
  | plain {c : Char} {cs : List Char} (above : 0x20 ≤ c.toNat) (quote : c ≠ '"')
      (backslash : c ≠ '\\') (rest : IsBody cs) : IsBody (c :: cs)
  | escape {c : Char} {cs : List Char} (letter : c ∈ ['"', '\\', '/', 'b', 'f', 'n', 'r', 't'])
      (rest : IsBody cs) : IsBody ('\\' :: c :: cs)
  | code {a b c d : Char} {cs : List Char}
      (hex : ∀ x ∈ [a, b, c, d], (hexDigit x).isSome = true) (rest : IsBody cs) :
      IsBody ('\\' :: 'u' :: a :: b :: c :: d :: cs)

/-- What is derived: a value with space around it, the items of a list, or the members of an
object. -/
inductive Part where
  | text
  | items
  | members

/-- The grammar of RFC 8259. -/
inductive Derives : Part → List Char → Prop
  | word {cs : List Char} (known : cs ∈ ["null".toList, "true".toList, "false".toList]) :
      Derives .text cs
  | number (negative : Bool) (f : Figure) : Derives .text (signText negative ++ f.chars)
  | string {body : List Char} (h : IsBody body) : Derives .text ('"' :: (body ++ ['"']))
  | emptyList {gap : List Char} (h : IsGap gap) : Derives .text ('[' :: (gap ++ [']']))
  | list {cs : List Char} (h : Derives .items cs) : Derives .text ('[' :: (cs ++ [']']))
  | emptyDict {gap : List Char} (h : IsGap gap) : Derives .text ('\x7b' :: (gap ++ ['\x7d']))
  | dict {cs : List Char} (h : Derives .members cs) : Derives .text ('\x7b' :: (cs ++ ['\x7d']))
  | spaced {before cs behind : List Char} (space : IsGap before) (h : Derives .text cs)
      (space' : IsGap behind) : Derives .text (before ++ cs ++ behind)
  | item {cs : List Char} (h : Derives .text cs) : Derives .items cs
  | items {cs rest : List Char} (h : Derives .items cs) (h' : Derives .items rest) :
      Derives .items (cs ++ ',' :: rest)
  | member {before body behind cs : List Char} (space : IsGap before) (name : IsBody body)
      (space' : IsGap behind) (h : Derives .text cs) :
      Derives .members (before ++ '"' :: (body ++ ['"']) ++ behind ++ ':' :: cs)
  | members {cs rest : List Char} (h : Derives .members cs) (h' : Derives .members rest) :
      Derives .members (cs ++ ',' :: rest)

/-- A text of JSON, by RFC 8259. -/
def IsText (s : String) : Prop := Derives .text s.toList

/-! ## What is printed -/

/-- All doubles in a value are numbers. -/
inductive AllFinite : Json → Prop
  | null : AllFinite .null
  | bool (b : Bool) : AllFinite (.bool b)
  | int (i : Int) : AllFinite (.int i)
  | float {d : Double} (h : d.isFinite = true) : AllFinite (.float d)
  | str (s : String) : AllFinite (.str s)
  | list {items : List Json} (h : ∀ j ∈ items, AllFinite j) : AllFinite (.list items)
  | dict {members : List (String × Json)} (h : ∀ m ∈ members, AllFinite m.2) :
      AllFinite (.dict members)

@[simp] theorem allFinite_float {d : Double} : AllFinite (.float d) ↔ d.isFinite = true :=
  ⟨fun | .float h => h, .float⟩

@[simp] theorem allFinite_list {items : List Json} :
    AllFinite (.list items) ↔ ∀ j ∈ items, AllFinite j :=
  ⟨fun | .list h => h, .list⟩

@[simp] theorem allFinite_dict {members : List (String × Json)} :
    AllFinite (.dict members) ↔ ∀ m ∈ members, AllFinite m.2 :=
  ⟨fun | .dict h => h, .dict⟩

/-- How a character is written in a string. -/
inductive Written (c : Char) : List Char → Prop
  | plain (above : 0x20 ≤ c.toNat) (quote : c ≠ '"') (backslash : c ≠ '\\') : Written c [c]
  | escape (letter : Char) (stands : simpleEscape letter = some c) (other : letter ≠ 'u') :
      Written c ['\\', letter]
  | code {x y z w : Char} (hex : hexFour x y z w = some c.toNat) :
      Written c ['\\', 'u', x, y, z, w]

/-- The code of a control character has four hexadecimal digits. -/
theorem exists_hex_control : ∀ n < 0x20, ∃ x y : Char, Text.hex 4 n = ['0', '0', x, y] ∧
    hexFour '0' '0' x y = some n := by
  intro n hn
  have hshort : ∀ n < 0x20, Text.hex 4 n =
      ['0', '0', (n / 16).digitChar, (n % 16).digitChar] ∧
      hexFour '0' '0' (n / 16).digitChar (n % 16).digitChar = some n := by decide
  exact ⟨_, _, hshort n hn⟩

theorem written_escapeChar (c : Char) : Written c (escapeChar c) := by
  unfold escapeChar
  split_ifs with hquote hbackslash hline hreturn htab hback hfeed hcontrol
  · exact hquote ▸ .escape '"' rfl (by decide)
  · exact hbackslash ▸ .escape '\\' rfl (by decide)
  · exact hline ▸ .escape 'n' rfl (by decide)
  · exact hreturn ▸ .escape 'r' rfl (by decide)
  · exact htab ▸ .escape 't' rfl (by decide)
  · exact hback ▸ .escape 'b' rfl (by decide)
  · exact hfeed ▸ .escape 'f' rfl (by decide)
  · obtain ⟨x, y, hhex, hcode⟩ := exists_hex_control c.toNat hcontrol
    rw [hhex]
    exact .code hcode
  · exact .plain (Nat.le_of_not_lt hcontrol) hquote hbackslash

theorem hexFour_isSome {x y z w : Char} {n : Nat} (h : hexFour x y z w = some n) :
    ∀ c ∈ [x, y, z, w], (hexDigit c).isSome = true := by
  unfold hexFour at h
  simp only [Option.bind_eq_bind, Option.bind_eq_some_iff] at h
  obtain ⟨a, ha, b, hb, c, hc, d, hd, -⟩ := h
  simp [ha, hb, hc, hd]

theorem mem_of_simpleEscape {letter c : Char} (h : simpleEscape letter = some c) :
    letter ∈ ['"', '\\', '/', 'b', 'f', 'n', 'r', 't'] := by
  unfold simpleEscape at h
  grind

theorem isBody_escapeChar (c : Char) {cs : List Char} (rest : IsBody cs) :
    IsBody (escapeChar c ++ cs) := by
  have hwritten := written_escapeChar c
  generalize escapeChar c = written at hwritten ⊢
  cases hwritten with
  | plain above quote backslash => exact .plain above quote backslash rest
  | escape letter stands other => exact .escape (mem_of_simpleEscape stands) rest
  | code hex => exact .code (hexFour_isSome hex) rest

theorem isBody_flatMap (cs : List Char) : IsBody (cs.flatMap escapeChar) := by
  induction cs with
  | nil => exact .nil
  | cons c cs ih => exact isBody_escapeChar c ih

theorem derives_stringChars (s : String) : Derives .text (stringChars s) :=
  .string (isBody_flatMap s.toList)

theorem isGap_nil : IsGap [] := List.forall_mem_nil _

theorem isGap_blank : IsGap [' '] := List.forall_mem_singleton.mpr rfl

/-- Space may stand in front of a text. -/
theorem Derives.behindGap {gap cs : List Char} (space : IsGap gap) (h : Derives .text cs) :
    Derives .text (gap ++ cs) := by
  have hspaced := Derives.spaced space h isGap_nil
  rwa [List.append_nil] at hspaced

/-- Parts with a comma and a blank between them. -/
def joined : List (List Char) → List Char
  | [] => []
  | [cs] => cs
  | cs :: ds :: rest => cs ++ ',' :: ' ' :: joined (ds :: rest)

/-- The characters of a member. -/
def oneMember (m : String × Json) : List Char := stringChars m.1 ++ ':' :: ' ' :: chars m.2

theorem itemChars_cons_cons (j j' : Json) (items : List Json) :
    itemChars (j :: j' :: items) = chars j ++ ',' :: ' ' :: itemChars (j' :: items) := by
  rw [itemChars]
  exact List.cons_ne_nil _ _

theorem memberChars_cons_cons (m m' : String × Json) (members : List (String × Json)) :
    memberChars (m :: m' :: members) =
      oneMember m ++ ',' :: ' ' :: memberChars (m' :: members) := by
  rw [memberChars, oneMember, List.append_assoc]
  · rfl
  · exact List.cons_ne_nil _ _

theorem itemChars_eq (items : List Json) : itemChars items = joined (items.map chars) := by
  induction items with
  | nil => rfl
  | cons j items ih =>
    cases items with
    | nil => rfl
    | cons j' items =>
      rw [itemChars_cons_cons, ih]
      rfl

theorem memberChars_eq (members : List (String × Json)) :
    memberChars members = joined (members.map oneMember) := by
  induction members with
  | nil => rfl
  | cons m members ih =>
    cases members with
    | nil => rfl
    | cons m' members =>
      rw [memberChars_cons_cons, ih]
      rfl

/-- The blank behind a comma is space in front of the next part. -/
theorem derives_joined {part : Part} {parts : List (List Char)}
    (comma : ∀ {cs ds : List Char}, Derives part cs → Derives part ds →
      Derives part (cs ++ ',' :: ds))
    (h : ∀ cs ∈ parts, ∀ {gap : List Char}, IsGap gap → Derives part (gap ++ cs))
    (nonempty : parts ≠ []) {gap : List Char} (space : IsGap gap) :
    Derives part (gap ++ joined parts) := by
  induction parts generalizing gap with
  | nil => exact absurd rfl nonempty
  | cons cs parts ih =>
    obtain ⟨hcs, hparts⟩ := List.forall_mem_cons.mp h
    cases parts with
    | nil => exact hcs space
    | cons ds parts =>
      rw [joined, ← List.append_assoc]
      exact comma (hcs space) (ih hparts (List.cons_ne_nil _ _) isGap_blank)

theorem derives_oneMember {m : String × Json} (h : Derives .text (chars m.2)) {gap : List Char}
    (space : IsGap gap) : Derives .members (gap ++ oneMember m) := by
  have hmember := Derives.member space (isBody_flatMap m.1.toList) isGap_nil
    (h.behindGap isGap_blank)
  rw [List.append_nil, List.append_assoc] at hmember
  exact hmember

/-- A value without words for doubles is printed as a text. -/
theorem AllFinite.derives {j : Json} (h : AllFinite j) : Derives .text (chars j) := by
  induction h with
  | null => exact .word (by simp [chars])
  | bool b => cases b <;> exact .word (by simp [chars])
  | int i =>
    obtain ⟨f, hf, -⟩ := exists_figure_int i
    rw [hf]
    exact .number _ f
  | float finite =>
    obtain ⟨negative, f, hf, -⟩ := exists_figure_float finite
    rw [hf]
    exact .number negative f
  | str s => exact derives_stringChars s
  | @list items h ih =>
    by_cases hempty : items = []
    · subst hempty
      exact .emptyList isGap_nil
    · rw [chars, itemChars_eq]
      refine .list (derives_joined .items (List.forall_mem_map.mpr fun j hj gap space => ?_)
        (by simpa using hempty) isGap_nil)
      exact .item ((ih j hj).behindGap space)
  | @dict members h ih =>
    by_cases hempty : members = []
    · subst hempty
      exact .emptyDict isGap_nil
    · rw [chars, memberChars_eq]
      exact .dict (derives_joined .members
        (List.forall_mem_map.mpr fun m hm _ space => derives_oneMember (ih m hm) space)
        (by simpa using hempty) isGap_nil)

/-! ## One line -/

/-- The characters of numbers. -/
def numberChars : List Char := ['+', '-', '.', 'e', 'E']

theorem mem_figure {f : Figure} {c : Char} (h : c ∈ f.chars) :
    c.isDigit = true ∨ c ∈ numberChars := by
  rcases List.mem_append.mp h with h | h
  · rcases Double.Plain.mem_chars h with hdigit | rfl
    · exact .inl hdigit
    · exact .inr (by decide)
  · unfold Figure.powerChars at h
    cases hpower : f.power with
    | none =>
      rw [hpower] at h
      cases h
    | some p =>
      rw [hpower] at h
      rcases List.mem_cons.mp h with rfl | h
      · right
        rcases p.mark_e with hmark | hmark <;> rw [hmark] <;> decide
      · rcases List.mem_append.mp h with h | h
        · right
          rcases p.sign_one with hsign | hsign | hsign <;> rw [hsign] at h
          · cases h
          · rw [List.mem_singleton.mp h]
            decide
          · rw [List.mem_singleton.mp h]
            decide
        · exact .inl (p.digits_digit c h)

theorem mem_number {negative : Bool} {f : Figure} {c : Char}
    (h : c ∈ signText negative ++ f.chars) : c.isDigit = true ∨ c ∈ numberChars := by
  rcases List.mem_append.mp h with h | h
  · cases negative with
    | false => cases h
    | true =>
      rw [List.mem_singleton.mp h]
      exact .inr (by decide)
  · exact mem_figure h

/-- No control character. -/
def Above (c : Char) : Prop := 0x20 ≤ c.toNat

instance (c : Char) : Decidable (Above c) := inferInstanceAs (Decidable (_ ≤ _))

theorem above_of_le {c d : Char} (hd : Above d) (h : d ≤ c) : Above c := Nat.le_trans hd h

theorem above_of_isDigit {c : Char} (h : c.isDigit = true) : Above c := by
  have hzero : '0' ≤ c := by
    simp only [Char.isDigit, Bool.and_eq_true, decide_eq_true_eq] at h
    exact h.1
  exact above_of_le (by decide) hzero

theorem above_of_hexDigit {c : Char} (h : (hexDigit c).isSome = true) : Above c := by
  unfold hexDigit at h
  split_ifs at h with hdigit hlower hupper
  · exact above_of_le (by decide) hdigit.1
  · exact above_of_le (by decide) hlower.1
  · exact above_of_le (by decide) hupper.1
  · cases h

theorem above_of_mem_body {cs : List Char} (h : IsBody cs) : ∀ c ∈ cs, Above c := by
  have hletters : ∀ c ∈ ['"', '\\', '/', 'b', 'f', 'n', 'r', 't'], Above c :=
    List.all_iff_forall_prop.mp (by decide)
  induction h with
  | nil => exact List.forall_mem_nil _
  | plain above quote backslash rest ih => exact List.forall_mem_cons.mpr ⟨above, ih⟩
  | escape letter rest ih =>
    exact List.forall_mem_cons.mpr ⟨by decide, List.forall_mem_cons.mpr ⟨hletters _ letter, ih⟩⟩
  | code hex rest ih =>
    simp only [List.forall_mem_cons] at hex ⊢
    obtain ⟨ha, hb, hc, hd, -⟩ := hex
    exact ⟨by decide, by decide, above_of_hexDigit ha, above_of_hexDigit hb, above_of_hexDigit hc,
      above_of_hexDigit hd, ih⟩

theorem above_number {negative : Bool} {f : Figure} :
    ∀ c ∈ signText negative ++ f.chars, Above c := by
  have hother : ∀ c ∈ numberChars, Above c := List.all_iff_forall_prop.mp (by decide)
  intro c hc
  exact (mem_number hc).elim above_of_isDigit (hother c)

theorem above_stringChars (s : String) : ∀ c ∈ stringChars s, Above c := by
  refine List.forall_mem_cons.mpr ⟨by decide, fun c hc => ?_⟩
  rcases List.mem_append.mp hc with hc | hc
  · exact above_of_mem_body (isBody_flatMap s.toList) c hc
  · rw [List.mem_singleton.mp hc]
    decide

theorem above_float (d : Double) : ∀ c ∈ chars (.float d), Above c := by
  cases hfinite : d.isFinite with
  | true =>
    obtain ⟨negative, f, hf, -⟩ := exists_figure_float hfinite
    rw [hf]
    exact above_number
  | false =>
    rw [chars]
    unfold floatChars
    cases d with
    | nan => exact List.all_iff_forall_prop.mp (by decide)
    | infinite negative => cases negative <;> exact List.all_iff_forall_prop.mp (by decide)
    | finite => cases hfinite

theorem above_joined {parts : List (List Char)} (h : ∀ cs ∈ parts, ∀ c ∈ cs, Above c) :
    ∀ c ∈ joined parts, Above c := by
  induction parts with
  | nil => exact List.forall_mem_nil _
  | cons cs parts ih =>
    obtain ⟨hcs, hparts⟩ := List.forall_mem_cons.mp h
    cases parts with
    | nil => exact hcs
    | cons ds parts =>
      intro c hc
      rcases List.mem_append.mp hc with hc | hc
      · exact hcs c hc
      · rcases List.mem_cons.mp hc with rfl | hc
        · decide
        · rcases List.mem_cons.mp hc with rfl | hc
          · decide
          · exact ih hparts c hc

theorem above_bracketed {first last : Char} {cs : List Char} (hfirst : Above first)
    (h : ∀ c ∈ cs, Above c) (hlast : Above last) : ∀ c ∈ first :: (cs ++ [last]), Above c :=
  List.forall_mem_cons.mpr
    ⟨hfirst, List.forall_mem_append.mpr ⟨h, List.forall_mem_singleton.mpr hlast⟩⟩

/-- A value is printed on one line, without any control character. -/
theorem above_chars (j : Json) : ∀ c ∈ chars j, Above c := by
  induction j with
  | null => exact List.all_iff_forall_prop.mp (by decide)
  | bool b => cases b <;> exact List.all_iff_forall_prop.mp (by decide)
  | int i =>
    obtain ⟨f, hf, -⟩ := exists_figure_int i
    rw [hf]
    exact above_number
  | float d => exact above_float d
  | str s => exact above_stringChars s
  | list items ih =>
    rw [chars, itemChars_eq]
    exact above_bracketed (by decide) (above_joined (List.forall_mem_map.mpr ih)) (by decide)
  | dict members ih =>
    have hmember (m : String × Json) (hm : m ∈ members) : ∀ c ∈ oneMember m, Above c :=
      List.forall_mem_append.mpr ⟨above_stringChars m.1, List.forall_mem_cons.mpr ⟨by decide,
        List.forall_mem_cons.mpr ⟨by decide, ih m hm⟩⟩⟩
    rw [chars, memberChars_eq]
    exact above_bracketed (by decide) (above_joined (List.forall_mem_map.mpr hmember)) (by decide)

/-! ## Outside the strings -/

/-- The characters of a text that stand in no string, from within a string or from without. -/
def outside : Bool → List Char → List Char
  | _, [] => []
  | false, c :: cs => if c = '"' then outside true cs else c :: outside false cs
  | true, '\\' :: _ :: cs => outside true cs
  | true, c :: cs => if c = '"' then outside false cs else outside true cs

/-- A letter with which a word for a double begins stands outside the strings. -/
def HasWord (cs : List Char) : Prop := 'I' ∈ outside false cs ∨ 'N' ∈ outside false cs

/-- What comes first adds no word to what comes behind it. -/
def Silent (cs : List Char) : Prop := ∀ rest, HasWord (cs ++ rest) ↔ HasWord rest

theorem Silent.nil : Silent [] := fun _ => Iff.rfl

theorem Silent.append {cs ds : List Char} (h : Silent cs) (h' : Silent ds) : Silent (cs ++ ds) := by
  intro rest
  rw [List.append_assoc]
  exact (h _).trans (h' rest)

theorem Silent.cons {c : Char} {cs : List Char} (h : c ≠ '"' ∧ c ≠ 'I' ∧ c ≠ 'N')
    (h' : Silent cs) : Silent (c :: cs) := by
  intro rest
  refine Iff.trans ?_ (h' rest)
  obtain ⟨hquote, hI, hN⟩ := h
  simp [HasWord, outside, hquote, Ne.symm hI, Ne.symm hN]

theorem silent_of_forall {cs : List Char} (h : ∀ c ∈ cs, c ≠ '"' ∧ c ≠ 'I' ∧ c ≠ 'N') :
    Silent cs := by
  induction cs with
  | nil => exact .nil
  | cons c cs ih =>
    obtain ⟨hc, hcs⟩ := List.forall_mem_cons.mp h
    exact .cons hc (ih hcs)

theorem outside_plain {c : Char} (quote : c ≠ '"') (backslash : c ≠ '\\') (cs : List Char) :
    outside true (c :: cs) = outside true cs := by
  rw [outside, if_neg quote]
  rintro d ds rfl
  exact absurd rfl backslash

theorem outside_escape (c : Char) (cs : List Char) :
    outside true ('\\' :: c :: cs) = outside true cs := rfl

theorem outside_hex {c : Char} (h : (hexDigit c).isSome = true) (cs : List Char) :
    outside true (c :: cs) = outside true cs := by
  apply outside_plain
  · rintro rfl
    cases h
  · rintro rfl
    cases h

/-- A string ends at the first quote that is not escaped. -/
theorem IsBody.outside_eq {body : List Char} (h : IsBody body) (rest : List Char) :
    outside true (body ++ '"' :: rest) = outside false rest := by
  induction h with
  | nil => simp [outside]
  | plain above quote backslash tail ih => exact (outside_plain quote backslash _).trans ih
  | escape letter tail ih => exact ih
  | code hex tail ih =>
    simp only [List.forall_mem_cons] at hex
    obtain ⟨ha, hb, hc, hd, -⟩ := hex
    simp only [List.cons_append, outside_escape, outside_hex, ha, hb, hc, hd]
    exact ih

theorem silent_string {body : List Char} (h : IsBody body) : Silent ('"' :: (body ++ ['"'])) := by
  intro rest
  have hstring : outside false ('"' :: (body ++ ['"']) ++ rest) = outside false rest := by
    rw [List.cons_append, List.append_assoc, outside, if_pos rfl]
    exact h.outside_eq rest
  rw [HasWord, hstring, HasWord]

theorem IsGap.silent {gap : List Char} (h : IsGap gap) : Silent gap := by
  apply silent_of_forall
  intro c hc
  have hspace := h c hc
  refine ⟨?_, ?_, ?_⟩
  all_goals
    rintro rfl
    revert hspace
    decide

theorem silent_number (negative : Bool) (f : Figure) : Silent (signText negative ++ f.chars) := by
  have hother : ∀ c ∈ numberChars, c ≠ '"' ∧ c ≠ 'I' ∧ c ≠ 'N' :=
    List.all_iff_forall_prop.mp (by decide)
  apply silent_of_forall
  intro c hc
  rcases mem_number hc with hdigit | hc
  · exact ⟨Double.digit_ne hdigit (by decide), Double.digit_ne hdigit (by decide),
      Double.digit_ne hdigit (by decide)⟩
  · exact hother c hc

/-- Outside the strings no JSON text has a letter with which a word for a double begins. -/
theorem Derives.silent {part : Part} {cs : List Char} (h : Derives part cs) : Silent cs := by
  induction h with
  | word known =>
    apply silent_of_forall
    simp only [List.mem_cons, List.not_mem_nil, or_false] at known
    rcases known with rfl | rfl | rfl <;> exact List.all_iff_forall_prop.mp (by decide)
  | number negative f => exact silent_number negative f
  | string h => exact silent_string h
  | emptyList h => exact .cons (by decide) (h.silent.append (.cons (by decide) .nil))
  | list h ih => exact .cons (by decide) (ih.append (.cons (by decide) .nil))
  | emptyDict h => exact .cons (by decide) (h.silent.append (.cons (by decide) .nil))
  | dict h ih => exact .cons (by decide) (ih.append (.cons (by decide) .nil))
  | spaced space h space' ih => exact (space.silent.append ih).append space'.silent
  | item h ih => exact ih
  | items h h' ih ih' => exact ih.append (.cons (by decide) ih')
  | member space name space' h ih =>
    exact ((space.silent.append (silent_string name)).append space'.silent).append
      (.cons (by decide) ih)
  | members h h' ih ih' => exact ih.append (.cons (by decide) ih')

/-! ## Words for doubles -/

/-- What comes first has a word, whatever comes behind it. -/
def Loud (cs : List Char) : Prop := ∀ rest, HasWord (cs ++ rest)

theorem Loud.append {cs : List Char} (h : Loud cs) (ds : List Char) : Loud (cs ++ ds) := by
  intro rest
  rw [List.append_assoc]
  exact h _

theorem Silent.append_loud {cs ds : List Char} (h : Silent cs) (h' : Loud ds) :
    Loud (cs ++ ds) := by
  intro rest
  rw [List.append_assoc]
  exact (h _).mpr (h' rest)

theorem loud_float {d : Double} (h : d.isFinite = false) : Loud (chars (.float d)) := by
  intro rest
  rw [chars]
  unfold floatChars
  cases d with
  | nan => exact .inr List.mem_cons_self
  | infinite negative =>
    cases negative with
    | false => exact .inl List.mem_cons_self
    | true => exact .inl (List.mem_cons_of_mem _ List.mem_cons_self)
  | finite => cases h

/-- A word in one part is a word of the whole: what is in front of the first such part adds none. -/
theorem loud_joined {parts : List (List Char)} (h : ∀ cs ∈ parts, Silent cs ∨ Loud cs)
    (word : ∃ cs ∈ parts, Loud cs) : Loud (joined parts) := by
  induction parts with
  | nil =>
    obtain ⟨cs, hcs, -⟩ := word
    cases hcs
  | cons cs parts ih =>
    obtain ⟨hcs, hparts⟩ := List.forall_mem_cons.mp h
    have word : Loud cs ∨ ∃ ds ∈ parts, Loud ds := by simpa using word
    cases parts with
    | nil => exact word.resolve_right (by simp)
    | cons ds parts =>
      rw [joined]
      by_cases hloud : Loud cs
      · exact hloud.append _
      · have hfront : Silent (cs ++ [',', ' ']) :=
          (hcs.resolve_right hloud).append (.cons (by decide) (.cons (by decide) .nil))
        have hbehind := hfront.append_loud (ih hparts (word.resolve_left hloud))
        rwa [List.append_assoc] at hbehind

theorem silent_oneMember (m : String × Json) :
    ∃ front, Silent front ∧ oneMember m = front ++ chars m.2 := by
  refine ⟨stringChars m.1 ++ [':', ' '], ?_, ?_⟩
  · exact (derives_stringChars m.1).silent.append (.cons (by decide) (.cons (by decide) .nil))
  · rw [oneMember, List.append_assoc]
    rfl

/-- What is between brackets keeps its word. -/
theorem loud_bracketed {first last : Char} {cs : List Char}
    (plain : first ≠ '"' ∧ first ≠ 'I' ∧ first ≠ 'N') (h : Loud cs) :
    Loud (first :: (cs ++ [last])) :=
  (Silent.cons plain .nil).append_loud (h.append [last])

theorem loud_of_not_allFinite {j : Json} (h : ¬ AllFinite j) : Loud (chars j) := by
  induction j with
  | null => exact absurd .null h
  | bool b => exact absurd (.bool b) h
  | int i => exact absurd (.int i) h
  | str s => exact absurd (.str s) h
  | float d => exact loud_float (by simpa using h)
  | list items ih =>
    have hword : ∃ j ∈ items, ¬ AllFinite j := by simpa using h
    obtain ⟨j, hj, hnot⟩ := hword
    rw [chars, itemChars_eq]
    refine loud_bracketed (by decide) (loud_joined (List.forall_mem_map.mpr fun j hj => ?_)
      ⟨_, List.mem_map_of_mem hj, ih j hj hnot⟩)
    by_cases hfinite : AllFinite j
    · exact .inl hfinite.derives.silent
    · exact .inr (ih j hj hfinite)
  | dict members ih =>
    have hword : ∃ m ∈ members, ¬ AllFinite m.2 := by simpa using h
    obtain ⟨m, hm, hnot⟩ := hword
    have hmember (m : String × Json) (hm : m ∈ members) (hnot : ¬ AllFinite m.2) :
        Loud (oneMember m) := by
      obtain ⟨front, hfront, heq⟩ := silent_oneMember m
      rw [heq]
      exact hfront.append_loud (ih m hm hnot)
    rw [chars, memberChars_eq]
    refine loud_bracketed (by decide) (loud_joined (List.forall_mem_map.mpr fun m hm => ?_)
      ⟨_, List.mem_map_of_mem hm, hmember m hm hnot⟩)
    by_cases hfinite : AllFinite m.2
    · exact .inl (derives_oneMember hfinite.derives isGap_nil).silent
    · exact .inr (hmember m hm hfinite)

/-- What is printed is a text of JSON exactly if all doubles are numbers. -/
theorem isText_print_iff {j : Json} : IsText (print j) ↔ AllFinite j := by
  rw [IsText, print, String.toList_ofList]
  refine ⟨fun htext => ?_, AllFinite.derives⟩
  by_contra h
  have hword := (htext.silent []).mp (loud_of_not_allFinite h [])
  rcases hword with h | h <;> cases h

end Json

end TimedText
