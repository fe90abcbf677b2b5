import TimedText.Cue.Build
import TimedText.Proofs.Double.Order
import TimedText.Proofs.Except

/-!
# Reading the fields of a cue

What comes out of the readers when they succeed, and which cue is built of it: `build_eq_ok_iff`. A
cue is built anew from its own fields, so that a change keeps every field that it does not name
(`lookup_fields_replace`), and changing fields to what they are changes nothing (`replace_own`).
-/

namespace TimedText.Cue

open TimedText.Field (Cause)

/-! ## Values of single fields -/

theorem atLeast_zero_eq_ok_iff {d x : Double} :
    Field.atLeast 0 d = .ok x ↔ d = x ∧ Double.zero ≤ x := by
  have hzero : Double.ofNat 0 = Double.zero := by decide +kernel
  unfold Field.atLeast
  rw [hzero]
  split
  · next hle =>
    constructor
    · intro h
      cases h
      exact ⟨rfl, hle⟩
    · rintro ⟨rfl, -⟩
      rfl
  · next hlow =>
    refine iff_of_false nofun ?_
    rintro ⟨rfl, hle⟩
    exact hlow hle

theorem readTime_eq_ok_iff {r : Raw} {x : Double} :
    readTime r = .ok x ↔ Field.readNumber r = .ok x ∧ Double.zero ≤ x := by
  unfold readTime
  rw [bind_eq_ok]
  simp only [atLeast_zero_eq_ok_iff]
  constructor
  · rintro ⟨d, hd, rfl, hle⟩
    exact ⟨hd, hle⟩
  · rintro ⟨hd, hle⟩
    exact ⟨x, hd, rfl, hle⟩

theorem readNumber_int_eq_ok_iff {i : Int} {x : Double} :
    Field.readNumber (.int i) = .ok x ↔ (Double.ofInt i).bounded? = some x := by
  show (Double.ofInt i).bounded?.elim (.error Cause.notNumber) .ok = Except.ok x ↔ _
  cases (Double.ofInt i).bounded? with
  | none => exact iff_of_false nofun nofun
  | some d => rw [Option.elim_some, Except.ok.injEq, Option.some.injEq]

theorem readTime_float {d : Double} (h : Double.zero ≤ d) : readTime (.float d) = .ok d :=
  readTime_eq_ok_iff.mpr ⟨rfl, h⟩

theorem readFontSize_pos {r : Raw} {n : Nat} (h : readFontSize r = .ok n) : 0 < n := by
  obtain ⟨i, -, hi⟩ := bind_eq_ok.mp h
  split at hi
  · next hpos =>
    cases hi
    exact Int.pos_iff_toNat_pos.mp hpos
  · cases hi

theorem readColor_valid {r : Raw} {s : String} (h : readColor r = .ok s) : IsColor s := by
  obtain ⟨t, -, ht⟩ := bind_eq_ok.mp h
  split at ht
  · next hcolor =>
    cases ht
    exact hcolor
  · cases ht

/-- Whatever holds of the default and of what is read holds of the value of a field. -/
theorem fieldOr_of_ok {α : Type} {P : α → Prop} {fields : Fields} {name : String} {fallback : α}
    {read : Raw → Except Cause α} {a : α} (hfallback : P fallback)
    (hread : ∀ r a, read r = .ok a → P a) (h : fieldOr fields name fallback read = .ok a) :
    P a := by
  unfold fieldOr at h
  split at h
  · cases h
    exact hfallback
  · exact hread _ _ h

/-- The value of a field that may be changed. -/
theorem fieldOr_replaced {α : Type} (c : Cue) (changes : Fields) (name : String) (fallback : α)
    (read : Raw → Except Cause α) :
    fieldOr (changes ++ c.fields) name fallback read =
      match changes.lookup name with
      | some r => read r
      | none => fieldOr c.fields name fallback read := by
  unfold fieldOr
  rw [List.lookup_append]
  cases changes.lookup name <;> rfl

theorem readFontSize_fontSize (c : Cue) : readFontSize (.int c.fontSize) = .ok c.fontSize := by
  have hpos : (0 : Int) < c.fontSize := Int.natCast_pos.mpr c.fontSize_pos
  show (if (0 : Int) < c.fontSize then Except.ok ((c.fontSize : Int).toNat) else _) = _
  rw [if_pos hpos, Int.toNat_natCast]

theorem readColor_color (c : Cue) : readColor (.text c.color) = .ok c.color := if_pos c.color_valid

theorem readPosition_name (p : Position) : readPosition (.text p.name) = .ok p := by
  cases p <;> rfl

/-! ## All fields -/

/-- The fields of a cue are read as what the cue says. -/
structure ReadAs (fields : Fields) (c : Cue) : Prop where
  text : fieldOr fields "text" "" Field.readText = .ok c.text
  start : fieldOr fields "start_time" .zero readTime = .ok c.start
  stop : fieldOr fields "end_time" .zero readTime = .ok c.stop
  fontSize : fieldOr fields "font_size" defaultFontSize readFontSize = .ok c.fontSize
  color : fieldOr fields "font_color" defaultColor readColor = .ok c.color
  position : fieldOr fields "position" .middle readPosition = .ok c.position

theorem build_eq_ok_iff {fields : Fields} {c : Cue} :
    build fields = .ok c ↔ ReadAs fields c := by
  constructor
  · intro h
    unfold build at h
    dsimp only at h
    split at h
    · next htext hstart hstop hsize hcolor hposition =>
      split at h
      · cases h
        exact ⟨htext, hstart, hstop, hsize, hcolor, hposition⟩
      · cases h
    · cases h
  · intro h
    unfold build
    simp only [h.text, h.start, h.stop, h.fontSize, h.color, h.position]
    exact dif_pos ⟨c.start_nonneg, c.start_le_stop, c.fontSize_pos, c.color_valid⟩

theorem readAs_fields (c : Cue) : ReadAs c.fields c where
  text := rfl
  start := readTime_float c.start_nonneg
  stop := readTime_float (Double.le_trans c.start_nonneg c.start_le_stop)
  fontSize := c.readFontSize_fontSize
  color := c.readColor_color
  position := readPosition_name c.position

/-- What is built depends on the values of the fields alone. -/
theorem build_congr {fields fields' : Fields}
    (h : ∀ name, fields.lookup name = fields'.lookup name) : build fields = build fields' := by
  simp only [build, fieldOr, h]

/-! ## Changes -/

theorem lookup_fields {c : Cue} {p : String × Raw} (h : p ∈ c.fields) :
    c.fields.lookup p.1 = some p.2 := by
  simp only [fields, List.mem_cons, List.not_mem_nil, or_false] at h
  rcases h with rfl | rfl | rfl | rfl | rfl | rfl
  all_goals rfl

/-- Changing fields to what they are changes nothing. -/
theorem replace_own {c : Cue} {changes : Fields} (h : ∀ p ∈ changes, p ∈ c.fields) :
    c.replace changes = .ok c := by
  have hsame : build (changes ++ c.fields) = build c.fields := by
    refine build_congr fun name => ?_
    rw [List.lookup_append]
    cases hname : changes.lookup name with
    | none => rfl
    | some r =>
      obtain ⟨before, after, hchanges, -⟩ := List.lookup_eq_some_iff.mp hname
      have hmem : (name, r) ∈ changes := by simp [hchanges]
      exact (lookup_fields (h _ hmem)).symm
  exact hsame.trans (build_eq_ok_iff.mpr c.readAs_fields)

/-- A change keeps every field that it does not name. -/
theorem lookup_fields_replace {c c' : Cue} {changes : Fields} (h : c.replace changes = .ok c')
    {name : String} (hname : name ∈ fieldNames) (unnamed : changes.lookup name = none) :
    c'.fields.lookup name = c.fields.lookup name := by
  have hread := build_eq_ok_iff.mp h
  have hkept {α : Type} {fallback value value' : α} {read : Raw → Except Cause α}
      (hnew : fieldOr (changes ++ c.fields) name fallback read = .ok value')
      (hold : fieldOr c.fields name fallback read = .ok value) : value' = value := by
    rw [fieldOr_replaced, unnamed] at hnew
    exact Except.ok.inj (hnew.symm.trans hold)
  simp only [fieldNames, List.mem_cons, List.not_mem_nil, or_false] at hname
  rcases hname with rfl | rfl | rfl | rfl | rfl | rfl
  · exact congrArg (some <| Raw.text ·) (hkept hread.text c.readAs_fields.text)
  · exact congrArg (some <| Raw.float ·) (hkept hread.start c.readAs_fields.start)
  · exact congrArg (some <| Raw.float ·) (hkept hread.stop c.readAs_fields.stop)
  · exact congrArg (fun n : Nat => some (Raw.int n)) (hkept hread.fontSize c.readAs_fields.fontSize)
  · exact congrArg (some <| Raw.text ·) (hkept hread.color c.readAs_fields.color)
  · exact congrArg (some <| Raw.text <| Position.name ·)
      (hkept hread.position c.readAs_fields.position)

end TimedText.Cue
