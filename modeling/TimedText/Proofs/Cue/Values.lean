import TimedText.Proofs.Cue.Fields

/-!
# Cues as plain values

The type of cues holds sound cues alone, so a cue that is built is sound as soon as it is there.
Here the values of its fields are taken without a promise. `Values.ofFields` reads every field by
itself and then looks at nothing but whether the span ends before it starts. That is all that
`build` asks (`build_values`), and it is enough: values that come out of it are sound
(`Values.ofFields_sound`). A number that is none never reaches the comparison of the ends.
-/

namespace TimedText.Cue

open TimedText.Field (Issue)

namespace Values

/-- What raw fields are read as, each of them by itself. -/
def read (fields : Fields) : Except (List Issue) Values :=
  let text := fieldOr fields "text" "" Field.readText
  let start := fieldOr fields "start_time" .zero readTime
  let stop := fieldOr fields "end_time" .zero readTime
  let fontSize := fieldOr fields "font_size" defaultFontSize readFontSize
  let color := fieldOr fields "font_color" defaultColor readColor
  let position := fieldOr fields "position" .middle readPosition
  match text, start, stop, fontSize, color, position with
  | .ok text, .ok start, .ok stop, .ok fontSize, .ok color, .ok position =>
    .ok ⟨text, start, stop, fontSize, color, position.name⟩
  | _, _, _, _, _, _ =>
    .error (issueOf "text" text ++ issueOf "start_time" start ++ issueOf "end_time" stop
      ++ issueOf "font_size" fontSize ++ issueOf "font_color" color
      ++ issueOf "position" position)

/-- The values that raw fields describe, unless the span ends before it starts. -/
def ofFields (fields : Fields) : Except (List Issue) Values := do
  let v ← read fields
  if v.stop < v.start then throw [⟨none, .endsEarly v.start v.stop⟩] else return v

/-- What is expected of the values of a cue. -/
structure Sound (v : Values) : Prop where
  start_ne_nan : v.start ≠ .nan
  stop_ne_nan : v.stop ≠ .nan
  start_nonneg : Double.zero ≤ v.start
  start_le_stop : v.start ≤ v.stop
  fontSize_pos : 1 ≤ v.fontSize
  color : ∃ ds, v.color.toList = '#' :: ds ∧ ds.length = 6 ∧ ∀ d ∈ ds, isHexDigit d = true
  position : v.position ∈ ["top", "middle", "bottom"]

end Values

/-! ## What the readers promise -/

theorem readTime_nonneg {fields : Fields} {name : String} {x : Double}
    (h : fieldOr fields name .zero readTime = .ok x) : Double.zero ≤ x :=
  fieldOr_of_ok (P := (Double.zero ≤ ·)) (by decide +kernel)
    (fun _ _ hread => (readTime_eq_ok_iff.mp hread).2) h

/-- `build` asks of the values what is asked of them one by one, and that the span is not reversed;
what else the type of cues asks has been seen to by then. -/
theorem build_values (fields : Fields) : (build fields).map values = Values.ofFields fields := by
  unfold build Values.ofFields Values.read
  dsimp only
  generalize fieldOr fields "text" "" Field.readText = text
  generalize hstart : fieldOr fields "start_time" .zero readTime = start
  generalize hstop : fieldOr fields "end_time" .zero readTime = stop
  generalize hsize : fieldOr fields "font_size" defaultFontSize readFontSize = fontSize
  generalize hcolor : fieldOr fields "font_color" defaultColor readColor = color
  generalize fieldOr fields "position" .middle readPosition = position
  -- with a field that is not read, both give the list of issues
  cases text with | error _ => rfl | ok text =>
  cases start with | error _ => rfl | ok start =>
  cases stop with | error _ => rfl | ok stop =>
  cases fontSize with | error _ => rfl | ok fontSize =>
  cases color with | error _ => rfl | ok color =>
  cases position with | error _ => rfl | ok position =>
  have hnonneg := readTime_nonneg hstart
  have hpos : 0 < fontSize :=
    fieldOr_of_ok (P := (0 < ·)) (by decide) (fun _ _ hread => readFontSize_pos hread) hsize
  have hvalid : IsColor color :=
    fieldOr_of_ok (P := IsColor) (by decide +kernel) (fun _ _ hread => readColor_valid hread) hcolor
  show Except.map values (if h : _ then .ok _ else .error _) =
    if stop < start then .error _ else .ok _
  by_cases hreversed : stop < start
  · have hnot : ¬ start ≤ stop := (Quantity.lt_iff.mp hreversed).2
    rw [if_pos hreversed, dif_neg fun h => hnot h.2.1]
    rfl
  · have hordered := Double.le_of_not_lt (readTime_nonneg hstop) hnonneg hreversed
    rw [if_neg hreversed, dif_pos ⟨hnonneg, hordered, hpos, hvalid⟩]
    rfl

/-! ## Sound values -/

theorem color_digits {s : String} (h : IsColor s) :
    ∃ ds, s.toList = '#' :: ds ∧ ds.length = 6 ∧ ∀ d ∈ ds, isHexDigit d = true := by
  unfold IsColor at h
  split at h
  · next ds hs => exact ⟨ds, hs, h.1, List.all_eq_true.mp h.2⟩
  · exact h.elim

theorem ne_nan_of_nonneg {x : Double} (h : Double.zero ≤ x) : x ≠ .nan := by
  rintro rfl
  cases h

theorem values_sound (c : Cue) : c.values.Sound where
  start_ne_nan := ne_nan_of_nonneg c.start_nonneg
  stop_ne_nan := ne_nan_of_nonneg (Double.le_trans c.start_nonneg c.start_le_stop)
  start_nonneg := c.start_nonneg
  start_le_stop := c.start_le_stop
  fontSize_pos := Int.natCast_pos.mpr c.fontSize_pos
  color := color_digits c.color_valid
  position := by
    show c.position.name ∈ _
    cases c.position <;> decide

/-- Values that are read field by field and do not end before they start are sound. -/
theorem Values.ofFields_sound {fields : Fields} {v : Values} (h : ofFields fields = .ok v) :
    v.Sound := by
  rw [← build_values] at h
  obtain ⟨c, -, rfl⟩ := map_eq_ok h
  exact c.values_sound

/-! ## Cues that are built -/

/-- Cues that were built from raw fields, and changed any number of times. -/
inductive Built : Cue → Prop where
  | build {fields : Fields} {c : Cue} (h : build fields = .ok c) : Built c
  | replace {c c' : Cue} {changes : Fields} (built : Built c) (h : c.replace changes = .ok c') :
      Built c'

theorem Built.blank : Built .blank := .build (build_eq_ok_iff.mpr (readAs_fields .blank))

/-- Whether it is the first or has been changed, a cue came out of the readers. -/
theorem Built.sound {c : Cue} (h : Built c) : c.values.Sound := by
  have hread {fields : Fields} (hbuilt : Cue.build fields = .ok c) : c.values.Sound := by
    have hvalues : Values.ofFields fields = .ok c.values := by
      rw [← build_values, hbuilt]
      rfl
    exact Values.ofFields_sound hvalues
  cases h with
  | build h => exact hread h
  | replace _ h => exact hread h

end TimedText.Cue
