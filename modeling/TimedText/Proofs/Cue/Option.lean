import TimedText.CommandLine.Execution
import TimedText.Proofs.Cue.Fields
import TimedText.Proofs.Double.Typed

/-!
# Typed cues

A value is divided by its first two commas (`Divided`), and its first two parts are read as numbers.
`option_is_start_end_text` says which values are cues, which cue such a value is, how every other
value is refused (`Refused`), and that a cue that is printed part by part is read back.
-/

namespace TimedText.Cue

open TimedText.Double (Typed)
open TimedText.Field (Issue)
open TimedText.CommandLine (readCues)

variable {style : Style} {value : String} {first second text cs : List Char} {x y : Double}

/-! ## Division by commas -/

theorem splitAtComma_eq (cs : List Char) :
    splitAtComma cs =
      match cs.dropWhile (· ≠ ',') with
      | _ :: after => some (cs.takeWhile (· ≠ ','), after)
      | [] => none := by
  rw [splitAtComma, List.span_eq_takeWhile_dropWhile]
  cases cs.dropWhile (· ≠ ',') <;> rfl

theorem ne_comma (h : ',' ∉ cs) : ∀ c ∈ cs, decide (c ≠ ',') = true := fun _ hc =>
  decide_eq_true fun heq => h (heq ▸ hc)

theorem splitAtComma_append (h : ',' ∉ cs) (after : List Char) :
    splitAtComma (cs ++ ',' :: after) = some (cs, after) := by
  rw [splitAtComma_eq, List.dropWhile_append_of_pos (ne_comma h),
    List.takeWhile_append_of_pos (ne_comma h)]
  simp

theorem splitAtComma_of_not_mem (h : ',' ∉ cs) : splitAtComma cs = none := by
  have hrest : cs.dropWhile (· ≠ ',') = [] := List.dropWhile_eq_nil_iff.mpr (ne_comma h)
  rw [splitAtComma_eq, hrest]

/-- The parts of a value. Only its first two commas divide it. -/
structure Divided (value : String) (first second text : List Char) : Prop where
  eq : value.toList = first ++ ',' :: (second ++ ',' :: text)
  first : ',' ∉ first
  second : ',' ∉ second

/-- A value is divided, or it has less than two commas. -/
theorem divided_or_few (value : String) :
    (∃ first second text, Divided value first second text) ∨ value.toList.count ',' < 2 := by
  by_cases hfirst : ',' ∈ value.toList
  · obtain ⟨first, rest, heq, hfirst⟩ := List.eq_append_cons_of_mem hfirst
    by_cases hsecond : ',' ∈ rest
    · obtain ⟨second, text, rfl, hnone⟩ := List.eq_append_cons_of_mem hsecond
      exact .inl ⟨first, second, text, heq, hfirst, hnone⟩
    · right
      rw [heq, List.count_append, List.count_cons_self, List.count_eq_zero.mpr hfirst,
        List.count_eq_zero.mpr hsecond]
      decide
  · right
    rw [List.count_eq_zero.mpr hfirst]
    decide

/-! ## Reading the parts -/

/-- The fields of a typed cue. -/
def Style.fields (style : Style) (text : List Char) (x y : Double) : Fields :=
  [("text", .text (String.ofList text)), ("start_time", .float x), ("end_time", .float y),
    ("font_size", style.fontSize), ("font_color", style.color),
    ("position", .text style.position.name)]

theorem readTypedNumber_eq_some_iff : readTypedNumber cs = some x ↔ Typed cs x :=
  Double.read?_trimmed_eq_some_iff

theorem readTypedNumber_eq_none_iff : readTypedNumber cs = none ↔ ∀ x, ¬ Typed cs x := by
  simp only [Option.eq_none_iff_forall_ne_some, ne_eq, readTypedNumber_eq_some_iff]

/-- With less than two commas nothing is read. -/
theorem ofOption_of_few (style : Style) (h : value.toList.count ',' < 2) :
    ofOption style value = .error (.notThreeParts value) := by
  unfold ofOption
  by_cases hfirst : ',' ∈ value.toList
  · obtain ⟨first, rest, heq, hfirst⟩ := List.eq_append_cons_of_mem hfirst
    have hrest : ',' ∉ rest := by
      intro hmem
      have hcount : 0 < rest.count ',' := List.count_pos_iff.mpr hmem
      rw [heq, List.count_append, List.count_cons_self] at h
      omega
    rw [heq, splitAtComma_append hfirst]
    dsimp only
    rw [splitAtComma_of_not_mem hrest]
  · rw [splitAtComma_of_not_mem hfirst]

/-- The first part is read before the second, and the fields are looked at once both are read. -/
theorem ofOption_of_divided (style : Style) (h : Divided value first second text) :
    ofOption style value =
      match readTypedNumber first with
      | none => .error (.notATime (String.ofList first))
      | some x =>
        match readTypedNumber second with
        | none => .error (.notATime (String.ofList second))
        | some y => (build (style.fields text x y)).mapError .invalid := by
  unfold ofOption
  rw [h.eq, splitAtComma_append h.first]
  dsimp only
  rw [splitAtComma_append h.second]
  dsimp only
  cases readTypedNumber first with
  | none => rfl
  | some x =>
    cases readTypedNumber second with
    | none => rfl
    | some y =>
      dsimp only [Style.fields]
      split
      all_goals
        next hbuild =>
        rw [hbuild]
        rfl

theorem ofOption_of_typed (style : Style) (h : Divided value first second text)
    (hx : Typed first x) (hy : Typed second y) :
    ofOption style value = (build (style.fields text x y)).mapError .invalid := by
  rw [ofOption_of_divided style h, readTypedNumber_eq_some_iff.mpr hx]
  simp only [readTypedNumber_eq_some_iff.mpr hy]

/-! ## The cue of the parts -/

/-- What is wrong with a span: each end that is below zero, or is no number; or else that they are
reversed. -/
def spanIssues (x y : Double) : List Issue :=
  if Double.zero ≤ x ∧ Double.zero ≤ y then [⟨none, .endsEarly x y⟩]
  else (if Double.zero ≤ x then [] else [⟨some "start_time", .below 0⟩]) ++
    if Double.zero ≤ y then [] else [⟨some "end_time", .below 0⟩]

theorem readTime_below (h : ¬ Double.zero ≤ x) : readTime (.float x) = .error (.below 0) := by
  have hzero : Double.ofNat 0 = Double.zero := by decide +kernel
  have hread : Field.readNumber (.float x) = .ok x := rfl
  have hbelow : Field.atLeast 0 x = .error (.below 0) := by
    unfold Field.atLeast
    rw [hzero, if_neg h]
  simp only [readTime, hread, bind, Except.bind, hbelow]

theorem issueOf_readTime (name : String) (x : Double) :
    issueOf name (readTime (.float x)) =
      if Double.zero ≤ x then [] else [⟨some name, .below 0⟩] := by
  by_cases h : Double.zero ≤ x
  · rw [readTime_float h, if_pos h]
    rfl
  · rw [readTime_below h, if_neg h]
    rfl

section Look

variable {n : Nat} {color : String}

/-- The look of a cue is that of the command line. -/
structure Wears (style : Style) (c : Cue) : Prop where
  fontSize : readFontSize style.fontSize = .ok c.fontSize
  color : readColor style.color = .ok c.color
  position : c.position = style.position

/-- The fields of a typed cue are read as a cue. -/
theorem build_fields_eq_ok_iff {c : Cue} :
    build (style.fields text x y) = .ok c ↔
      c.text.toList = text ∧ c.start = x ∧ c.stop = y ∧ Wears style c := by
  rw [build_eq_ok_iff]
  constructor
  · rintro ⟨htext, hstart, hstop, hsize, hcolor, hposition⟩
    obtain ⟨hx, -⟩ := readTime_eq_ok_iff.mp hstart
    obtain ⟨hy, -⟩ := readTime_eq_ok_iff.mp hstop
    refine ⟨?_, (Except.ok.inj hx).symm, (Except.ok.inj hy).symm, hsize, hcolor, ?_⟩
    · rw [← Except.ok.inj htext, String.toList_ofList]
    · exact Except.ok.inj (hposition.symm.trans (readPosition_name _))
  · rintro ⟨rfl, rfl, rfl, hsize, hcolor, hposition⟩
    refine ⟨?_, readTime_float c.start_nonneg,
      readTime_float (Double.le_trans c.start_nonneg c.start_le_stop), hsize, hcolor, ?_⟩
    · exact congrArg Except.ok String.ofList_toList
    · rw [hposition]
      exact readPosition_name _

/-- A span that is in order makes a cue of every text. -/
theorem exists_build_fields (hsize : readFontSize style.fontSize = .ok n)
    (hcolor : readColor style.color = .ok color) (text : List Char) (hx : Double.zero ≤ x)
    (hxy : x ≤ y) : ∃ c, build (style.fields text x y) = .ok c :=
  ⟨⟨String.ofList text, x, y, n, color, style.position, hx, hxy, readFontSize_pos hsize,
    readColor_valid hcolor⟩,
    build_fields_eq_ok_iff.mpr ⟨String.toList_ofList, rfl, rfl, hsize, hcolor, rfl⟩⟩

/-- A span that is not in order does not, and nothing else is wrong. -/
theorem build_fields_of_not (hsize : readFontSize style.fontSize = .ok n)
    (hcolor : readColor style.color = .ok color) (h : ¬ (Double.zero ≤ x ∧ x ≤ y)) :
    build (style.fields text x y) = .error (spanIssues x y) := by
  let fields := style.fields text x y
  have htext : fieldOr fields "text" "" Field.readText = .ok (String.ofList text) := rfl
  have hstart : fieldOr fields "start_time" .zero readTime = readTime (.float x) := rfl
  have hstop : fieldOr fields "end_time" .zero readTime = readTime (.float y) := rfl
  have hsize : fieldOr fields "font_size" defaultFontSize readFontSize = .ok n := hsize
  have hcolor : fieldOr fields "font_color" defaultColor readColor = .ok color := hcolor
  have hposition : fieldOr fields "position" .middle readPosition = .ok style.position :=
    readPosition_name _
  unfold build
  simp only [fields] at htext hstart hstop hsize hcolor hposition
  simp only [htext, hstart, hstop, hsize, hcolor, hposition, issueOf_readTime]
  unfold spanIssues
  -- the order is looked at only where both ends are fine
  by_cases hx : Double.zero ≤ x
  · by_cases hy : Double.zero ≤ y
    · have hreversed : ¬ (Double.zero ≤ x ∧ x ≤ y ∧ 0 < n ∧ IsColor color) := fun hall =>
        h ⟨hall.1, hall.2.1⟩
      simp only [readTime_float hx, readTime_float hy]
      rw [dif_neg hreversed, if_pos ⟨hx, hy⟩]
    · simp only [readTime_float hx, readTime_below hy]
      have hnot : ¬ (Double.zero ≤ x ∧ Double.zero ≤ y) := fun hboth => hy hboth.2
      rw [if_neg hnot]
      simp [issueOf, hx, hy]
  · simp only [readTime_below hx]
    have hnot : ¬ (Double.zero ≤ x ∧ Double.zero ≤ y) := fun hboth => hx hboth.1
    rw [if_neg hnot]
    simp [issueOf, hx]

end Look

/-! ## Typed values -/

/-- How a value that is no cue is refused. -/
inductive Refused (value : String) : OptionError → Prop where
  | few (h : value.toList.count ',' < 2) : Refused value (.notThreeParts value)
  | first {first second text : List Char} (h : Divided value first second text)
      (hfirst : ∀ x, ¬ Typed first x) : Refused value (.notATime (String.ofList first))
  | second {first second text : List Char} {x : Double} (h : Divided value first second text)
      (hfirst : Typed first x) (hsecond : ∀ y, ¬ Typed second y) :
      Refused value (.notATime (String.ofList second))
  | span {first second text : List Char} {x y : Double} (h : Divided value first second text)
      (hfirst : Typed first x) (hsecond : Typed second y) (hspan : ¬ (Double.zero ≤ x ∧ x ≤ y)) :
      Refused value (.invalid (spanIssues x y))

/-- A value is refused before its fields are looked at, or both its times are read. -/
theorem ofOption_cases (style : Style) (value : String) :
    (∃ e, Refused value e ∧ ofOption style value = .error e) ∨
      ∃ first second text x y, Divided value first second text ∧ Typed first x ∧ Typed second y ∧
        ofOption style value = (build (style.fields text x y)).mapError .invalid := by
  rcases divided_or_few value with ⟨first, second, text, hdivided⟩ | hfew
  · have heq := ofOption_of_divided style hdivided
    cases hfirst : readTypedNumber first with
    | none =>
      rw [hfirst] at heq
      exact .inl ⟨_, .first hdivided (readTypedNumber_eq_none_iff.mp hfirst), heq⟩
    | some x =>
      have hx := readTypedNumber_eq_some_iff.mp hfirst
      cases hsecond : readTypedNumber second with
      | none =>
        simp only [hfirst, hsecond] at heq
        exact .inl ⟨_, .second hdivided hx (readTypedNumber_eq_none_iff.mp hsecond), heq⟩
      | some y =>
        simp only [hfirst, hsecond] at heq
        exact .inr ⟨first, second, text, x, y, hdivided, hx,
          readTypedNumber_eq_some_iff.mp hsecond, heq⟩
  · exact .inl ⟨_, .few hfew, ofOption_of_few style hfew⟩

/-- What a value that is accepted has in its parts. -/
theorem ofOption_eq_ok_iff {c : Cue} :
    ofOption style value = .ok c ↔
      (∃ first second, Divided value first second c.text.toList ∧ Typed first c.start ∧
        Typed second c.stop) ∧ Wears style c := by
  constructor
  · intro h
    rcases ofOption_cases style value with
      ⟨e, -, he⟩ | ⟨first, second, text, x, y, hdivided, hx, hy, heq⟩
    · cases h.symm.trans he
    · have hbuild := mapError_eq_ok.mp (heq.symm.trans h)
      obtain ⟨rfl, rfl, rfl, hlook⟩ := build_fields_eq_ok_iff.mp hbuild
      exact ⟨⟨first, second, hdivided, hx, hy⟩, hlook⟩
  · rintro ⟨⟨first, second, hdivided, hx, hy⟩, hlook⟩
    rw [ofOption_of_typed style hdivided hx hy]
    exact mapError_eq_ok.mpr (build_fields_eq_ok_iff.mpr ⟨rfl, rfl, rfl, hlook⟩)

theorem refused_of_error {n : Nat} {color : String}
    (hsize : readFontSize style.fontSize = .ok n) (hcolor : readColor style.color = .ok color)
    {e : OptionError} (h : ofOption style value = .error e) : Refused value e := by
  rcases ofOption_cases style value with
    ⟨e', hrefused, he⟩ | ⟨first, second, text, x, y, hdivided, hx, hy, heq⟩
  · obtain rfl := Except.error.inj (h.symm.trans he)
    exact hrefused
  · rw [h] at heq
    by_cases hspan : Double.zero ≤ x ∧ x ≤ y
    · obtain ⟨c, hc⟩ := exists_build_fields hsize hcolor text hspan.1 hspan.2
      rw [hc] at heq
      cases heq
    · rw [build_fields_of_not hsize hcolor hspan] at heq
      cases heq
      exact .span hdivided hx hy hspan

theorem Refused.ofOption_eq {n : Nat} {color : String}
    (hsize : readFontSize style.fontSize = .ok n) (hcolor : readColor style.color = .ok color)
    {e : OptionError} (h : Refused value e) : ofOption style value = .error e := by
  cases h with
  | few h => exact ofOption_of_few style h
  | first h hfirst =>
    rw [ofOption_of_divided style h, readTypedNumber_eq_none_iff.mpr hfirst]
  | second h hfirst hsecond =>
    rw [ofOption_of_divided style h, readTypedNumber_eq_some_iff.mpr hfirst]
    simp only [readTypedNumber_eq_none_iff.mpr hsecond]
  | span h hfirst hsecond hspan =>
    rw [ofOption_of_typed style h hfirst hsecond, build_fields_of_not hsize hcolor hspan]
    rfl

/-! ## Cues as they are typed -/

/-- A cue as it is typed. -/
def typed (c : Cue) : String := c.start.text ++ "," ++ c.stop.text ++ "," ++ c.text

/-- No comma stands in a printed double. -/
theorem comma_not_mem_text (x : Double) : ',' ∉ x.text.toList := by
  intro hmem
  have hall : ∀ c ∈ x.text.toList, c ≠ ',' := by
    refine x.writes_text.forall ?_ (Double.forall_mem_of_all (by decide))
      (Double.forall_mem_of_all (by decide))
    have hnone : Text.digitValue ',' = none := by decide +kernel
    rintro c d hc rfl
    cases hnone.symm.trans hc
  exact hall ',' hmem rfl

theorem divided_typed (c : Cue) :
    Divided c.typed c.start.text.toList c.stop.text.toList c.text.toList where
  eq := by
    have hcomma : ",".toList = [','] := rfl
    simp only [typed, String.toList_append, hcomma, List.append_assoc, List.cons_append,
      List.nil_append]
  first := comma_not_mem_text c.start
  second := comma_not_mem_text c.stop

theorem ofOption_typed {c : Cue} (h : Wears style c) : ofOption style c.typed = .ok c :=
  ofOption_eq_ok_iff.mpr
    ⟨⟨_, _, c.divided_typed, c.start.typed_text, c.stop.typed_text⟩, h⟩

/-- With a size and a colour that are read, a value is a cue exactly if two commas divide it, its
first two parts are typed numbers, and these begin at zero or later and are in order, as `nan` never
is. The cue has these numbers, what stands behind the second comma as its text, and the look of the
command line. Any other value is refused for the first thing that is wrong with it, and the command
line with it. A cue of that look that is typed is read back. -/
theorem option_is_start_end_text (style : Style) {n : Nat} {color : String}
    (hsize : readFontSize style.fontSize = .ok n) (hcolor : readColor style.color = .ok color) :
    (∀ value, (∃ c, ofOption style value = .ok c ∧ readCues [value] style = .ok [c]) ∨
      ∃ e, ofOption style value = .error e ∧ readCues [value] style = .error (.badCue e)) ∧
    (∀ value, (∃ c, ofOption style value = .ok c) ↔
      ∃ first second text x y, Divided value first second text ∧ Typed first x ∧ Typed second y ∧
        Double.zero ≤ x ∧ x ≤ y) ∧
    (∀ value c, ofOption style value = .ok c ↔
      (∃ first second, Divided value first second c.text.toList ∧ Typed first c.start ∧
        Typed second c.stop) ∧ c.fontSize = n ∧ c.color = color ∧ c.position = style.position) ∧
    (∀ value e, ofOption style value = .error e ↔ Refused value e) ∧
    ∀ c : Cue, c.fontSize = n → c.color = color → c.position = style.position →
      ofOption style c.typed = .ok c := by
  have hwears (c : Cue) :
      Wears style c ↔ c.fontSize = n ∧ c.color = color ∧ c.position = style.position := by
    constructor
    · rintro ⟨hfontSize, hcolor', hposition⟩
      exact ⟨Except.ok.inj (hfontSize.symm.trans hsize), Except.ok.inj (hcolor'.symm.trans hcolor),
        hposition⟩
    · rintro ⟨rfl, rfl, hposition⟩
      exact ⟨hsize, hcolor, hposition⟩
  refine ⟨fun value => ?_, fun value => ⟨?_, ?_⟩, fun value c => ?_, fun value e => ?_,
    fun c hn hc hposition => ofOption_typed ((hwears c).mpr ⟨hn, hc, hposition⟩)⟩
  · cases h : ofOption style value with
    | ok c => exact .inl ⟨c, rfl, by simp only [readCues, List.mapM_cons, List.mapM_nil, h]; rfl⟩
    | error e =>
      exact .inr ⟨e, rfl, by simp only [readCues, List.mapM_cons, List.mapM_nil, h]; rfl⟩
  · rintro ⟨c, hc⟩
    obtain ⟨⟨first, second, hdivided, hx, hy⟩, -⟩ := ofOption_eq_ok_iff.mp hc
    exact ⟨first, second, _, _, _, hdivided, hx, hy, c.start_nonneg, c.start_le_stop⟩
  · rintro ⟨first, second, text, x, y, hdivided, hx, hy, hzero, hxy⟩
    obtain ⟨c, hc⟩ := exists_build_fields hsize hcolor text hzero hxy
    exact ⟨c, (ofOption_of_typed style hdivided hx hy).trans (mapError_eq_ok.mpr hc)⟩
  · rw [ofOption_eq_ok_iff, hwears]
  · exact ⟨refused_of_error hsize hcolor, Refused.ofOption_eq hsize hcolor⟩

/-- A cue from minus zero to infinity, with a comma and quotes in its text. -/
def endless : Cue :=
  { blank with
    text := " a,\"b\""
    start := Double.zero.neg
    stop := .infinite false
    start_nonneg := by decide +kernel
    start_le_stop := by decide +kernel }

theorem endless_is_read_back :
    readFontSize ({} : Style).fontSize = .ok 24 ∧ readColor ({} : Style).color = .ok "#FFFFFF" ∧
      endless.typed = "-0.0,inf, a,\"b\"" ∧ ofOption {} endless.typed = .ok endless := by
  have hsize : readFontSize ({} : Style).fontSize = .ok 24 := rfl
  have hcolor : readColor ({} : Style).color = .ok "#FFFFFF" := by decide +kernel
  obtain ⟨-, -, -, -, hback⟩ := option_is_start_end_text {} hsize hcolor
  exact ⟨hsize, hcolor, by decide +kernel, hback endless rfl rfl rfl⟩

end TimedText.Cue
