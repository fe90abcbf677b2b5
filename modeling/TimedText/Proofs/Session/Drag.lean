import TimedText.Session
import TimedText.Proofs.Cue.Fields
import TimedText.Proofs.Double.Nearest

/-!
# Moving one end of the draft

An update of the draft that gives one end of its span is compared with the other end before it is
read. If it is a number past the other end, that end is given the same value; text is not compared.
-/

namespace TimedText

/-! ## Cues with another span -/

namespace Cue

open TimedText.Field (Cause)

/-- The cue at another time. -/
def withSpan (c : Cue) (start stop : Double) (nonneg : Double.zero ≤ start)
    (ordered : start ≤ stop) : Cue :=
  { c with start, stop, start_nonneg := nonneg, start_le_stop := ordered }

theorem stop_nonneg (c : Cue) : Double.zero ≤ c.stop :=
  Double.le_trans c.start_nonneg c.start_le_stop

/-- What a cue becomes where no more than the ends of its span are changed. -/
theorem replace_span {c : Cue} {changes : Fields} {start stop : Double}
    (others : ∀ name ∈ ["text", "font_size", "font_color", "position"], changes.lookup name = none)
    (hstart : fieldOr (changes ++ c.fields) "start_time" .zero readTime = .ok start)
    (hstop : fieldOr (changes ++ c.fields) "end_time" .zero readTime = .ok stop)
    (nonneg : Double.zero ≤ start) :
    c.replace changes =
      if ordered : start ≤ stop then .ok (c.withSpan start stop nonneg ordered)
      else .error [⟨none, .endsEarly start stop⟩] := by
  have hkept {α : Type} {name : String} {fallback value : α} {read : Raw → Except Cause α}
      (hname : name ∈ ["text", "font_size", "font_color", "position"])
      (hread : fieldOr c.fields name fallback read = .ok value) :
      fieldOr (changes ++ c.fields) name fallback read = .ok value := by
    rw [fieldOr_replaced, others name hname]
    exact hread
  have htext : fieldOr (changes ++ c.fields) "text" "" Field.readText = .ok c.text :=
    hkept (by decide) rfl
  have hsize : fieldOr (changes ++ c.fields) "font_size" defaultFontSize readFontSize =
      .ok c.fontSize := hkept (by decide) c.readFontSize_fontSize
  have hcolor : fieldOr (changes ++ c.fields) "font_color" defaultColor readColor = .ok c.color :=
    hkept (by decide) c.readColor_color
  have hposition : fieldOr (changes ++ c.fields) "position" .middle readPosition = .ok c.position :=
    hkept (by decide) (readPosition_name c.position)
  unfold replace build
  simp only [htext, hstart, hstop, hsize, hcolor, hposition]
  by_cases ordered : start ≤ stop
  · rw [dif_pos ⟨nonneg, ordered, c.fontSize_pos, c.color_valid⟩, dif_pos ordered]
    rfl
  · rw [dif_neg fun h => ordered h.2.1, dif_neg ordered]

end Cue

namespace Session

/-! ## The ends of a span -/

/-- The end of a span. -/
inductive Side where
  | start
  | stop
  deriving DecidableEq, Repr

/-- The later of two times, the first where neither is later. -/
def later (a b : Double) : Double := if a < b then b else a

/-- The earlier of two times, the first where neither is earlier. -/
def earlier (a b : Double) : Double := if b < a then b else a

namespace Side

/-- The end across. -/
def other : Side → Side
  | start => stop
  | stop => start

/-- The field that gives an end. -/
def field : Side → String
  | start => "start_time"
  | stop => "end_time"

/-- Where a cue has its end. -/
def of (c : Cue) : Side → Double
  | start => c.start
  | stop => c.stop

/-- The span of a cue with one end elsewhere and the other where it was. -/
def alone (c : Cue) (x : Double) : Side → Double × Double
  | start => (x, c.stop)
  | stop => (c.start, x)

/-- The span of a cue with one end elsewhere and the other dragged along. -/
def dragging (c : Cue) (x : Double) : Side → Double × Double
  | start => (x, later c.stop x)
  | stop => (earlier c.start x, x)

/-- Whether a number is past the end across. -/
def isPast (c : Cue) (n : Number) : Side → Bool
  | start => (Number.double c.stop).lt n
  | stop => n.lt (.double c.start)

end Side

section Dragged

variable {c : Cue} {v : Raw} {x : Double} {n : Number} {side : Side}

/-- Which fields are changed where one end is given. -/
theorem dragged_single (c : Cue) (v : Raw) (side : Side) :
    dragged c [(side.field, v)] =
      match numberOf? v with
      | some n =>
        if side.isPast c n then [(side.field, v), (side.other.field, v)] else [(side.field, v)]
      | none => [(side.field, v)] := by
  cases side <;> cases v <;> rfl

theorem readNumber_of_number (h : numberOf? v = some n) (hread : Field.readNumber v = .ok x) :
    n.toDouble = x := by
  cases v with
  | bool b =>
    obtain rfl : .whole b.toNat = n := Option.some.inj h
    obtain rfl : Double.ofNat b.toNat = x := Except.ok.inj hread
    cases b <;> decide +kernel
  | int i =>
    obtain rfl : .whole i = n := Option.some.inj h
    exact (Double.bounded?_eq_some_iff.mp (Cue.readNumber_int_eq_ok_iff.mp hread)).1
  | float d =>
    obtain rfl : .double d = n := Option.some.inj h
    exact Except.ok.inj hread
  | null => cases h
  | text s => cases h
  | other => cases h

/-! ## Where the ends come to lie -/

theorem later_of_le {a b : Double} (h : b ≤ a) : later a b = a :=
  if_neg fun hlt => (Quantity.lt_iff.mp hlt).2 h

theorem earlier_of_le {a b : Double} (h : a ≤ b) : earlier a b = a :=
  if_neg fun hlt => (Quantity.lt_iff.mp hlt).2 h

/-- An end that does not cross is where it was put, and nothing is dragged. -/
theorem Side.dragging_of_ordered (h : (side.alone c x).1 ≤ (side.alone c x).2) :
    side.dragging c x = side.alone c x := by
  cases side with
  | start => exact congrArg (Prod.mk x) (later_of_le h)
  | stop => exact congrArg (Prod.mk · x) (earlier_of_le h)

/-- A number past the end across drags it to its own double. -/
theorem Side.dragging_of_past (hx : n.toDouble = x) (nonneg : Double.zero ≤ x)
    (h : side.isPast c n = true) : side.dragging c x = (x, x) := by
  subst hx
  cases side with
  | start =>
    refine congrArg (Prod.mk n.toDouble) ?_
    unfold later
    split
    · rfl
    · next hnot =>
      have hle := Double.le_of_not_lt c.stop_nonneg nonneg hnot
      exact (Number.eq_toDouble_of_lt c.stop_nonneg h hle).symm
  | stop =>
    refine congrArg (Prod.mk · n.toDouble) ?_
    unfold earlier
    split
    · rfl
    · next hnot =>
      have hle := Double.le_of_not_lt nonneg c.start_nonneg hnot
      exact (Number.eq_toDouble_of_gt nonneg h hle).symm

/-- A number that is not past the end across is not past it once it is rounded. -/
theorem Side.ordered_of_not_past (hx : n.toDouble = x) (nonneg : Double.zero ≤ x)
    (h : ¬ side.isPast c n = true) : (side.alone c x).1 ≤ (side.alone c x).2 := by
  subst hx
  have hn : n.quantity ≠ .nan := (Quantity.le_iff.mp (Number.nonneg_of_toDouble nonneg)).2.1
  cases side with
  | start =>
    have hstop : c.stop.quantity ≠ .nan := (Quantity.le_iff.mp c.stop_nonneg).2.1
    exact Number.toDouble_mono (b := .double c.stop) (Quantity.le_of_not_lt hstop hn h)
  | stop =>
    have hstart : c.start.quantity ≠ .nan := (Quantity.le_iff.mp c.start_nonneg).2.1
    exact Number.toDouble_mono (a := .double c.start) (Quantity.le_of_not_lt hn hstart h)

/-! ## The draft with one end elsewhere -/

theorem replace_both (c : Cue) (side : Side) (h : Cue.readTime v = .ok x) :
    ∃ nonneg ordered, c.replace [(side.field, v), (side.other.field, v)] =
      .ok (c.withSpan x x nonneg ordered) := by
  have nonneg := (Cue.readTime_eq_ok_iff.mp h).2
  have ordered := Double.le_self_right nonneg
  have hspan : c.replace [(side.field, v), (side.other.field, v)] =
      if ordered : x ≤ x then .ok (c.withSpan x x nonneg ordered)
      else .error [⟨none, .endsEarly x x⟩] := by
    refine Cue.replace_span ?_ ?_ ?_ nonneg
    · cases side <;> simp [Side.field, Side.other, List.lookup_cons]
    · cases side <;> exact h
    · cases side <;> exact h
  exact ⟨nonneg, ordered, hspan.trans (dif_pos ordered)⟩

theorem replace_alone (c : Cue) (side : Side) (h : Cue.readTime v = .ok x) :
    ∃ nonneg, c.replace [(side.field, v)] =
      if ordered : (side.alone c x).1 ≤ (side.alone c x).2 then
        .ok (c.withSpan (side.alone c x).1 (side.alone c x).2 nonneg ordered)
      else .error [⟨none, .endsEarly (side.alone c x).1 (side.alone c x).2⟩] := by
  have nonneg : Double.zero ≤ (side.alone c x).1 := by
    cases side with
    | start => exact (Cue.readTime_eq_ok_iff.mp h).2
    | stop => exact c.start_nonneg
  refine ⟨nonneg, Cue.replace_span ?_ ?_ ?_ nonneg⟩
  · cases side <;> simp [Side.field, List.lookup_cons]
  · cases side with
    | start => exact h
    | stop => exact Cue.readTime_float c.start_nonneg
  · cases side with
    | start => exact Cue.readTime_float c.stop_nonneg
    | stop => exact h

end Dragged

/-! ## Updates of one end -/

section Update

variable {s : Session} {v : Raw} {x : Double} {n : Number} {side : Side}

/-- One session is the other with its draft at another span, and nothing else differs. -/
def Moved (s : Session) (span : Double × Double) (s' : Session) : Prop :=
  ∃ nonneg ordered, s' =
    { s with
      timeline := s.timeline.setDraft (s.timeline.draft.withSpan span.1 span.2 nonneg ordered) }

theorem Moved.start {a b : Double} {s' : Session} (h : s.Moved (a, b) s') :
    s'.timeline.draft.start = a := by
  obtain ⟨nonneg, ordered, rfl⟩ := h
  rfl

theorem Moved.stop {a b : Double} {s' : Session} (h : s.Moved (a, b) s') :
    s'.timeline.draft.stop = b := by
  obtain ⟨nonneg, ordered, rfl⟩ := h
  rfl

theorem updateDraft_of_replace {fields changes : Fields} {draft : Cue}
    (hchanges : dragged s.timeline.draft fields = changes)
    (hreplaced : s.timeline.draft.replace changes = .ok draft) :
    s.updateDraft fields = .ok (draft, { s with timeline := s.timeline.setDraft draft }) := by
  unfold updateDraft
  rw [hchanges, hreplaced]

theorem exists_moved {fields changes : Fields} {span : Double × Double}
    (hchanges : dragged s.timeline.draft fields = changes)
    (hreplaced : ∃ nonneg ordered, s.timeline.draft.replace changes =
      .ok (s.timeline.draft.withSpan span.1 span.2 nonneg ordered)) :
    ∃ s', s.updateDraft fields = .ok (s'.timeline.draft, s') ∧ s.Moved span s' := by
  obtain ⟨nonneg, ordered, hreplaced⟩ := hreplaced
  exact ⟨_, updateDraft_of_replace hchanges hreplaced, nonneg, ordered, rfl⟩

/-- An end that does not cross the other one needs nothing to be dragged. -/
theorem exists_moved_of_ordered (h : Cue.readTime v = .ok x)
    (hchanges : dragged s.timeline.draft [(side.field, v)] = [(side.field, v)])
    (ordered : (side.alone s.timeline.draft x).1 ≤ (side.alone s.timeline.draft x).2) :
    ∃ s', s.updateDraft [(side.field, v)] = .ok (s'.timeline.draft, s') ∧
      s.Moved (side.dragging s.timeline.draft x) s' := by
  rw [Side.dragging_of_ordered ordered]
  obtain ⟨nonneg, hreplaced⟩ := replace_alone s.timeline.draft side h
  exact exists_moved hchanges ⟨nonneg, ordered, hreplaced.trans (dif_pos ordered)⟩

/-- A number is put where it is given, and drags the end across if it is past it. -/
theorem exists_moved_of_number (s : Session) (side : Side) (hv : numberOf? v = some n)
    (h : Cue.readTime v = .ok x) :
    ∃ s', s.updateDraft [(side.field, v)] = .ok (s'.timeline.draft, s') ∧
      s.Moved (side.dragging s.timeline.draft x) s' := by
  obtain ⟨hread, nonneg⟩ := Cue.readTime_eq_ok_iff.mp h
  have hx : n.toDouble = x := readNumber_of_number hv hread
  have hchanges := dragged_single s.timeline.draft v side
  rw [hv] at hchanges
  by_cases hpast : side.isPast s.timeline.draft n = true
  · rw [Side.dragging_of_past hx nonneg hpast]
    exact exists_moved (hchanges.trans (if_pos hpast)) (replace_both s.timeline.draft side h)
  · exact exists_moved_of_ordered h (hchanges.trans (if_neg hpast))
      (Side.ordered_of_not_past hx nonneg hpast)

/-- What is no number is refused where it crosses the end across. -/
theorem updateDraft_of_crossed (s : Session) (side : Side) (hv : numberOf? v = none)
    (h : Cue.readTime v = .ok x)
    (crossed : ¬ (side.alone s.timeline.draft x).1 ≤ (side.alone s.timeline.draft x).2) :
    s.updateDraft [(side.field, v)] = .error (.invalidCue [⟨none,
      .endsEarly (side.alone s.timeline.draft x).1 (side.alone s.timeline.draft x).2⟩]) := by
  have hchanges := dragged_single s.timeline.draft v side
  rw [hv] at hchanges
  obtain ⟨nonneg, hreplaced⟩ := replace_alone s.timeline.draft side h
  unfold updateDraft
  rw [hchanges, hreplaced, dif_neg crossed]

/-- What an update of one end comes to, for every value that a cue takes as a time. A number moves
the end there and drags the other along if it is past it; so does text as long as it does not cross
the other end. Text that crosses it is refused, since it is not looked at as a number before the cue
is built. Nothing else of the session changes. -/
theorem update_of_one_end (s : Session) (side : Side) (h : Cue.readTime v = .ok x) :
    if (numberOf? v).isSome = true ∨
        (side.alone s.timeline.draft x).1 ≤ (side.alone s.timeline.draft x).2 then
      ∃ s', s.updateDraft [(side.field, v)] = .ok (s'.timeline.draft, s') ∧
        s.Moved (side.dragging s.timeline.draft x) s'
    else
      s.updateDraft [(side.field, v)] = .error (.invalidCue [⟨none,
        .endsEarly (side.alone s.timeline.draft x).1 (side.alone s.timeline.draft x).2⟩]) := by
  cases hv : numberOf? v with
  | some n =>
    rw [if_pos (.inl rfl)]
    exact exists_moved_of_number s side hv h
  | none =>
    simp only [Option.isSome_none, Bool.false_eq_true, false_or]
    split
    · next ordered =>
      have hchanges := dragged_single s.timeline.draft v side
      rw [hv] at hchanges
      exact exists_moved_of_ordered h hchanges ordered
    · next crossed => exact updateDraft_of_crossed s side hv h crossed

/-- A session with nothing in it. -/
def untouched : Session where
  clock := { time := .zero, offset := .zero }

/-- The number 5 as the start of the blank draft takes its end along. -/
theorem number_drags_end_of_blank_draft :
    Cue.readTime (.int 5) = .ok (.ofNat 5) ∧
      ∃ s', untouched.updateDraft [("start_time", .int 5)] = .ok (s'.timeline.draft, s') ∧
        s'.timeline.draft.start = .ofNat 5 ∧ s'.timeline.draft.stop = .ofNat 5 := by
  have hread : Cue.readTime (.int 5) = .ok (.ofNat 5) := by decide +kernel
  have hspan : Side.start.dragging untouched.timeline.draft (.ofNat 5) = (.ofNat 5, .ofNat 5) := by
    decide +kernel
  have hupdate := update_of_one_end untouched .start hread
  rw [if_pos (.inl rfl), hspan] at hupdate
  obtain ⟨s', hupdate, hmoved⟩ := hupdate
  exact ⟨hread, s', hupdate, hmoved.start, hmoved.stop⟩

/-- The text 5 is read as the same time, and is refused there. -/
theorem numeric_text_is_refused_past_end :
    Cue.readTime (.text "5") = .ok (.ofNat 5) ∧
      untouched.updateDraft [("start_time", .text "5")] =
        .error (.invalidCue [⟨none, .endsEarly (.ofNat 5) .zero⟩]) := by
  have hread : Cue.readTime (.text "5") = .ok (.ofNat 5) := by decide +kernel
  have hspan : Side.start.alone untouched.timeline.draft (.ofNat 5) = (.ofNat 5, .zero) := by
    decide +kernel
  have hcrossed : ¬ Double.ofNat 5 ≤ .zero := by decide +kernel
  have hupdate := updateDraft_of_crossed untouched .start rfl hread
  rw [hspan] at hupdate
  dsimp only at hupdate
  exact ⟨hread, hupdate hcrossed⟩

end Update

end Session

end TimedText
