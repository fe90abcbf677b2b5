import TimedText.Proofs.Session.Drag
import Mathlib.Data.List.Induction

/-!
# Times one after another

Ends of the draft may be given as numbers in any order. No such update is refused, since a number
drags the end across along (`exists_moved_of_number`), and once both ends of a span were given it
does not show which of them came first.
-/

namespace TimedText.Session

theorem readNumber_of_fits {v : Raw} {n : Number} (hv : numberOf? v = some n)
    (fits : n.toDouble.isFinite = true) : Field.readNumber v = .ok n.toDouble := by
  cases v with
  | bool b =>
    obtain rfl : .whole b.toNat = n := Option.some.inj hv
    cases b <;> decide +kernel
  | int i =>
    obtain rfl : .whole i = n := Option.some.inj hv
    refine Cue.readNumber_int_eq_ok_iff.mpr (Double.bounded?_eq_some_iff.mpr ⟨rfl, ?_⟩)
    intro s hs
    rw [hs] at fits
    cases fits
  | float d =>
    obtain rfl : .double d = n := Option.some.inj hv
    rfl
  | null => cases hv
  | text s => cases hv
  | other => cases hv

/-- A value that is a number at zero or later, and no larger than a double can be. -/
structure TypedTime where
  value : Raw
  number : Number
  isNumber : numberOf? value = some number
  nonneg : Double.zero.quantity.le number.quantity = true
  fits : number.toDouble.isFinite = true

namespace TypedTime

/-- The double that the number is rounded to. -/
def time (t : TypedTime) : Double := t.number.toDouble

theorem time_nonneg (t : TypedTime) : Double.zero ≤ t.time :=
  Number.toDouble_mono (a := .double .zero) t.nonneg

theorem readTime_value (t : TypedTime) : Cue.readTime t.value = .ok t.time :=
  Cue.readTime_eq_ok_iff.mpr ⟨readNumber_of_fits t.isNumber t.fits, t.time_nonneg⟩

end TypedTime

/-- Gives one end of the draft. -/
def typeEnd (s : Session) (m : Side × TypedTime) : Except Error Session :=
  (s.updateDraft [(m.1.field, m.2.value)]).map (·.2)

section Moved

variable {s s' s'' : Session} {span span' : Double × Double}

theorem Moved.self (s : Session) : s.Moved (s.timeline.draft.start, s.timeline.draft.stop) s :=
  ⟨s.timeline.draft.start_nonneg, s.timeline.draft.start_le_stop, rfl⟩

theorem Moved.trans (h : s.Moved span s') (h' : s'.Moved span' s'') : s.Moved span' s'' := by
  obtain ⟨_, _, rfl⟩ := h
  obtain ⟨nonneg, ordered, rfl⟩ := h'
  exact ⟨nonneg, ordered, rfl⟩

/-- There is one way to move the draft to a span. -/
theorem Moved.unique (h : s.Moved span s') (h' : s.Moved span s'') : s' = s'' := by
  obtain ⟨_, _, rfl⟩ := h
  obtain ⟨_, _, rfl⟩ := h'
  rfl

/-- The end that is moved is where it was put. -/
theorem Moved.of {c : Cue} {x : Double} {side : Side} (h : s.Moved (side.dragging c x) s') :
    side.of s'.timeline.draft = x := by
  cases side with
  | start => exact h.start
  | stop => exact h.stop

end Moved

/-- One update: nothing is refused, and the end is where it was put. -/
theorem typeEnd_moves (s : Session) (m : Side × TypedTime) :
    ∃ s', s.typeEnd m = .ok s' ∧ s.Moved (m.1.dragging s.timeline.draft m.2.time) s' := by
  obtain ⟨s', hupdate, hmoved⟩ := exists_moved_of_number s m.1 m.2.isNumber m.2.readTime_value
  refine ⟨s', ?_, hmoved⟩
  rw [typeEnd, hupdate]
  rfl

/-- Any number of updates: none is refused, and the last end is where it was put. -/
theorem typeEnds_move (s : Session) (ms : List (Side × TypedTime)) :
    ∃ s', ms.foldlM typeEnd s = .ok s' ∧ (∃ span, s.Moved span s') ∧
      ∀ m ∈ ms.getLast?, m.1.of s'.timeline.draft = m.2.time := by
  induction ms using List.reverseRecOn with
  | nil => exact ⟨s, rfl, ⟨_, Moved.self s⟩, fun _ hlast => nomatch hlast⟩
  | append_singleton ms m ih =>
    obtain ⟨before, hbefore, ⟨span, hspan⟩, -⟩ := ih
    obtain ⟨after, hafter, hmoved⟩ := before.typeEnd_moves m
    refine ⟨after, ?_, ⟨_, hspan.trans hmoved⟩, ?_⟩
    · rw [List.foldlM_append, hbefore]
      show (before.typeEnd m >>= pure) = _
      rw [hafter]
      rfl
    · intro last hlast
      obtain rfl : m = last := by simpa using hlast
      exact hmoved.of

/-- Two updates, one behind the other. -/
theorem typeEnd_twice (s : Session) (m m' : Side × TypedTime) :
    ∃ before s', [m, m'].foldlM typeEnd s = .ok s' ∧
      s.Moved (m.1.dragging s.timeline.draft m.2.time) before ∧
      before.Moved (m'.1.dragging before.timeline.draft m'.2.time) s' := by
  obtain ⟨before, hbefore, hmoved⟩ := s.typeEnd_moves m
  obtain ⟨s', hafter, hmoved'⟩ := before.typeEnd_moves m'
  refine ⟨before, s', ?_, hmoved, hmoved'⟩
  show (s.typeEnd m >>= fun t => t.typeEnd m' >>= pure) = _
  rw [hbefore]
  show (before.typeEnd m' >>= pure) = _
  rw [hafter]
  rfl

/-- The one of two that belongs to an end. -/
def Side.pick {α : Type} (a b : α) : Side → α
  | .start => a
  | .stop => b

/-- Both ends of a span, either of them first. -/
theorem both_ends_move (s : Session) (first : Side) {a b : TypedTime} (h : a.time ≤ b.time) :
    ∃ s', [(first, first.pick a b), (first.other, first.other.pick a b)].foldlM typeEnd s = .ok s' ∧
      s.Moved (a.time, b.time) s' := by
  obtain ⟨before, s', hrun, hmoved, hmoved'⟩ :=
    s.typeEnd_twice (first, first.pick a b) (first.other, first.other.pick a b)
  -- the end that was given first is in order with the other one, and is not dragged
  have hfirst : first.of before.timeline.draft = (first.pick a b).time := hmoved.of
  have hspan : first.other.dragging before.timeline.draft (first.other.pick a b).time =
      (a.time, b.time) := by
    cases first with
    | start =>
      have hstart : before.timeline.draft.start = a.time := hfirst
      show (earlier before.timeline.draft.start b.time, b.time) = _
      rw [hstart, earlier_of_le h]
    | stop =>
      have hstop : before.timeline.draft.stop = b.time := hfirst
      show (a.time, later before.timeline.draft.stop a.time) = _
      rw [hstop, later_of_le h]
  rw [hspan] at hmoved'
  exact ⟨s', hrun, hmoved.trans hmoved'⟩

/-- Numbers may be given as ends of the draft in any order. No update is refused; behind each of
them the draft has a span that begins at zero or later and is not reversed, the end given last is at
the double of what was given, and nothing else has changed. Both ends of a span may be given in
either order, and leave the draft at it. -/
theorem ends_in_any_order (s : Session) :
    (∀ ms : List (Side × TypedTime), ∃ s', ms.foldlM typeEnd s = .ok s' ∧
      (∃ span, s.Moved span s') ∧
      Double.zero ≤ s'.timeline.draft.start ∧
      s'.timeline.draft.start ≤ s'.timeline.draft.stop ∧
      ∀ m ∈ ms.getLast?, m.1.of s'.timeline.draft = m.2.time) ∧
    ∀ a b : TypedTime, a.number.quantity.le b.number.quantity = true →
      ∃ s', [(Side.start, a), (Side.stop, b)].foldlM typeEnd s = .ok s' ∧
        [(Side.stop, b), (Side.start, a)].foldlM typeEnd s = .ok s' ∧
        s.Moved (a.time, b.time) s' := by
  constructor
  · intro ms
    obtain ⟨s', hrun, hmoved, hlast⟩ := s.typeEnds_move ms
    exact ⟨s', hrun, hmoved, s'.timeline.draft.start_nonneg, s'.timeline.draft.start_le_stop, hlast⟩
  · intro a b h
    have hle : a.time ≤ b.time := Number.toDouble_mono h
    obtain ⟨s', hrun, hmoved⟩ := s.both_ends_move .start hle
    obtain ⟨s'', hrun', hmoved'⟩ := s.both_ends_move .stop hle
    obtain rfl := hmoved.unique hmoved'
    exact ⟨s', hrun, hrun', hmoved⟩

/-- A whole number that lies half way between two doubles. -/
def halfWay : TypedTime where
  value := .int 9007199254740993
  number := .whole 9007199254740993
  isNumber := rfl
  nonneg := by decide +kernel
  fits := by decide +kernel

/-- The double just below it. -/
def justBelow : TypedTime where
  value := .float (.ofNat 9007199254740992)
  number := .double (.ofNat 9007199254740992)
  isNumber := rfl
  nonneg := by decide +kernel
  fits := by decide +kernel

/-- The number half way is past the double below it, and rounded down to it in either order. -/
theorem half_way_and_below_in_any_order :
    justBelow.number.quantity.le halfWay.number.quantity = true ∧
      justBelow.number.lt halfWay.number = true ∧
      ∃ s', [(Side.start, justBelow), (Side.stop, halfWay)].foldlM typeEnd untouched = .ok s' ∧
        [(Side.stop, halfWay), (Side.start, justBelow)].foldlM typeEnd untouched = .ok s' ∧
        s'.timeline.draft.start = s'.timeline.draft.stop := by
  have hle : justBelow.number.quantity.le halfWay.number.quantity = true := by decide +kernel
  have hsame : justBelow.time = halfWay.time := by decide +kernel
  obtain ⟨s', hrun, hrun', hmoved⟩ := (ends_in_any_order untouched).2 justBelow halfWay hle
  refine ⟨hle, by decide +kernel, s', hrun, hrun', ?_⟩
  calc s'.timeline.draft.start = justBelow.time := hmoved.start
    _ = halfWay.time := hsame
    _ = s'.timeline.draft.stop := hmoved.stop.symm

end TimedText.Session
