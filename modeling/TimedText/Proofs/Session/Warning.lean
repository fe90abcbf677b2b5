import TimedText.Proofs.Double.Order
import TimedText.Proofs.Session.Roll

/-!
# Warnings about cues past the end

A cue that reaches past the known duration is written as it is, with a warning. Whether there is one
is decided before the cue is written, by what is given to be written: the cue that is added, or the
draft that is committed. A commit may then write nothing: a new draft is dropped if it is blank, and
an edit whose cue is not there any more fails. So a warning means that a cue past the end was
written, or that a draft past the end was dropped (`warned_iff_given_past_end`).
-/

namespace TimedText

/-- A cue starts or ends past a duration that is known. -/
def Cue.IsPastEnd (c : Cue) (duration : Double) : Prop :=
  Double.zero < duration ∧ (duration < c.start ∨ duration < c.stop)

/-- No end lies past a duration that is no number. -/
theorem Cue.exceeds_iff {c : Cue} {d : Double} : c.exceeds d = true ↔ c.IsPastEnd d := by
  have hzero : Double.zero.quantity ≠ .nan := by decide
  simp only [exceeds, IsPastEnd, Bool.and_eq_true, Bool.not_eq_true', Bool.or_eq_true]
  refine and_congr_left fun hpast => ?_
  have hd : d.quantity ≠ .nan := by
    rcases hpast with h | h
    · exact (Quantity.le_iff.mp (Quantity.lt_iff.mp h).1).1
    · exact (Quantity.le_iff.mp (Quantity.lt_iff.mp h).1).1
  constructor
  · intro hnot
    by_contra hlow
    have hle : d.le .zero = true := Quantity.le_of_not_lt hzero hd hlow
    rw [hle] at hnot
    cases hnot
  · exact fun hpos => Bool.eq_false_iff.mpr (Quantity.lt_iff.mp hpos).2

namespace Session

/-- A command that may write a cue among the committed ones. -/
inductive Entry where
  | add (c : Cue)
  | commit

namespace Entry

/-- The cue that is given to be written. -/
def given (s : Session) : Entry → Cue
  | .add c => c
  | .commit => s.timeline.draft

/-- Where a command wrote, if it wrote, the session behind it, and what it tells. -/
def perform (s : Session) : Entry → Except Error (Option Nat × Session) × List Log.Record
  | .add c =>
    let (index, s', records) := s.addCue c
    (.ok (some index, s'), records)
  | .commit => s.commitDraft

/-- The cues behind a command. One that fails leaves them as they are. -/
def cuesBehind (s : Session) (e : Entry) : List Cue :=
  match (e.perform s).1 with
  | .ok (_, s') => s'.timeline.cues
  | .error _ => s.timeline.cues

/-- The cue that a command wrote: the one that stands behind it where it says. -/
def written? (s : Session) (e : Entry) : Option Cue :=
  match (e.perform s).1 with
  | .ok (some index, s') => s'.timeline.cues[index]?
  | _ => none

/-- The warnings among what a command tells. -/
def warnings (s : Session) (e : Entry) : List Log.Record :=
  (e.perform s).2.filter (·.level = Log.Level.warning)

/-- A commit that has nothing to write: a blank new draft, or an edit whose cue is gone. -/
def IsIdle (s : Session) (e : Entry) : Prop :=
  e = .commit ∧ ((s.timeline.target = none ∧ s.timeline.draft.isBlank = true) ∨
    ∃ i, s.timeline.target = some i ∧ s.timeline.cues.length ≤ i)

end Entry

variable (s : Session)

/-- The warning that a cue is kept although it reaches past the duration. -/
def keptWarning (c : Cue) (duration : Double) : Log.Record :=
  Log.record .warning .editor ("Cue " ++ c.label ++ " extends past the video duration ("
    ++ duration.fixed 3 ++ "s); kept as entered")

theorem filter_pastEnd (c : Cue) (added : List Log.Record)
    (h : ∀ r ∈ added, r.level ≠ Log.Level.warning) :
    (s.pastEnd c ++ added).filter (·.level = Log.Level.warning) =
      if c.exceeds s.clock.duration then [keptWarning c s.clock.duration] else [] := by
  have hadded : added.filter (·.level = Log.Level.warning) = [] := by
    simpa [List.filter_eq_nil_iff] using h
  rw [List.filter_append, hadded, List.append_nil, pastEnd]
  split <;> rfl

/-- What is told about a cue that was added is no warning. -/
theorem addedRecord_level (index : Nat) (c : Cue) :
    ∀ r ∈ [addedRecord index c], r.level ≠ Log.Level.warning := by
  rw [List.forall_mem_singleton]
  show Log.Level.debug ≠ Log.Level.warning
  decide

/-- The warning of a commit is told whatever the commit comes to. -/
theorem exists_commitDraft_records :
    ∃ added, s.commitDraft.2 = s.pastEnd s.timeline.draft ++ added ∧
      ∀ r ∈ added, r.level ≠ Log.Level.warning := by
  unfold commitDraft
  cases s.timeline.commitDraft with
  | error e => exact ⟨[], (List.append_nil _).symm, nofun⟩
  | ok committed =>
    obtain ⟨index, t⟩ := committed
    refine ⟨_, rfl, ?_⟩
    split
    · exact addedRecord_level _ _
    · exact nofun

namespace Entry

/-- One warning, if what is given reaches past the duration, and none otherwise. -/
theorem warnings_eq (e : Entry) :
    e.warnings s =
      if (e.given s).exceeds s.clock.duration then [keptWarning (e.given s) s.clock.duration]
      else [] := by
  cases e with
  | add c => exact s.filter_pastEnd c _ (addedRecord_level _ c)
  | commit =>
    obtain ⟨added, hrecords, hadded⟩ := s.exists_commitDraft_records
    rw [warnings, perform, hrecords]
    exact s.filter_pastEnd _ added hadded

variable {s}

/-- A command that has something to write writes what it was given, and nothing else changes. -/
theorem written_of_not_idle {e : Entry} (h : ¬ e.IsIdle s) :
    e.written? s = some (e.given s) ∧
      (e.cuesBehind s = s.timeline.cues ++ [e.given s] ∨
        ∃ i < s.timeline.cues.length, s.timeline.target = some i ∧
          e.cuesBehind s = s.timeline.cues.set i (e.given s)) := by
  cases e with
  | add c =>
    refine ⟨?_, .inl rfl⟩
    show (s.timeline.cues ++ [c])[s.timeline.cues.length]? = some c
    exact List.getElem?_concat_length
  | commit =>
    have hidle := not_or.mp (fun hnone => h ⟨rfl, hnone⟩)
    cases htarget : s.timeline.target with
    | none =>
      have hblank : s.timeline.draft.isBlank = false :=
        Bool.eq_false_iff.mpr fun hblank => hidle.1 ⟨htarget, hblank⟩
      simp only [written?, cuesBehind, perform, s.commitDraft_of_shown htarget hblank]
      exact ⟨List.getElem?_concat_length, .inl rfl⟩
    | some i =>
      have hi : i < s.timeline.cues.length :=
        Nat.lt_of_not_le fun hgone => hidle.2 ⟨i, htarget, hgone⟩
      simp only [written?, cuesBehind, perform, s.commitDraft_of_target htarget hi]
      exact ⟨List.getElem?_set_self hi, .inr ⟨i, hi, rfl, rfl⟩⟩

theorem written_of_idle {e : Entry} (h : e.IsIdle s) :
    e.written? s = none ∧ e.cuesBehind s = s.timeline.cues := by
  obtain ⟨rfl, ⟨htarget, hblank⟩ | ⟨i, htarget, hgone⟩⟩ := h
  · simp only [written?, cuesBehind, perform, s.commitDraft_of_blank htarget hblank, and_self]
  · have hfails := Timeline.commitDraft_of_stale s.timeline htarget hgone
    simp only [written?, cuesBehind, perform, Session.commitDraft, hfails, and_self]

theorem written_eq_none_iff {e : Entry} : e.written? s = none ↔ e.IsIdle s := by
  refine ⟨fun hnone => ?_, fun h => (written_of_idle h).1⟩
  by_contra h
  rw [(written_of_not_idle h).1] at hnone
  cases hnone

/-- The edit of a session that made its own timeline always has its cue. -/
theorem not_gone_of_run {clock : Clock} {o : Render.Orchestrator} {commands : List Command}
    (h : (run (fresh clock o, {}) commands).1 = s) :
    ¬ ∃ i, s.timeline.target = some i ∧ s.timeline.cues.length ≤ i := by
  have hagrees := agrees_run clock o commands
  rw [h] at hagrees
  rintro ⟨i, htarget, hgone⟩
  obtain ⟨n, hn, -⟩ := hagrees.edits i htarget
  obtain ⟨hi, -⟩ := List.getElem?_eq_some_iff.mp hn
  rw [hagrees.length_eq] at hgone
  omega

end Entry

/-- Adding a cue and committing the draft tell at most one warning, and they tell it exactly if what
they were given reaches past a known duration: so, if they write something, exactly if what they
wrote does, and if they write nothing, which is a blank new draft that is dropped or an edit whose
cue is gone, also if the draft does. In a session that made its own timeline only a blank new draft
is dropped. What is written is what was given, at the end or over the cue under edit, and the rest
of the committed cues stays; the duration has no part in it. -/
theorem warned_iff_given_past_end (s : Session) (e : Entry) :
    (e.warnings s ≠ [] ↔
      (∃ c, e.written? s = some c ∧ c.IsPastEnd s.clock.duration) ∨
        e.written? s = none ∧ s.timeline.draft.IsPastEnd s.clock.duration) ∧
    (∀ r ∈ e.warnings s, e.warnings s = [r] ∧ r = keptWarning (e.given s) s.clock.duration) ∧
    (e.written? s = none ↔ e.IsIdle s) ∧
    (∀ clock o commands, (run (fresh clock o, {}) commands).1 = s → e.written? s = none →
      e = .commit ∧ s.timeline.target = none ∧ s.timeline.draft.isBlank = true) ∧
    (∀ c, e.written? s = some c → c = e.given s ∧
      (e.cuesBehind s = s.timeline.cues ++ [c] ∨
        ∃ i < s.timeline.cues.length, s.timeline.target = some i ∧
          e.cuesBehind s = s.timeline.cues.set i c)) ∧
    (e.written? s = none → e.cuesBehind s = s.timeline.cues) ∧
    ∀ d, e.written? (s.setDuration d).1 = e.written? s ∧
      e.cuesBehind (s.setDuration d).1 = e.cuesBehind s := by
  have hwarned : e.warnings s ≠ [] ↔ (e.given s).IsPastEnd s.clock.duration := by
    rw [Entry.warnings_eq, ← Cue.exceeds_iff]
    split
    · next h => exact iff_of_true (List.cons_ne_nil _ _) h
    · next h => exact iff_of_false (not_not_intro rfl) h
  refine ⟨?_, ?_, Entry.written_eq_none_iff, ?_, ?_, ?_, ?_⟩
  · rw [hwarned]
    by_cases h : e.IsIdle s
    · obtain ⟨hnone, -⟩ := Entry.written_of_idle h
      obtain ⟨rfl, -⟩ := h
      simp [hnone, Entry.given]
    · simp [(Entry.written_of_not_idle h).1]
  · rw [Entry.warnings_eq]
    split
    · rw [List.forall_mem_singleton]
      exact ⟨rfl, rfl⟩
    · exact nofun
  · intro clock o commands hrun hnone
    obtain ⟨rfl, hblank | hgone⟩ := Entry.written_eq_none_iff.mp hnone
    · exact ⟨rfl, hblank⟩
    · exact absurd hgone (Entry.not_gone_of_run hrun)
  · intro c hc
    have h : ¬ e.IsIdle s := fun hidle => by
      rw [(Entry.written_of_idle hidle).1] at hc
      cases hc
    obtain ⟨hwritten, hcues⟩ := Entry.written_of_not_idle h
    obtain rfl : e.given s = c := Option.some.inj (hwritten.symm.trans hc)
    exact ⟨rfl, hcues⟩
  · exact fun hnone => (Entry.written_of_idle (Entry.written_eq_none_iff.mp hnone)).2
  · intro d
    cases e with
    | add c => exact ⟨rfl, rfl⟩
    | commit =>
      have hsame : (s.setDuration d).1.timeline.commitDraft = s.timeline.commitDraft := rfl
      simp only [Entry.written?, Entry.cuesBehind, Entry.perform, commitDraft, hsame]
      rcases s.timeline.commitDraft with e | ⟨_ | i, t⟩
      all_goals exact ⟨rfl, rfl⟩

/-- The video is ten seconds long, and the draft is moved behind its end but says nothing yet. -/
def draftedPastEnd : List Command :=
  [.setDuration (.ofNat 10),
    .updateDraft [("start_time", .float (.ofNat 20)), ("end_time", .float (.ofNat 30))]]

/-- Committing it writes nothing, and warns that it is kept. -/
theorem dropped_draft_is_said_to_be_kept :
    ∃ s, (run (fresh { offset := .ofNat 1 } {}, {}) draftedPastEnd).1 = s ∧
      (Entry.commit.warnings s).map (·.message) =
        ["Cue [20.0s ~ 30.0s]  extends past the video duration (10.000s); kept as entered"] ∧
      Entry.commit.written? s = none ∧ Entry.commit.cuesBehind s = [] :=
  ⟨_, rfl, by decide +kernel⟩

end Session

end TimedText
