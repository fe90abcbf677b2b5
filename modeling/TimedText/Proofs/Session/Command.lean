import TimedText.Session
import TimedText.Proofs.Timeline

/-!
# Commands as steps of a session

`Session.after` is one step: a command that fails leaves the session as it is. Besides the commands
of an editor there are steps that no command makes: the player moves on, and a render that was
handed on changes what is readable about rendering. A run is a list of steps in any order.

The lemmas say what each step does to the timeline. Everything but the cue commands leaves it alone.
What is readable about rendering is left alone by everything that only edits.
-/

namespace TimedText.Session

/-- A step of a session. -/
inductive Command where
  | addCue (c : Cue)
  | beginEdit (index : Int)
  | cancelEdit
  | updateDraft (fields : Fields)
  | stamp
  | commitDraft
  | deleteCue (index : Int)
  | upload (data : Bytes)
  | startRender
  /-- The player is somewhere else. -/
  | setTime (t : Double)
  /-- The player knows the duration. -/
  | setDuration (d : Double)
  /-- A render went on, and `o` is what is readable now. -/
  | rendering (o : Render.Orchestrator)

/-- The session behind a command. -/
def after (s : Session) : Command → Session
  | .addCue c => (s.addCue c).2.1
  | .beginEdit index =>
    match s.beginEdit index with
    | .ok s => s
    | .error _ => s
  | .cancelEdit => s.cancelEdit
  | .updateDraft fields =>
    match s.updateDraft fields with
    | .ok (_, s) => s
    | .error _ => s
  | .stamp =>
    match s.stamp with
    | .ok (_, s) => s
    | .error _ => s
  | .commitDraft =>
    match s.commitDraft.1 with
    | .ok (_, s) => s
    | .error _ => s
  | .deleteCue index =>
    match s.deleteCue index with
    | .ok (_, s) => s
    | .error _ => s
  | .upload data => (s.upload data).session
  | .startRender =>
    match s.startRender with
    | .accepted change => change.session
    | .refused => s
    | .ignored _ => s
  | .setTime t => s.setTime t
  | .setDuration d => (s.setDuration d).1
  | .rendering o => { s with orchestrator := o }

/-- A session that made its own timeline. Its clock and what is readable about rendering are
whatever they are. -/
def fresh (clock : Clock) (o : Render.Orchestrator) : Session :=
  { openOn clock {} with orchestrator := o }

@[simp] theorem timeline_fresh (clock : Clock) (o : Render.Orchestrator) :
    (fresh clock o).timeline = {} := rfl

/-! ## What a step does to the timeline -/

variable (s : Session)

@[simp] theorem timeline_addCue (c : Cue) :
    (s.after (.addCue c)).timeline = { s.timeline with cues := s.timeline.cues ++ [c] } := rfl

@[simp] theorem timeline_cancelEdit :
    (s.after .cancelEdit).timeline = s.timeline.cancelEdit := rfl

@[simp] theorem timeline_setTime (t : Double) :
    (s.after (.setTime t)).timeline = s.timeline := rfl

@[simp] theorem timeline_setDuration (d : Double) :
    (s.after (.setDuration d)).timeline = s.timeline := rfl

@[simp] theorem timeline_rendering (o : Render.Orchestrator) :
    (s.after (.rendering o)).timeline = s.timeline := rfl

theorem reset_timeline (p : Pending) : (s.reset p).session.timeline = s.timeline := by
  unfold reset
  cases s.orchestrator.reset <;> rfl

@[simp] theorem timeline_upload (data : Bytes) :
    (s.after (.upload data)).timeline = s.timeline :=
  reset_timeline _ _

@[simp] theorem timeline_startRender : (s.after .startRender).timeline = s.timeline := by
  show (match s.startRender with
    | .accepted change => change.session
    | .refused => s
    | .ignored _ => s).timeline = s.timeline
  unfold startRender start
  cases s.orchestrator.start s.source s.clock.duration <;> rfl

/-- Changing fields of the draft changes the draft at most. -/
theorem timeline_updateDraft (fields : Fields) :
    ∃ draft, (s.after (.updateDraft fields)).timeline = s.timeline.setDraft draft := by
  show ∃ draft, (match s.updateDraft fields with
    | .ok (_, s) => s
    | .error _ => s).timeline = s.timeline.setDraft draft
  unfold updateDraft
  cases s.timeline.draft.replace (dragged s.timeline.draft fields) with
  | ok draft => exact ⟨draft, rfl⟩
  | error issues => exact ⟨s.timeline.draft, rfl⟩

/-- A stamp is a change of both ends of the draft. -/
theorem timeline_stamp : ∃ draft, (s.after .stamp).timeline = s.timeline.setDraft draft :=
  s.timeline_updateDraft [("start_time", .float s.clock.seedRange.1),
    ("end_time", .float s.clock.seedRange.2)]

theorem timeline_beginEdit (i : Fin s.timeline.cues.length) :
    (s.after (.beginEdit (i : Nat))).timeline =
      { s.timeline with draft := s.timeline.cues.get i, target := some i } := by
  simp only [after, beginEdit, s.timeline.beginEdit_coe i]

/-- An edit of the deleted cue, or of one behind it, is given up; any other goes on. -/
theorem timeline_deleteCue (i : Fin s.timeline.cues.length) :
    (s.after (.deleteCue (i : Nat))).timeline =
      { cues := s.timeline.cues.eraseIdx i
        draft := if s.timeline.target.all (· < i.val) then s.timeline.draft else .blank
        target := s.timeline.target.filter (· < i.val) } := by
  simp only [after, deleteCue, s.timeline.delete_coe i]
  cases htarget : s.timeline.target with
  | none => rfl
  | some k =>
    by_cases hik : (i : Nat) ≤ k
    · have hle : ((i : Nat) : Int) ≤ (k : Int) := by omega
      have hlt : ¬ k < (i : Nat) := by omega
      simp [hle, hlt, Timeline.cancelEdit, Option.filter]
    · have hle : ¬ ((i : Nat) : Int) ≤ (k : Int) := by omega
      have hlt : k < (i : Nat) := by omega
      simp [hle, hlt, Option.filter]

/-- An index that names no cue changes nothing. -/
theorem after_of_out {index : Int} (h : ¬ (0 ≤ index ∧ index < s.timeline.cues.length)) :
    s.after (.beginEdit index) = s ∧ s.after (.deleteCue index) = s := by
  constructor
  · simp only [after, beginEdit, Timeline.beginEdit_of_out h]
  · simp only [after, deleteCue, Timeline.delete_of_out h]

theorem commitDraft_of_target {i : Nat} (h : s.timeline.target = some i)
    (hi : i < s.timeline.cues.length) :
    s.commitDraft.1 = .ok (some i,
      { s with timeline := { cues := s.timeline.cues.set i s.timeline.draft } }) := by
  simp only [commitDraft, s.timeline.commitDraft_of_target h hi]

theorem commitDraft_of_blank (h : s.timeline.target = none)
    (hb : s.timeline.draft.isBlank = true) :
    s.commitDraft.1 =
      .ok (none, { s with timeline := { s.timeline with draft := .blank } }) := by
  simp only [commitDraft, s.timeline.commitDraft_of_blank h hb]

theorem commitDraft_of_shown (h : s.timeline.target = none)
    (hb : s.timeline.draft.isBlank = false) :
    s.commitDraft.1 = .ok (some s.timeline.cues.length, { s with timeline :=
      { s.timeline with cues := s.timeline.cues ++ [s.timeline.draft], draft := .blank } }) := by
  simp only [commitDraft, s.timeline.commitDraft_of_shown h hb]

/-- After a commit that succeeds the session is what the commit gives. -/
theorem after_commitDraft {index : Option Nat} {s' : Session}
    (h : s.commitDraft.1 = .ok (index, s')) : s.after .commitDraft = s' := by
  simp only [after, h]

/-! ## What editing leaves alone -/

/-- Whether a command only edits cues or moves the player. -/
def Command.isEdit : Command → Bool
  | .upload _ | .startRender | .rendering _ => false
  | _ => true

/-- Editing does not touch rendering, also where it fails. -/
theorem orchestrator_after {c : Command} (h : c.isEdit = true) :
    (s.after c).orchestrator = s.orchestrator := by
  have updateDraft (fields : Fields) :
      (s.after (.updateDraft fields)).orchestrator = s.orchestrator := by
    simp only [after, Session.updateDraft]
    cases s.timeline.draft.replace (dragged s.timeline.draft fields) <;> rfl
  cases c with
  | beginEdit index =>
    simp only [after, Session.beginEdit]
    cases s.timeline.beginEdit index <;> rfl
  | updateDraft fields => exact updateDraft fields
  | stamp =>
    exact updateDraft [("start_time", .float s.clock.seedRange.1),
      ("end_time", .float s.clock.seedRange.2)]
  | commitDraft =>
    simp only [after, Session.commitDraft]
    cases s.timeline.commitDraft <;> rfl
  | deleteCue index =>
    simp only [after, Session.deleteCue]
    cases s.timeline.delete index <;> rfl
  | upload data => cases h
  | startRender => cases h
  | rendering o => cases h
  | _ => rfl

end TimedText.Session
