import TimedText.Proofs.Session.Steps

/-!
# The timeline that a session is given

A session passes its cue commands on to its timeline: each of them comes to what the operations of
the timeline come to (`give_eq`), and so does any run of them (`runAll_give`). But the timeline is
not always the one that was given. One without cues counts as none, and a new one takes its place,
whatever draft it holds and whatever edit is pending in it. So a session works on the timeline that
it is given exactly if that has cues or is as good as new (`session_follows_timeline_iff`).
-/

namespace TimedText

/-- What is shown of the cues of a session. -/
structure Shown where
  cues : List Cue
  draft : Cue
  target : Option Nat
  effective : List Cue
  deriving DecidableEq

namespace Timeline

/-- What a timeline has to show. -/
def shown (t : Timeline) : Shown := ⟨t.cues, t.draft, t.target, t.effectiveCues⟩

theorem shown_injective {t t' : Timeline} (h : t.shown = t'.shown) : t = t' := by
  obtain ⟨cues, draft, target⟩ := t
  cases h
  rfl

/-! ## Timelines that are reached -/

/-- A timeline that operations make of one that begins with some cues. -/
inductive Reached : Timeline → Prop where
  | opened (cues : List Cue) : Reached { cues }
  | step {t t' : Timeline} (op : Op) (a : op.Answer) (reached : Reached t)
      (h : op.whole t = .ok (a, t')) : Reached t'

/-- Deleting behind some cues leaves these. -/
theorem Reached.of_append {cues : List Cue} {draft : Cue} {target : Option Nat} (k : Nat)
    (h : Reached ⟨cues ++ List.replicate k .blank, draft, target⟩) :
    Reached ⟨cues, draft, target⟩ := by
  induction k with
  | zero =>
    rwa [List.replicate_zero, List.append_nil] at h
  | succ k ih =>
    have hlast : cues.length < (cues ++ List.replicate (k + 1) Cue.blank).length := by
      rw [List.length_append, List.length_replicate]
      omega
    have hdeleted := delete_coe ⟨_, draft, target⟩ ⟨cues.length, hlast⟩
    simp only [List.eraseIdx_append_of_length_le (Nat.le_refl _), Nat.sub_self] at hdeleted
    exact ih (.step (.delete cues.length) _ h hdeleted)

/-- Every timeline is reached, also one whose edit means a cue that is not there. -/
theorem reached (t : Timeline) : Reached t := by
  obtain ⟨cues, draft, target⟩ := t
  cases target with
  | none => exact .step (.setDraft draft) () (.opened cues) rfl
  | some i =>
    -- an edit begins where cues are still to be deleted
    let more := cues ++ List.replicate (i + 1) Cue.blank
    have hi : i < more.length := by
      simp only [more, List.length_append, List.length_replicate]
      omega
    have hbegun : Reached ⟨more, more[i], some i⟩ :=
      .step (.beginEdit i) () (.opened more)
        (congrArg (Except.map ((), ·)) (beginEdit_coe { cues := more } ⟨i, hi⟩))
    exact .step (.setDraft draft) () (hbegun.of_append (i + 1)) rfl

/-- The timeline that a session works on when it is given one. -/
def taken (t : Timeline) : Timeline := if t.cues.isEmpty then {} else t

theorem taken_eq_self_iff {t : Timeline} : t.taken = t ↔ t.cues ≠ [] ∨ t = {} := by
  unfold taken
  cases hcues : t.cues with
  | nil => simp [eq_comm]
  | cons c cs => simp

end Timeline

namespace Session

/-! ## Commands about cues -/

/-- A command about the cues of a session. -/
inductive CueCommand where
  | addCue (c : Cue)
  | beginEdit (index : Int)
  | cancelEdit
  | updateDraft (fields : Fields)
  | commitDraft
  | deleteCue (index : Int)

/-- What a command answers. -/
inductive Answer where
  | nothing
  | place (index : Option Nat)
  | cue (c : Cue)
  deriving DecidableEq

/-- What a command comes to for whoever gave it: an answer, or the error that is raised. -/
abbrev Reply := Except Error Answer

namespace CueCommand

/-- A command of a session. One that fails leaves it as it is. -/
def give (s : Session) : CueCommand → Reply × Session
  | .addCue c =>
    let (index, s', _) := s.addCue c
    (.ok (.place (some index)), s')
  | .beginEdit index =>
    match s.beginEdit index with
    | .ok s' => (.ok .nothing, s')
    | .error e => (.error e, s)
  | .cancelEdit => (.ok .nothing, s.cancelEdit)
  | .updateDraft fields =>
    match s.updateDraft fields with
    | .ok (draft, s') => (.ok (.cue draft), s')
    | .error e => (.error e, s)
  | .commitDraft =>
    match s.commitDraft.1 with
    | .ok (index, s') => (.ok (.place index), s')
    | .error e => (.error e, s)
  | .deleteCue index =>
    match s.deleteCue index with
    | .ok (removed, s') => (.ok (.cue removed), s')
    | .error e => (.error e, s)

/-- The operations of a timeline that a command stands for. Where a cue is deleted, an edit of it or
of one behind it is given up. -/
def apply (t : Timeline) : CueCommand → Reply × Timeline
  | .addCue c =>
    let (index, t') := t.add c
    (.ok (.place (some index)), t')
  | .beginEdit index =>
    match t.beginEdit index with
    | .ok t' => (.ok .nothing, t')
    | .error e => (.error (.outOfRange e), t)
  | .cancelEdit => (.ok .nothing, t.cancelEdit)
  | .updateDraft fields =>
    match t.draft.replace (dragged t.draft fields) with
    | .ok draft => (.ok (.cue draft), t.setDraft draft)
    | .error issues => (.error (.invalidCue issues), t)
  | .commitDraft =>
    match t.commitDraft with
    | .ok (index, t') => (.ok (.place index), t')
    | .error e => (.error (.outOfRange e), t)
  | .deleteCue index =>
    match t.delete index with
    | .ok (removed, t') => (.ok (.cue removed), t'.givenUpFrom index)
    | .error e => (.error (.outOfRange e), t)

/-- A command of a session comes to what the operations of its timeline come to, and touches nothing
else. -/
theorem give_eq (s : Session) (c : CueCommand) :
    c.give s = ((c.apply s.timeline).1, { s with timeline := (c.apply s.timeline).2 }) := by
  cases c with
  | addCue c => rfl
  | beginEdit index =>
    simp only [give, apply, Session.beginEdit]
    cases s.timeline.beginEdit index <;> rfl
  | cancelEdit => rfl
  | updateDraft fields =>
    simp only [give, apply, Session.updateDraft]
    cases s.timeline.draft.replace (dragged s.timeline.draft fields) <;> rfl
  | commitDraft =>
    simp only [give, apply, Session.commitDraft]
    cases s.timeline.commitDraft <;> rfl
  | deleteCue index =>
    simp only [give, apply, Session.deleteCue]
    cases s.timeline.delete index <;> rfl

end CueCommand

/-! ## Runs -/

/-- The replies to some commands, one after another, and the state behind them. -/
def runAll {σ : Type} (step : σ → CueCommand → Reply × σ) (s : σ) :
    List CueCommand → List Reply × σ
  | [] => ([], s)
  | c :: cs =>
    let (reply, s') := step s c
    let (replies, s'') := runAll step s' cs
    (reply :: replies, s'')

theorem runAll_give (s : Session) (commands : List CueCommand) :
    runAll CueCommand.give s commands =
      ((runAll CueCommand.apply s.timeline commands).1,
        { s with timeline := (runAll CueCommand.apply s.timeline commands).2 }) := by
  induction commands generalizing s with
  | nil => rfl
  | cons c cs ih => simp only [runAll, CueCommand.give_eq, ih]

/-- What a session shows of its cues. -/
def shown (s : Session) : Shown :=
  ⟨s.timeline.cues, s.timeline.draft, s.timeline.target, s.effectiveCues⟩

/-- Behind any commands, none at all included, a session shows what the operations make of a
timeline, and each command is replied to as the operations are. -/
def Follows (s : Session) (t : Timeline) : Prop :=
  ∀ commands, (runAll CueCommand.give s commands).1 = (runAll CueCommand.apply t commands).1 ∧
    (runAll CueCommand.give s commands).2.shown = (runAll CueCommand.apply t commands).2.shown

theorem follows_own (s : Session) : s.Follows s.timeline := by
  intro commands
  rw [runAll_give]
  exact ⟨rfl, rfl⟩

/-- A session opened on a timeline follows the one that it takes: the timeline that it was given,
unless that has no cues; then it is a new one. So it follows the timeline that it was given exactly
if that has cues or nothing is pending in it, and otherwise the first thing that it shows is another
draft or another edit. -/
theorem session_follows_timeline_iff (clock : Clock) (o : Render.Orchestrator) (t : Timeline) :
    let s : Session := { openOn clock t with orchestrator := o }
    s.Follows t.taken ∧
    (s.Follows t ↔ t.cues ≠ [] ∨ t.draft = .blank ∧ t.target = none) ∧
    (s.shown = t.shown ↔ t.cues ≠ [] ∨ t.draft = .blank ∧ t.target = none) := by
  intro s
  have hown : s.Follows t.taken := s.follows_own
  have hnew : t.taken = t ↔ t.cues ≠ [] ∨ t.draft = .blank ∧ t.target = none := by
    rw [Timeline.taken_eq_self_iff]
    obtain ⟨cues, draft, target⟩ := t
    cases cues <;> simp
  have hshown : s.shown = t.shown ↔ t.taken = t :=
    ⟨fun h => Timeline.shown_injective h, fun h => congrArg Timeline.shown h⟩
  refine ⟨hown, ?_, hshown.trans hnew⟩
  rw [← hnew]
  constructor
  · -- before the first command both show what they begin with
    exact fun h => hshown.mp (h []).2
  · intro h
    rwa [h] at hown

/-- A cue is written, but not committed yet. -/
def unfinished : Timeline :=
  { draft := { Cue.blank with text := "Hi", stop := .ofNat 1,
                              start_le_stop := by decide +kernel } }

/-- A session that is opened on it shows a blank draft instead, and has nothing to commit. -/
theorem unfinished_draft_is_lost :
    unfinished.Reached ∧ unfinished.effectiveCues.map (·.text) = ["Hi"] ∧
      ((openOn default unfinished).shown = ⟨[], .blank, none, []⟩) ∧
      (CueCommand.commitDraft.apply unfinished).1 = .ok (.place (some 0)) ∧
      (CueCommand.commitDraft.give (openOn default unfinished)).1 = .ok (.place none) ∧
      ¬ (openOn default unfinished).Follows unfinished := by
  refine ⟨unfinished.reached, by decide +kernel, by decide +kernel, rfl, rfl, fun h => ?_⟩
  have hdraft : Cue.blank = unfinished.draft := congrArg Shown.draft (h []).2
  exact absurd hdraft (by decide +kernel)

end Session

end TimedText
