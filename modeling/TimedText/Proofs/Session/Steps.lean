import TimedText.Proofs.Session.Command

/-!
# Editing step by step

An operation of a timeline, and a command of an editor, is made of single steps: an index is looked
at, a cue is written, the draft is replaced. Here the steps are taken one after another, and what a
step has written stays written where a later one fails, so that a failing command could leave half
of its work behind. It does not: step by step an operation does what it does as a whole
(`Op.steps_eq`, `Edit.steps_eq`), and as a whole it fails before it changes anything. Both hold in
every state, also in one whose edit was left pointing at a cue that is not there any more.
-/

namespace TimedText

/-! ## Steps -/

section Steps

variable {ε σ α β : Type} {x : EStateM ε σ α} {f : α → EStateM ε σ β} {s s' : σ}

theorem bind_of_ok {a : α} (h : x s = .ok a s') : (x >>= f) s = f a s' := by
  show EStateM.bind x f s = _
  unfold EStateM.bind
  rw [h]

theorem bind_of_error {e : ε} (h : x s = .error e s') : (x >>= f) s = .error e s' := by
  show EStateM.bind x f s = _
  unfold EStateM.bind
  rw [h]

/-- What is done as a whole, taken as a step: a failure leaves everything as it is. -/
def atOnce (whole : σ → Except ε (α × σ)) : EStateM ε σ α := fun s =>
  match whole s with
  | .ok (a, s') => .ok a s'
  | .error e => .error e s

variable {whole : σ → Except ε (α × σ)}

theorem atOnce_of_ok {a : α} (h : whole s = .ok (a, s')) : atOnce whole s = .ok a s' := by
  unfold atOnce
  rw [h]

theorem atOnce_of_error {e : ε} (h : whole s = .error e) : atOnce whole s = .error e s := by
  unfold atOnce
  rw [h]

theorem atOnce_eq_error {e : ε} (h : atOnce whole s = .error e s') :
    s' = s ∧ whole s = .error e := by
  unfold atOnce at h
  split at h
  · cases h
  · next hwhole => cases h; exact ⟨rfl, hwhole⟩

theorem atOnce_fails_iff : (∃ e s', atOnce whole s = .error e s') ↔ ∃ e, whole s = .error e :=
  ⟨fun ⟨e, _, h⟩ => ⟨e, (atOnce_eq_error h).2⟩, fun ⟨e, h⟩ => ⟨e, s, atOnce_of_error h⟩⟩

end Steps

namespace Timeline

/-- Steps on a timeline. A failure keeps what was written before it. -/
abbrev Steps (α : Type) : Type := EStateM OutOfRange Timeline α

namespace Steps

/-- Looks whether there is a cue at an index. -/
def check (index : Int) : Steps Unit := do
  let t ← get
  if 0 ≤ index ∧ index < t.cues.length then return ()
  else throw ⟨index, t.cues.length⟩

/-- The cue at an index that was checked. -/
def cueAt (index : Int) : Steps Cue := do
  return (← get).cues[index.toNat]?.getD .blank

def writeCues (f : List Cue → List Cue) : Steps Unit :=
  modify fun t => { t with cues := f t.cues }

def writeDraft (c : Cue) : Steps Unit := modify fun t => { t with draft := c }

def writeTarget (target : Option Nat) : Steps Unit := modify fun t => { t with target }

def add (c : Cue) : Steps Nat := do
  writeCues (· ++ [c])
  return (← get).cues.length - 1

def update (index : Int) (c : Cue) : Steps Unit := do
  check index
  writeCues (·.set index.toNat c)

def delete (index : Int) : Steps Cue := do
  check index
  let removed ← cueAt index
  writeCues (·.eraseIdx index.toNat)
  return removed

def beginEdit (index : Int) : Steps Unit := do
  check index
  writeTarget (some index.toNat)
  writeDraft (← cueAt index)

def cancelEdit : Steps Unit := do
  writeTarget none
  writeDraft .blank

/-- An edit is given up when its draft has been written. -/
def commitDraft : Steps (Option Nat) := do
  match (← get).target with
  | some index =>
    update index (← get).draft
    cancelEdit
    return some index
  | none =>
    let draft := (← get).draft
    let written ← if draft.isBlank then pure none else some <$> add draft
    writeDraft .blank
    return written

variable {t : Timeline} {index : Int}

theorem check_coe (i : Fin t.cues.length) : check (i : Nat) t = .ok () t := by
  have h : (0 : Int) ≤ (i : Nat) ∧ ((i : Nat) : Int) < t.cues.length := by omega
  show (if _ then _ else _ : Steps Unit) t = _
  rw [if_pos h]
  rfl

theorem check_of_out (h : ¬ (0 ≤ index ∧ index < t.cues.length)) :
    check index t = .error ⟨index, t.cues.length⟩ t := by
  show (if _ then _ else _ : Steps Unit) t = _
  rw [if_neg h]
  rfl

theorem cueAt_coe (i : Fin t.cues.length) : cueAt (i : Nat) t = .ok (t.cues.get i) t := by
  show EStateM.Result.ok (t.cues[((i : Nat) : Int).toNat]?.getD .blank) t = _
  rw [Int.toNat_natCast, List.getElem?_eq_getElem i.isLt]
  rfl

end Steps

/-! ## Operations of a timeline -/

/-- An operation of a timeline. -/
inductive Op where
  | add (c : Cue)
  | update (index : Int) (c : Cue)
  | delete (index : Int)
  | beginEdit (index : Int)
  | cancelEdit
  | setDraft (c : Cue)
  | commitDraft

namespace Op

/-- What an operation is answered. -/
abbrev Answer : Op → Type
  | .add _ => Nat
  | .delete _ => Cue
  | .commitDraft => Option Nat
  | .update .. | .beginEdit _ | .cancelEdit | .setDraft _ => Unit

/-- The steps of an operation. -/
def steps : (op : Op) → Steps op.Answer
  | .add c => Steps.add c
  | .update index c => Steps.update index c
  | .delete index => Steps.delete index
  | .beginEdit index => Steps.beginEdit index
  | .cancelEdit => Steps.cancelEdit
  | .setDraft c => Steps.writeDraft c
  | .commitDraft => Steps.commitDraft

/-- An operation as a whole. -/
def whole : (op : Op) → Timeline → Except OutOfRange (op.Answer × Timeline)
  | .add c, t => .ok (t.add c)
  | .update index c, t => (t.update index c).map ((), ·)
  | .delete index, t => t.delete index
  | .beginEdit index, t => (t.beginEdit index).map ((), ·)
  | .cancelEdit, t => .ok ((), t.cancelEdit)
  | .setDraft c, t => .ok ((), t.setDraft c)
  | .commitDraft, t => t.commitDraft

/-- The index that an operation is given. -/
def index? : Op → Option Int
  | .update index _ | .delete index | .beginEdit index => some index
  | .add _ | .cancelEdit | .setDraft _ | .commitDraft => none

end Op

section Whole

theorem Op.whole_of_out {t : Timeline} {op : Op} {index : Int} (h : op.index? = some index)
    (hout : ¬ (0 ≤ index ∧ index < t.cues.length)) :
    op.whole t = .error ⟨index, t.cues.length⟩ := by
  cases op with
  | update _ c => cases h; exact congrArg (Except.map ((), ·)) (update_of_out hout c)
  | delete _ => cases h; exact delete_of_out hout
  | beginEdit _ => cases h; exact congrArg (Except.map ((), ·)) (beginEdit_of_out hout)
  | _ => cases h

variable (t : Timeline)

theorem steps_add (c : Cue) : Steps.add c t = .ok (t.add c).1 (t.add c).2 := by
  show EStateM.Result.ok ((t.cues ++ [c]).length - 1) { t with cues := t.cues ++ [c] } = _
  rw [List.length_append, List.length_singleton, Nat.add_sub_cancel]
  rfl

theorem steps_update (index : Int) (c : Cue) :
    Steps.update index c t = atOnce (Op.update index c).whole t := by
  rcases t.index_cases index with ⟨i, rfl⟩ | hout
  · have hwhole : (Op.update (i : Nat) c).whole t = .ok ((), { t with cues := t.cues.set i c }) := by
      rw [Op.whole, t.update_coe i c]
      rfl
    exact (bind_of_ok (Steps.check_coe i)).trans (atOnce_of_ok hwhole).symm
  · have hwhole : (Op.update index c).whole t = .error ⟨index, t.cues.length⟩ :=
      Op.whole_of_out rfl hout
    exact (bind_of_error (Steps.check_of_out hout)).trans (atOnce_of_error hwhole).symm

theorem steps_delete (index : Int) :
    Steps.delete index t = atOnce (Op.delete index).whole t := by
  rcases t.index_cases index with ⟨i, rfl⟩ | hout
  · refine (bind_of_ok (Steps.check_coe i)).trans ?_
    refine (bind_of_ok (Steps.cueAt_coe i)).trans ?_
    exact (atOnce_of_ok (t.delete_coe i)).symm
  · have hwhole : (Op.delete index).whole t = .error ⟨index, t.cues.length⟩ :=
      Op.whole_of_out rfl hout
    exact (bind_of_error (Steps.check_of_out hout)).trans (atOnce_of_error hwhole).symm

theorem steps_beginEdit (index : Int) :
    Steps.beginEdit index t = atOnce (Op.beginEdit index).whole t := by
  rcases t.index_cases index with ⟨i, rfl⟩ | hout
  · have hwhole : (Op.beginEdit (i : Nat)).whole t =
        .ok ((), { t with draft := t.cues.get i, target := some i }) := by
      rw [Op.whole, t.beginEdit_coe i]
      rfl
    refine (bind_of_ok (Steps.check_coe i)).trans ?_
    -- the target is written before the draft is looked up
    let picked : Timeline := { t with target := some i }
    have hcue : Steps.cueAt (i : Nat) picked = .ok (t.cues.get i) picked :=
      Steps.cueAt_coe (t := picked) i
    show (Steps.cueAt (i : Nat) >>= Steps.writeDraft) picked = _
    exact (bind_of_ok hcue).trans (atOnce_of_ok hwhole).symm
  · have hwhole : (Op.beginEdit index).whole t = .error ⟨index, t.cues.length⟩ :=
      Op.whole_of_out rfl hout
    exact (bind_of_error (Steps.check_of_out hout)).trans (atOnce_of_error hwhole).symm

theorem steps_commitDraft : Steps.commitDraft t = atOnce Op.commitDraft.whole t := by
  cases htarget : t.target with
  | none =>
    have hsteps : Steps.commitDraft t = (do
        let written ← if t.draft.isBlank then pure none else some <$> Steps.add t.draft
        Steps.writeDraft .blank
        return written : Steps (Option Nat)) t := by
      show (match t.target with | some _ => _ | none => _ : Steps (Option Nat)) t = _
      rw [htarget]
      rfl
    rw [hsteps]
    cases hblank : t.draft.isBlank with
    | true => exact (atOnce_of_ok (t.commitDraft_of_blank htarget hblank)).symm
    | false =>
      have hadded : (some <$> Steps.add t.draft : Steps (Option Nat)) t =
          .ok (some t.cues.length) (t.add t.draft).2 := by
        show (match Steps.add t.draft t with
          | .ok i t' => EStateM.Result.ok (some i) t'
          | .error e t' => .error e t') = _
        rw [steps_add]
        rfl
      exact (bind_of_ok hadded).trans (atOnce_of_ok (t.commitDraft_of_shown htarget hblank)).symm
  | some i =>
    have hsteps : Steps.commitDraft t = (do
        Steps.update i t.draft
        Steps.cancelEdit
        return some i : Steps (Option Nat)) t := by
      show (match t.target with | some _ => _ | none => _ : Steps (Option Nat)) t = _
      rw [htarget]
      rfl
    rw [hsteps]
    by_cases hi : i < t.cues.length
    · have hupdate : Steps.update (i : Nat) t.draft t =
          .ok () { t with cues := t.cues.set i t.draft } := by
        rw [steps_update]
        refine atOnce_of_ok ?_
        rw [Op.whole, t.update_coe ⟨i, hi⟩]
        rfl
      exact (bind_of_ok hupdate).trans (atOnce_of_ok (t.commitDraft_of_target htarget hi)).symm
    · -- the edited cue is gone, and the update fails before the draft and the edit are given up
      have hout : ¬ ((0 : Int) ≤ (i : Nat) ∧ ((i : Nat) : Int) < t.cues.length) := by omega
      have hupdate : Steps.update (i : Nat) t.draft t = .error ⟨i, t.cues.length⟩ t := by
        rw [steps_update]
        exact atOnce_of_error (Op.whole_of_out rfl hout)
      have hwhole : t.commitDraft = .error ⟨i, t.cues.length⟩ :=
        t.commitDraft_of_stale htarget (by omega)
      exact (bind_of_error hupdate).trans (atOnce_of_error hwhole).symm

/-- Step by step an operation does what it does as a whole. -/
theorem Op.steps_eq (op : Op) : op.steps t = atOnce op.whole t := by
  cases op with
  | add c => exact t.steps_add c
  | update index c => exact t.steps_update index c
  | delete index => exact t.steps_delete index
  | beginEdit index => exact t.steps_beginEdit index
  | cancelEdit => rfl
  | setDraft c => rfl
  | commitDraft => exact t.steps_commitDraft

variable {t}

theorem Op.whole_of_index {op : Op} {i : Fin t.cues.length} (h : op.index? = some ((i : Nat) : Int)) :
    ∃ r, op.whole t = .ok r := by
  cases op with
  | update index c => cases h; exact ⟨_, congrArg (Except.map ((), ·)) (t.update_coe i c)⟩
  | delete index => cases h; exact ⟨_, t.delete_coe i⟩
  | beginEdit index => cases h; exact ⟨_, congrArg (Except.map ((), ·)) (t.beginEdit_coe i)⟩
  | _ => cases h

theorem commitDraft_fails_iff :
    (∃ e, t.commitDraft = .error e) ↔ ∃ i, t.target = some i ∧ t.cues.length ≤ i := by
  constructor
  · rintro ⟨e, h⟩
    cases htarget : t.target with
    | some i =>
      refine ⟨i, rfl, Nat.le_of_not_lt fun hi => ?_⟩
      rw [t.commitDraft_of_target htarget hi] at h
      cases h
    | none =>
      cases hblank : t.draft.isBlank with
      | true => rw [t.commitDraft_of_blank htarget hblank] at h; cases h
      | false => rw [t.commitDraft_of_shown htarget hblank] at h; cases h
  · rintro ⟨i, htarget, hi⟩
    exact ⟨_, t.commitDraft_of_stale htarget hi⟩

/-- An operation fails if there is no cue at its index, and a commit if there is none at the index
of its edit. -/
theorem Op.whole_fails_iff (op : Op) :
    (∃ e, op.whole t = .error e) ↔
      (∃ index, op.index? = some index ∧ ¬ (0 ≤ index ∧ index < t.cues.length)) ∨
        op = .commitDraft ∧ ∃ i, t.target = some i ∧ t.cues.length ≤ i := by
  cases hindex : op.index? with
  | some index =>
    have hother : op ≠ .commitDraft := by rintro rfl; cases hindex
    rcases t.index_cases index with ⟨i, rfl⟩ | hout
    · obtain ⟨r, hr⟩ := Op.whole_of_index hindex
      constructor
      · rintro ⟨e, he⟩
        rw [hr] at he
        cases he
      · rintro (⟨index, hsome, hout⟩ | ⟨hcommit, -⟩)
        · cases hsome
          exact absurd ⟨by omega, by omega⟩ hout
        · exact absurd hcommit hother
    · exact iff_of_true ⟨_, Op.whole_of_out hindex hout⟩ (.inl ⟨index, rfl, hout⟩)
  | none =>
    have hnone : ¬ ∃ index, none = some index ∧ ¬ (0 ≤ index ∧ index < (t.cues.length : Int)) := by
      rintro ⟨index, h, -⟩
      cases h
    rw [or_iff_right hnone]
    cases op with
    | commitDraft => exact commitDraft_fails_iff.trans (and_iff_right rfl).symm
    | add c => exact iff_of_false nofun nofun
    | cancelEdit => exact iff_of_false nofun nofun
    | setDraft c => exact iff_of_false nofun nofun
    | _ => cases hindex

end Whole

/-- The timeline without an edit of the cue at an index or of one behind it. -/
def givenUpFrom (t : Timeline) (index : Int) : Timeline :=
  match t.target with
  | some target => if index ≤ target then t.cancelEdit else t
  | none => t

end Timeline

/-! ## The session -/

namespace Session

/-- Steps on a session and its log. A failure keeps what was written before it. -/
abbrev Steps (α : Type) : Type := EStateM Error (Session × List Log.Record) α

/-- What a command does as a whole and what it tells, taken as a step: a failure leaves the session
as it is. -/
def told {α : Type} (whole : Session → Except Error (α × Session) × List Log.Record) : Steps α :=
  fun (s, log) =>
    match whole s with
    | (.ok (a, s'), records) => .ok a (s', log ++ records)
    | (.error e, records) => .error e (s, log ++ records)

namespace Steps

/-- Tells something. -/
def tell (records : List Log.Record) : Steps Unit := modify fun (s, log) => (s, log ++ records)

/-- Steps on the timeline of a session. -/
def onTimeline {α : Type} (x : Timeline.Steps α) : Steps α := fun (s, log) =>
  match x s.timeline with
  | .ok a timeline => .ok a ({ s with timeline }, log)
  | .error e timeline => .error (.outOfRange e) ({ s with timeline }, log)

def beginEdit (index : Int) : Steps Unit := onTimeline (Timeline.Steps.beginEdit index)

def updateDraft (fields : Fields) : Steps Cue := do
  let current := (← get).1.timeline.draft
  match current.replace (dragged current fields) with
  | .error issues => throw (.invalidCue issues)
  | .ok draft =>
    onTimeline (Timeline.Steps.writeDraft draft)
    return draft

def stamp : Steps Cue := do
  let (start, stop) := (← get).1.clock.seedRange
  updateDraft [("start_time", .float start), ("end_time", .float stop)]

/-- A warning is told before the draft is written. -/
def commitDraft : Steps (Option Nat) := do
  let (s, _) ← get
  tell (s.pastEnd s.timeline.draft)
  let index ← onTimeline Timeline.Steps.commitDraft
  tell (match s.timeline.target, index with
    | none, some i => [addedRecord i s.timeline.draft]
    | _, _ => [])
  return index

/-- An edit of the cue at an index, or of one behind it, is given up. -/
def giveUpFrom (index : Int) : Steps Unit := do
  match (← get).1.timeline.target with
  | some target => if index ≤ target then onTimeline Timeline.Steps.cancelEdit else return ()
  | none => return ()

def deleteCue (index : Int) : Steps Cue := do
  let removed ← onTimeline (Timeline.Steps.delete index)
  giveUpFrom index
  return removed

end Steps

/-- A command that may fail. -/
inductive Edit where
  | updateDraft (fields : Fields)
  | stamp
  | beginEdit (index : Int)
  | commitDraft
  | deleteCue (index : Int)

namespace Edit

/-- What a command is answered. -/
abbrev Answer : Edit → Type
  | .updateDraft _ | .stamp | .deleteCue _ => Cue
  | .beginEdit _ => Unit
  | .commitDraft => Option Nat

/-- The steps of a command. -/
def steps : (edit : Edit) → Steps edit.Answer
  | .updateDraft fields => Steps.updateDraft fields
  | .stamp => Steps.stamp
  | .beginEdit index => Steps.beginEdit index
  | .commitDraft => Steps.commitDraft
  | .deleteCue index => Steps.deleteCue index

/-- A command as a whole, and what it tells. -/
def whole : (edit : Edit) → Session → Except Error (edit.Answer × Session) × List Log.Record
  | .updateDraft fields, s => (s.updateDraft fields, [])
  | .stamp, s => (s.stamp, [])
  | .beginEdit index, s => ((s.beginEdit index).map ((), ·), [])
  | .commitDraft, s => s.commitDraft
  | .deleteCue index, s => (s.deleteCue index, [])

/-- The index that a command is given. -/
def index? : Edit → Option Int
  | .beginEdit index | .deleteCue index => some index
  | .updateDraft _ | .stamp | .commitDraft => none

end Edit

section Whole

variable {s : Session} {log : List Log.Record}

theorem told_of_ok {α : Type} {whole : Session → Except Error (α × Session) × List Log.Record}
    {a : α} {s' : Session} {records : List Log.Record} (h : whole s = (.ok (a, s'), records)) :
    told whole (s, log) = .ok a (s', log ++ records) := by
  simp only [told, h]

theorem told_of_error {α : Type} {whole : Session → Except Error (α × Session) × List Log.Record}
    {e : Error} {records : List Log.Record} (h : whole s = (.error e, records)) :
    told whole (s, log) = .error e (s, log ++ records) := by
  simp only [told, h]

theorem told_eq_error {α : Type} {whole : Session → Except Error (α × Session) × List Log.Record}
    {e : Error} {s' : Session} {log' : List Log.Record}
    (h : told whole (s, log) = .error e (s', log')) : s' = s ∧ (whole s).1 = .error e := by
  simp only [told] at h
  split at h
  · cases h
  · next hwhole => cases h; exact ⟨rfl, by rw [hwhole]⟩

theorem told_fails_iff {α : Type} {whole : Session → Except Error (α × Session) × List Log.Record} :
    (∃ e sl', told whole (s, log) = .error e sl') ↔ ∃ e, (whole s).1 = .error e := by
  constructor
  · rintro ⟨e, sl', h⟩
    exact ⟨e, (told_eq_error h).2⟩
  · rintro ⟨e, h⟩
    exact ⟨e, _, told_of_error (Prod.ext h rfl)⟩

theorem Steps.onTimeline_of_ok {α : Type} {x : Timeline.Steps α} {a : α} {t : Timeline}
    (h : x s.timeline = .ok a t) :
    onTimeline x (s, log) = .ok a ({ s with timeline := t }, log) := by
  simp only [onTimeline, h]

theorem Steps.onTimeline_of_error {α : Type} {x : Timeline.Steps α} {e : Timeline.OutOfRange}
    {t : Timeline} (h : x s.timeline = .error e t) :
    onTimeline x (s, log) = .error (.outOfRange e) ({ s with timeline := t }, log) := by
  simp only [onTimeline, h]

variable (s log)

theorem steps_beginEdit (index : Int) :
    Steps.beginEdit index (s, log) = told (Edit.beginEdit index).whole (s, log) := by
  have hsteps := s.timeline.steps_beginEdit index
  unfold Steps.beginEdit
  cases hbegun : s.timeline.beginEdit index with
  | ok t =>
    have hwhole : (Edit.beginEdit index).whole s = (.ok ((), { s with timeline := t }), []) := by
      simp only [Edit.whole, Session.beginEdit, hbegun, Except.map]
    rw [atOnce_of_ok (congrArg (Except.map ((), ·)) hbegun)] at hsteps
    rw [Steps.onTimeline_of_ok hsteps, told_of_ok hwhole, List.append_nil]
  | error e =>
    have hwhole : (Edit.beginEdit index).whole s = (.error (.outOfRange e), []) := by
      simp only [Edit.whole, Session.beginEdit, hbegun, Except.map]
    rw [atOnce_of_error (congrArg (Except.map ((), ·)) hbegun)] at hsteps
    rw [Steps.onTimeline_of_error hsteps, told_of_error hwhole, List.append_nil]

theorem steps_updateDraft (fields : Fields) :
    Steps.updateDraft fields (s, log) = told (Edit.updateDraft fields).whole (s, log) := by
  have hsteps : Steps.updateDraft fields (s, log) =
      (match s.timeline.draft.replace (dragged s.timeline.draft fields) with
        | .error issues => throw (.invalidCue issues)
        | .ok draft => do
          Steps.onTimeline (Timeline.Steps.writeDraft draft)
          return draft : Steps Cue) (s, log) := rfl
  rw [hsteps]
  cases hdraft : s.timeline.draft.replace (dragged s.timeline.draft fields) with
  | ok draft =>
    have hwhole : (Edit.updateDraft fields).whole s =
        (.ok (draft, { s with timeline := s.timeline.setDraft draft }), []) := by
      simp only [Edit.whole, Session.updateDraft, hdraft]
    rw [told_of_ok hwhole, List.append_nil]
    rfl
  | error issues =>
    have hwhole : (Edit.updateDraft fields).whole s = (.error (.invalidCue issues), []) := by
      simp only [Edit.whole, Session.updateDraft, hdraft]
    rw [told_of_error hwhole, List.append_nil]
    rfl

theorem Steps.giveUpFrom_eq (index : Int) :
    giveUpFrom index (s, log) =
      .ok () ({ s with timeline := s.timeline.givenUpFrom index }, log) := by
  show (match s.timeline.target with
    | some target => if index ≤ target then onTimeline Timeline.Steps.cancelEdit else return ()
    | none => return () : Steps Unit) (s, log) = _
  unfold Timeline.givenUpFrom
  cases s.timeline.target with
  | none => rfl
  | some target =>
    by_cases hle : index ≤ target
    · simp only [if_pos hle]
      rfl
    · simp only [if_neg hle]
      rfl

theorem steps_deleteCue (index : Int) :
    Steps.deleteCue index (s, log) = told (Edit.deleteCue index).whole (s, log) := by
  have hsteps := s.timeline.steps_delete index
  unfold Steps.deleteCue
  cases hdeleted : s.timeline.delete index with
  | error e =>
    have hwhole : (Edit.deleteCue index).whole s = (.error (.outOfRange e), []) := by
      simp only [Edit.whole, Session.deleteCue, hdeleted]
    rw [atOnce_of_error hdeleted] at hsteps
    rw [bind_of_error (Steps.onTimeline_of_error hsteps), told_of_error hwhole, List.append_nil]
  | ok deleted =>
    obtain ⟨removed, t⟩ := deleted
    have hwhole : (Edit.deleteCue index).whole s =
        (.ok (removed, { s with timeline := t.givenUpFrom index }), []) := by
      simp only [Edit.whole, Session.deleteCue, hdeleted]
      rfl
    rw [atOnce_of_ok hdeleted] at hsteps
    rw [bind_of_ok (Steps.onTimeline_of_ok hsteps), bind_of_ok (Steps.giveUpFrom_eq _ _ index),
      told_of_ok hwhole, List.append_nil]
    rfl

theorem steps_commitDraft :
    Steps.commitDraft (s, log) = told Edit.commitDraft.whole (s, log) := by
  -- the warning stands in the log also if the commit behind it fails
  let warned := log ++ s.pastEnd s.timeline.draft
  let added (index : Option Nat) : List Log.Record :=
    match s.timeline.target, index with
    | none, some i => [addedRecord i s.timeline.draft]
    | _, _ => []
  show (Steps.onTimeline Timeline.Steps.commitDraft >>= fun index =>
    Steps.tell (added index) >>= fun _ => return index) (s, warned) = _
  cases hcommitted : s.timeline.commitDraft with
  | error e =>
    have hsteps : Timeline.Steps.commitDraft s.timeline = .error e s.timeline :=
      s.timeline.steps_commitDraft.trans (atOnce_of_error hcommitted)
    have hwhole : Edit.commitDraft.whole s =
        (.error (.outOfRange e), s.pastEnd s.timeline.draft) := by
      simp only [Edit.whole, Session.commitDraft, hcommitted]
    rw [bind_of_error (Steps.onTimeline_of_error hsteps), told_of_error hwhole]
  | ok committed =>
    obtain ⟨index, t⟩ := committed
    have hsteps : Timeline.Steps.commitDraft s.timeline = .ok index t :=
      s.timeline.steps_commitDraft.trans (atOnce_of_ok hcommitted)
    have hwhole : Edit.commitDraft.whole s =
        (.ok (index, { s with timeline := t }), s.pastEnd s.timeline.draft ++ added index) := by
      simp only [Edit.whole, Session.commitDraft, hcommitted]
      rfl
    rw [bind_of_ok (Steps.onTimeline_of_ok hsteps), told_of_ok hwhole, ← List.append_assoc]
    rfl

/-- Step by step a command does what it does as a whole. -/
theorem Edit.steps_eq (edit : Edit) : edit.steps (s, log) = told edit.whole (s, log) := by
  cases edit with
  | updateDraft fields => exact steps_updateDraft s log fields
  | stamp => exact steps_updateDraft s log _
  | beginEdit index => exact steps_beginEdit s log index
  | commitDraft => exact steps_commitDraft s log
  | deleteCue index => exact steps_deleteCue s log index

/-- A command that names an index fails exactly where there is no cue. -/
theorem Edit.whole_fails_iff {edit : Edit} {index : Int} (h : edit.index? = some index) :
    (∃ e, (edit.whole s).1 = .error e) ↔ ¬ (0 ≤ index ∧ index < s.timeline.cues.length) := by
  rcases s.timeline.index_cases index with ⟨i, rfl⟩ | hout
  · refine iff_of_false ?_ fun hout => hout ⟨by omega, by omega⟩
    rintro ⟨e, he⟩
    cases edit with
    | beginEdit _ =>
      cases h
      simp only [Edit.whole, Session.beginEdit, s.timeline.beginEdit_coe i] at he
      cases he
    | deleteCue _ =>
      cases h
      simp only [Edit.whole, Session.deleteCue, s.timeline.delete_coe i] at he
      cases he
    | _ => cases h
  · refine iff_of_true ?_ hout
    cases edit with
    | beginEdit _ =>
      cases h
      refine ⟨.outOfRange ⟨index, s.timeline.cues.length⟩, ?_⟩
      simp only [Edit.whole, Session.beginEdit, Timeline.beginEdit_of_out hout]
      rfl
    | deleteCue _ =>
      cases h
      refine ⟨.outOfRange ⟨index, s.timeline.cues.length⟩, ?_⟩
      simp only [Edit.whole, Session.deleteCue, Timeline.delete_of_out hout]
    | _ => cases h

end Whole

/-! ## Failures -/

/-- In every state of a timeline or of a session, an operation that fails on the way, its steps
being taken one after another, leaves everything as it was: cues, draft, edit, clock and video; and
it is the failure that the operation has as a whole. An operation that names an index fails exactly
if no cue has it; otherwise only the commit of an edit fails whose cue is not there any more. -/
theorem failed_edit_changes_nothing :
    (∀ (t : Timeline) (op : Timeline.Op),
      (∀ e t', op.steps t = .error e t' → t' = t ∧ op.whole t = .error e) ∧
      ((∃ e t', op.steps t = .error e t') ↔
        (∃ index, op.index? = some index ∧ ¬ (0 ≤ index ∧ index < t.cues.length)) ∨
          op = .commitDraft ∧ ∃ i, t.target = some i ∧ t.cues.length ≤ i)) ∧
    ∀ (s : Session) (log : List Log.Record) (edit : Edit),
      (∀ e s' log', edit.steps (s, log) = .error e (s', log') →
        s' = s ∧ (edit.whole s).1 = .error e) ∧
      ∀ index, edit.index? = some index →
        ((∃ e sl', edit.steps (s, log) = .error e sl') ↔
          ¬ (0 ≤ index ∧ index < s.timeline.cues.length)) := by
  constructor
  · intro t op
    rw [op.steps_eq t]
    refine ⟨fun e t' h => atOnce_eq_error h, ?_⟩
    exact atOnce_fails_iff.trans op.whole_fails_iff
  · intro s log edit
    rw [edit.steps_eq s log]
    refine ⟨fun e s' log' h => told_eq_error h, fun index hindex => ?_⟩
    exact told_fails_iff.trans (Edit.whole_fails_iff s hindex)

end Session

end TimedText
