import TimedText.Timeline

/-!
# What the operations of a timeline do

An index names a cue or it does not (`index_cases`). For each operation that takes an index there
is one lemma for either case: it does one thing to the named cue, or nothing but an error comes
back. Later modules cite these and do not open the operations.
-/

namespace TimedText.Timeline

variable (t : Timeline)

theorem index_cases (index : Int) :
    (∃ i : Fin t.cues.length, index = (i : Nat)) ∨
      ¬ (0 ≤ index ∧ index < t.cues.length) := by
  by_cases h : 0 ≤ index ∧ index < t.cues.length
  · left
    refine ⟨⟨index.toNat, by omega⟩, ?_⟩
    show index = (index.toNat : Nat)
    omega
  · exact .inr h

/-! ## Indices that name a cue -/

theorem locate_coe (i : Fin t.cues.length) : t.locate (i : Nat) = .ok i := by
  unfold locate
  rw [dif_pos ⟨by omega, by omega⟩]
  rfl

theorem update_coe (i : Fin t.cues.length) (c : Cue) :
    t.update (i : Nat) c = .ok { t with cues := t.cues.set i c } := by
  unfold update
  rw [locate_coe]
  rfl

theorem delete_coe (i : Fin t.cues.length) :
    t.delete (i : Nat) = .ok (t.cues.get i, { t with cues := t.cues.eraseIdx i }) := by
  unfold delete
  rw [locate_coe]
  rfl

theorem beginEdit_coe (i : Fin t.cues.length) :
    t.beginEdit (i : Nat) = .ok { t with draft := t.cues.get i, target := some i } := by
  unfold beginEdit
  rw [locate_coe]
  rfl

/-! ## Indices that name none -/

section Out

variable {t} {index : Int} (h : ¬ (0 ≤ index ∧ index < t.cues.length))
include h

theorem locate_of_out : t.locate index = .error ⟨index, t.cues.length⟩ := by
  unfold locate
  rw [dif_neg h]

theorem update_of_out (c : Cue) : t.update index c = .error ⟨index, t.cues.length⟩ := by
  unfold update
  rw [locate_of_out h]
  rfl

theorem delete_of_out : t.delete index = .error ⟨index, t.cues.length⟩ := by
  unfold delete
  rw [locate_of_out h]
  rfl

theorem beginEdit_of_out : t.beginEdit index = .error ⟨index, t.cues.length⟩ := by
  unfold beginEdit
  rw [locate_of_out h]
  rfl

end Out

/-! ## Writing the draft -/

/-- A draft that edits a cue is written over it, and the edit is over. -/
theorem commitDraft_of_target {i : Nat} (h : t.target = some i) (hi : i < t.cues.length) :
    t.commitDraft = .ok (some i,
      { t with cues := t.cues.set i t.draft, draft := .blank, target := none }) := by
  have hup := t.update_coe ⟨i, hi⟩ t.draft
  unfold commitDraft
  rw [h]
  show (do let t' ← t.update (i : Int) t.draft; return (some i, t'.cancelEdit)) = _
  rw [hup]
  rfl

/-- An edit of a cue that is not there any more cannot be committed. -/
theorem commitDraft_of_stale {i : Nat} (h : t.target = some i) (hi : t.cues.length ≤ i) :
    t.commitDraft = .error ⟨i, t.cues.length⟩ := by
  have hup : t.update (i : Int) t.draft = .error ⟨i, t.cues.length⟩ :=
    update_of_out (by omega) t.draft
  unfold commitDraft
  rw [h]
  show (do let t' ← t.update (i : Int) t.draft; return (some i, t'.cancelEdit)) = _
  rw [hup]
  rfl

/-- A new draft without visible text is dropped. -/
theorem commitDraft_of_blank (h : t.target = none) (hb : t.draft.isBlank = true) :
    t.commitDraft = .ok (none, { t with draft := .blank }) := by
  unfold commitDraft
  rw [h]
  show (if t.draft.isBlank = true then _ else _) = _
  rw [if_pos hb]
  rfl

/-- A new draft that shows something is added at the end. -/
theorem commitDraft_of_shown (h : t.target = none) (hb : t.draft.isBlank = false) :
    t.commitDraft = .ok (some t.cues.length,
      { t with cues := t.cues ++ [t.draft], draft := .blank }) := by
  unfold commitDraft
  rw [h]
  show (if t.draft.isBlank = true then _ else _) = _
  rw [if_neg (by rw [hb]; exact Bool.false_ne_true), ← h]
  rfl

end TimedText.Timeline
