import Mathlib.Data.List.InsertIdx
import Mathlib.Data.List.Nodup
import TimedText.Proofs.Session.Command

/-!
# Which cue a pending edit means

The timeline knows the cue under edit by its place alone, and places shift. A `Roll` keeps the
identity of cues beside a session: every cue that enters the timeline is given the next number and
keeps it until it is deleted, whatever is written over it. The roll goes by numbers only, so that an
edit is written under the number that was picked.

The two say the same after any run (`agrees_run`): the timeline holds the cues that were not
deleted, once each and in the order of their numbers, as they were last written, and the place
under edit is where the picked number stands.
-/

namespace TimedText.Session

/-- The numbers given to the cues of a session. -/
structure Roll where
  /-- What was last written under each number. Numbers count from zero. -/
  written : List Cue := []
  /-- The numbers of deleted cues. -/
  dropped : List Nat := []
  /-- The number under edit, and what stood under it when it was picked. -/
  picked : Option (Nat × Cue) := none

namespace Roll

/-- The numbers that are still in use, in the order in which they were given out. -/
def kept (r : Roll) : List Nat := (List.range r.written.length).filter (· ∉ r.dropped)

/-- What was last written under a number. -/
def value (r : Roll) (n : Nat) : Cue := r.written[n]?.getD .blank

/-- The cues that are still there. -/
def cues (r : Roll) : List Cue := r.kept.map r.value

/-- The number of the cue at an index. -/
def number? (r : Roll) (index : Int) : Option Nat :=
  if 0 ≤ index then r.kept[index.toNat]? else none

/-- A cue is given the next number. -/
def enter (r : Roll) (c : Cue) : Roll := { r with written := r.written ++ [c] }

/-- An edit of a number begins. -/
def pick (r : Roll) (n : Nat) : Roll := { r with picked := some (n, r.value n) }

/-- Nothing is under edit. -/
def giveUp (r : Roll) : Roll := { r with picked := none }

/-- Something else is written under a number, and the edit is over. -/
def write (r : Roll) (n : Nat) (c : Cue) : Roll :=
  { r with written := r.written.set n c, picked := none }

/-- A number is not in use any more. An edit of it, or of one that came later, is given up. -/
def drop (r : Roll) (n : Nat) : Roll :=
  { r with dropped := n :: r.dropped, picked := r.picked.filter (·.1 < n) }

/-- The roll behind a command of the session, the draft being what it was before. -/
def after (r : Roll) (draft : Cue) : Command → Roll
  | .addCue c => r.enter c
  | .beginEdit index =>
    match r.number? index with
    | some n => r.pick n
    | none => r
  | .cancelEdit => r.giveUp
  | .commitDraft =>
    match r.picked with
    | some (n, _) => r.write n draft
    | none => if draft.isBlank then r else r.enter draft
  | .deleteCue index =>
    match r.number? index with
    | some n => r.drop n
    | none => r
  | _ => r

/-! ## Numbers in use -/

variable {r : Roll}

theorem mem_kept {n : Nat} : n ∈ r.kept ↔ n < r.written.length ∧ n ∉ r.dropped := by
  simp [kept]

theorem kept_increasing (r : Roll) : r.kept.Pairwise (· < ·) :=
  List.pairwise_lt_range.filter _

theorem kept_nodup (r : Roll) : r.kept.Nodup :=
  r.kept_increasing.imp Nat.ne_of_lt

/-- The order of places is the order of numbers. -/
theorem kept_lt_iff {i j : Nat} (hi : i < r.kept.length) (hj : j < r.kept.length) :
    r.kept[i] < r.kept[j] ↔ i < j := by
  have hmono := List.pairwise_iff_getElem.mp r.kept_increasing
  constructor
  · intro h
    rcases Nat.lt_trichotomy i j with hij | rfl | hji
    · exact hij
    · exact absurd h (Nat.lt_irrefl _)
    · exact absurd (hmono j i hj hi hji) (Nat.lt_asymm h)
  · exact hmono i j hi hj

theorem number?_coe (i : Nat) (hi : i < r.kept.length) : r.number? i = some r.kept[i] := by
  unfold number?
  rw [if_pos (by omega), Int.toNat_natCast, List.getElem?_eq_getElem hi]

theorem number?_of_out {index : Int} (h : ¬ (0 ≤ index ∧ index < r.kept.length)) :
    r.number? index = none := by
  unfold number?
  split
  · exact List.getElem?_eq_none (by omega)
  · rfl

/-! ## What a step does to the cues of a roll -/

/-- Only numbers that were given out are dropped. -/
def Sound (r : Roll) : Prop := ∀ n ∈ r.dropped, n < r.written.length

theorem kept_enter (h : r.Sound) (c : Cue) :
    (r.enter c).kept = r.kept ++ [r.written.length] := by
  have hfresh : r.written.length ∉ r.dropped := fun hmem => Nat.lt_irrefl _ (h _ hmem)
  have hself : [r.written.length].filter (· ∉ r.dropped) = [r.written.length] :=
    List.filter_eq_self.mpr (by simpa using hfresh)
  show (List.range (r.written ++ [c]).length).filter (· ∉ r.dropped) = _
  rw [List.length_append, List.length_singleton, List.range_succ, List.filter_append, hself]
  rfl

theorem kept_write (n : Nat) (c : Cue) : (r.write n c).kept = r.kept := by
  show (List.range (r.written.set n c).length).filter _ = _
  rw [List.length_set]
  rfl

theorem kept_drop (i : Nat) (hi : i < r.kept.length) :
    (r.drop r.kept[i]).kept = r.kept.eraseIdx i := by
  rw [← r.kept_nodup.erase_getElem i hi, r.kept_nodup.erase_eq_filter]
  show (List.range r.written.length).filter _ = ((List.range r.written.length).filter _).filter _
  rw [List.filter_filter]
  apply List.filter_congr
  intro n _
  by_cases hn : n = r.kept[i]
  · simp [drop, hn]
  · simp [drop, hn]

theorem value_enter_of_lt {n : Nat} (h : n < r.written.length) (c : Cue) :
    (r.enter c).value n = r.value n := by
  simp [value, enter, List.getElem?_append_left h]

theorem cues_enter (h : r.Sound) (c : Cue) : (r.enter c).cues = r.cues ++ [c] := by
  have hnew : (r.enter c).value r.written.length = c := by simp [value, enter]
  unfold cues
  rw [kept_enter h, List.map_append, List.map_singleton, hnew]
  congr 1
  apply List.map_congr_left
  intro n hn
  exact value_enter_of_lt (mem_kept.mp hn).1 c

/-- Writing under a number changes the cue that has it, wherever that stands, and no other. -/
theorem cues_write (i : Nat) (hi : i < r.kept.length) (c : Cue) :
    (r.write r.kept[i] c).cues = r.cues.set i c := by
  have hlt : r.kept[i] < r.written.length := (mem_kept.mp (List.getElem_mem hi)).1
  apply List.ext_getElem
  · simp [cues, kept_write]
  · intro j hj hj'
    have hjk : j < r.kept.length := by simpa [cues] using hj'
    have hget : (r.write r.kept[i] c).cues[j] =
        ((r.written.set r.kept[i] c)[r.kept[j]]?).getD .blank := by
      simp only [cues, List.getElem_map, kept_write]
      rfl
    rw [hget, List.getElem_set]
    by_cases hij : i = j
    · subst hij
      simp [hlt]
    · have hne : r.kept[i] ≠ r.kept[j] :=
        fun heq => hij ((r.kept_nodup.getElem_inj_iff).mp heq)
      simp [hij, List.getElem?_set_ne hne, cues, value]

theorem cues_drop (i : Nat) (hi : i < r.kept.length) :
    (r.drop r.kept[i]).cues = r.cues.eraseIdx i := by
  unfold cues
  rw [kept_drop i hi, List.eraseIdx_map]
  rfl

end Roll

/-! ## A session and its roll -/

/-- The cues of a timeline and its place under edit say what a roll says. -/
structure Agrees (cues : List Cue) (target : Option Nat) (r : Roll) : Prop where
  sound : r.Sound
  cues : cues = r.cues
  idle : target = none → r.picked = none
  /-- The cue under edit is the one that was picked, and as it was when it was picked. -/
  edits : ∀ i, target = some i →
    ∃ n, r.kept[i]? = some n ∧ r.picked = some (n, r.value n)

namespace Agrees

variable {cues : List Cue} {target : Option Nat} {r : Roll}

theorem length_eq (h : Agrees cues target r) : cues.length = r.kept.length := by
  rw [h.cues, Roll.cues, List.length_map]

theorem getElem?_cues (h : Agrees cues target r) {i n : Nat} (hn : r.kept[i]? = some n) :
    cues[i]? = some (r.value n) := by
  rw [h.cues, Roll.cues, List.getElem?_map, hn]
  rfl

theorem enter (h : Agrees cues target r) (c : Cue) :
    Agrees (cues ++ [c]) target (r.enter c) where
  sound := by
    intro n hn
    have := h.sound n hn
    show n < (r.written ++ [c]).length
    rw [List.length_append]
    omega
  cues := by rw [Roll.cues_enter h.sound, h.cues]
  idle := h.idle
  edits := by
    intro i hi
    obtain ⟨n, hn, hpick⟩ := h.edits i hi
    have hlt := (Roll.mem_kept.mp (List.mem_of_getElem? hn)).1
    refine ⟨n, ?_, ?_⟩
    · obtain ⟨hi, -⟩ := List.getElem?_eq_some_iff.mp hn
      rw [Roll.kept_enter h.sound, List.getElem?_append_left hi, hn]
    · rw [Roll.value_enter_of_lt hlt]
      exact hpick

theorem pick (h : Agrees cues target r) (i : Nat) (hi : i < r.kept.length) :
    Agrees cues (some i) (r.pick r.kept[i]) where
  sound := h.sound
  cues := h.cues
  idle := nofun
  edits := by
    intro j hj
    cases hj
    exact ⟨r.kept[i], List.getElem?_eq_getElem hi, rfl⟩

theorem giveUp (h : Agrees cues target r) : Agrees cues none r.giveUp where
  sound := h.sound
  cues := h.cues
  idle := fun _ => rfl
  edits := nofun

theorem write (h : Agrees cues target r) (i : Nat) (hi : i < r.kept.length) (draft : Cue) :
    Agrees (cues.set i draft) none (r.write r.kept[i] draft) where
  sound := by
    intro n hn
    show n < (r.written.set r.kept[i] draft).length
    rw [List.length_set]
    exact h.sound n hn
  cues := by rw [h.cues, Roll.cues_write i hi draft]
  idle := fun _ => rfl
  edits := nofun

/-- Places and numbers are in the same order, so that an edit is given up by place exactly when it
is by number; in front of the deleted cue both stay what they are. -/
theorem drop (h : Agrees cues target r) (i : Nat) (hi : i < r.kept.length) :
    Agrees (cues.eraseIdx i) (target.filter (· < i)) (r.drop r.kept[i]) where
  sound := by
    intro n hn
    rcases List.mem_cons.mp hn with rfl | hn
    · exact (Roll.mem_kept.mp (List.getElem_mem hi)).1
    · exact h.sound n hn
  cues := by rw [h.cues, Roll.cues_drop]
  idle := by
    intro hnone
    show r.picked.filter (·.1 < r.kept[i]) = none
    cases htarget : target with
    | none => rw [h.idle htarget]; rfl
    | some k =>
      obtain ⟨n, hn, hpick⟩ := h.edits k htarget
      obtain ⟨hk, rfl⟩ := List.getElem?_eq_some_iff.mp hn
      have hik : ¬ k < i := by simpa [htarget] using hnone
      have hnum : ¬ r.kept[k] < r.kept[i] := mt (Roll.kept_lt_iff hk hi).mp hik
      simpa [hpick] using hnum
  edits := by
    intro k hk
    obtain ⟨htarget, hki⟩ := Option.filter_eq_some_iff.mp hk
    have hki : k < i := of_decide_eq_true hki
    obtain ⟨n, hn, hpick⟩ := h.edits k htarget
    refine ⟨n, ?_, ?_⟩
    · rw [Roll.kept_drop i hi, List.getElem?_eraseIdx_of_lt hki, hn]
    · obtain ⟨hlt, rfl⟩ := List.getElem?_eq_some_iff.mp hn
      have hnum : r.kept[k] < r.kept[i] := (Roll.kept_lt_iff hlt hi).mpr hki
      show r.picked.filter (·.1 < r.kept[i]) = some (r.kept[k], r.value r.kept[k])
      rw [hpick]
      simp [hnum]

end Agrees

/-! ## Runs -/

/-- Steps of a session and of its roll beside it. -/
def run (sr : Session × Roll) (cs : List Command) : Session × Roll :=
  cs.foldl (fun sr c => (sr.1.after c, sr.2.after sr.1.timeline.draft c)) sr

/-- A step keeps a session and its roll in agreement. -/
theorem agrees_after {s : Session} {r : Roll} (h : Agrees s.timeline.cues s.timeline.target r)
    (c : Command) :
    Agrees (s.after c).timeline.cues (s.after c).timeline.target
      (r.after s.timeline.draft c) := by
  have hlen := h.length_eq
  cases c with
  | addCue c => exact h.enter c
  | beginEdit index =>
    rcases s.timeline.index_cases index with ⟨i, rfl⟩ | hout
    · have hi : i < r.kept.length := by omega
      rw [s.timeline_beginEdit i, Roll.after, Roll.number?_coe i hi]
      exact h.pick i hi
    · rw [(s.after_of_out hout).1, Roll.after, Roll.number?_of_out (by omega)]
      exact h
  | cancelEdit => exact h.giveUp
  | updateDraft fields =>
    obtain ⟨draft, hdraft⟩ := s.timeline_updateDraft fields
    rw [hdraft]
    exact h
  | stamp =>
    obtain ⟨draft, hdraft⟩ := s.timeline_stamp
    rw [hdraft]
    exact h
  | commitDraft =>
    cases htarget : s.timeline.target with
    | some i =>
      obtain ⟨n, hn, hpick⟩ := h.edits i htarget
      obtain ⟨hi, rfl⟩ := List.getElem?_eq_some_iff.mp hn
      rw [s.after_commitDraft (s.commitDraft_of_target htarget (by omega)), Roll.after, hpick]
      exact h.write i hi s.timeline.draft
    | none =>
      have hidle := h.idle htarget
      cases hb : s.timeline.draft.isBlank with
      | true =>
        rw [s.after_commitDraft (s.commitDraft_of_blank htarget hb), Roll.after, hidle]
        simpa [hb] using h
      | false =>
        rw [s.after_commitDraft (s.commitDraft_of_shown htarget hb), Roll.after, hidle]
        simpa [hb] using h.enter s.timeline.draft
  | deleteCue index =>
    rcases s.timeline.index_cases index with ⟨i, rfl⟩ | hout
    · have hi : i < r.kept.length := by omega
      rw [s.timeline_deleteCue i, Roll.after, Roll.number?_coe i hi]
      exact h.drop i hi
    · rw [(s.after_of_out hout).2, Roll.after, Roll.number?_of_out (by omega)]
      exact h
  | upload data =>
    rw [s.timeline_upload data]
    exact h
  | startRender =>
    rw [s.timeline_startRender]
    exact h
  | setTime t => exact h
  | setDuration d => exact h
  | rendering o => exact h

/-- Any run of a session that made its own timeline keeps the two in agreement. -/
theorem agrees_run (clock : Clock) (o : Render.Orchestrator) (cs : List Command) :
    Agrees (run (fresh clock o, {}) cs).1.timeline.cues
      (run (fresh clock o, {}) cs).1.timeline.target (run (fresh clock o, {}) cs).2 := by
  suffices hkeep : ∀ (sr : Session × Roll),
      Agrees sr.1.timeline.cues sr.1.timeline.target sr.2 →
      Agrees (run sr cs).1.timeline.cues (run sr cs).1.timeline.target (run sr cs).2 by
    apply hkeep
    exact ⟨nofun, rfl, fun _ => rfl, nofun⟩
  induction cs with
  | nil => exact fun _ h => h
  | cons c cs ih => exact fun sr h => ih _ (agrees_after h c)

/-- After any run of a session that made its own timeline, the cues stand in the order in which
they were added, none lost or doubled but by deletion; the edit that is pending, if one is, means
the cue that was picked, which has not changed since; and the draft can always be committed, over
exactly that cue while one is edited. -/
theorem pending_edit_means_picked_cue (clock : Clock) (o : Render.Orchestrator)
    (cs : List Command) :
    let s := (run (fresh clock o, {}) cs).1
    let r := (run (fresh clock o, {}) cs).2
    s.timeline.cues = r.kept.map r.value ∧ r.kept.Pairwise (· < ·) ∧
    (∀ n, n ∈ r.kept ↔ n < r.written.length ∧ n ∉ r.dropped) ∧
    (∀ i, s.timeline.target = some i → ∃ n c, r.picked = some (n, c) ∧
      r.kept[i]? = some n ∧ s.timeline.cues[i]? = some c) ∧
    (∃ index s', s.commitDraft.1 = .ok (index, s') ∧
      ∀ i, s.timeline.target = some i → index = some i ∧ i < s.timeline.cues.length ∧
        s'.timeline.cues = s.timeline.cues.set i s.timeline.draft) := by
  intro s r
  have h : Agrees s.timeline.cues s.timeline.target r := agrees_run clock o cs
  refine ⟨h.cues, r.kept_increasing, fun n => Roll.mem_kept, ?_, ?_⟩
  · intro i hi
    obtain ⟨n, hn, hpick⟩ := h.edits i hi
    exact ⟨n, r.value n, hpick, hn, h.getElem?_cues hn⟩
  · cases htarget : s.timeline.target with
    | some i =>
      obtain ⟨n, hn, -⟩ := h.edits i htarget
      have hi : i < s.timeline.cues.length := by
        rw [h.length_eq]
        exact (List.getElem?_eq_some_iff.mp hn).1
      refine ⟨_, _, s.commitDraft_of_target htarget hi, ?_⟩
      intro j hj
      cases hj
      exact ⟨rfl, hi, rfl⟩
    | none =>
      cases hb : s.timeline.draft.isBlank with
      | true => exact ⟨_, _, s.commitDraft_of_blank htarget hb, nofun⟩
      | false => exact ⟨_, _, s.commitDraft_of_shown htarget hb, nofun⟩

end TimedText.Session
