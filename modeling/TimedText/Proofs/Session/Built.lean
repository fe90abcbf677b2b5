import Mathlib.Data.List.Basic
import TimedText.Proofs.Filter.Printed
import TimedText.Proofs.Session.Commit

/-!
# The cues that a session holds

A session holds its draft and the committed cues. Every step leaves each of them as it was, drops
it, puts the blank cue in its place, or changes fields of the draft (`held_after`). So a property
that the blank cue has and that changes keep holds of all of them after any run (`held_run`). Being
built from raw fields is such a property, and cues that are built are sound. The main statement says
so of every run.
-/

namespace TimedText

/-- The draft and the committed cues. -/
def Timeline.held (t : Timeline) : List Cue := t.draft :: t.cues

namespace Session

open Cue (Built)

/-- A property of the blank cue that changes of fields keep. -/
structure Lasting (P : Cue → Prop) : Prop where
  blank : P .blank
  replace : ∀ {c c' : Cue} {changes : Fields}, P c → c.replace changes = .ok c' → P c'

theorem Built.lasting : Lasting Built := ⟨Cue.Built.blank, Cue.Built.replace⟩

/-! ## One step -/

section Step

variable {P : Cue → Prop} {s : Session}

/-- The draft is changed, or left as it is. -/
theorem held_updateDraft (lasting : Lasting P) (h : ∀ c ∈ s.timeline.held, P c) (fields : Fields) :
    ∀ c ∈ (s.after (.updateDraft fields)).timeline.held, P c := by
  obtain ⟨hdraft, hcues⟩ := List.forall_mem_cons.mp h
  simp only [after, updateDraft]
  cases hreplaced : s.timeline.draft.replace (dragged s.timeline.draft fields) with
  | ok draft => exact List.forall_mem_cons.mpr ⟨lasting.replace hdraft hreplaced, hcues⟩
  | error issues => exact h

theorem held_beginEdit (h : ∀ c ∈ s.timeline.held, P c) (index : Int) :
    ∀ c ∈ (s.after (.beginEdit index)).timeline.held, P c := by
  obtain ⟨hdraft, hcues⟩ := List.forall_mem_cons.mp h
  rcases s.timeline.index_cases index with ⟨i, rfl⟩ | hout
  · rw [s.timeline_beginEdit i]
    exact List.forall_mem_cons.mpr ⟨hcues _ (List.get_mem _ i), hcues⟩
  · rw [(s.after_of_out hout).1]
    exact h

theorem held_deleteCue (lasting : Lasting P) (h : ∀ c ∈ s.timeline.held, P c) (index : Int) :
    ∀ c ∈ (s.after (.deleteCue index)).timeline.held, P c := by
  obtain ⟨hdraft, hcues⟩ := List.forall_mem_cons.mp h
  rcases s.timeline.index_cases index with ⟨i, rfl⟩ | hout
  · rw [s.timeline_deleteCue i]
    refine List.forall_mem_cons.mpr ⟨?_, fun c hc => hcues c (List.mem_of_mem_eraseIdx hc)⟩
    show P (if _ then s.timeline.draft else .blank)
    split
    · exact hdraft
    · exact lasting.blank
  · rw [(s.after_of_out hout).2]
    exact h

/-- A commit writes the draft among the cues or drops it, and leaves a blank one. -/
theorem held_commitDraft (lasting : Lasting P) (h : ∀ c ∈ s.timeline.held, P c) :
    ∀ c ∈ (s.after .commitDraft).timeline.held, P c := by
  obtain ⟨hdraft, hcues⟩ := List.forall_mem_cons.mp h
  cases htarget : s.timeline.target with
  | none =>
    cases hblank : s.timeline.draft.isBlank with
    | true =>
      rw [s.after_commitDraft (s.commitDraft_of_blank htarget hblank)]
      exact List.forall_mem_cons.mpr ⟨lasting.blank, hcues⟩
    | false =>
      rw [s.after_commitDraft (s.commitDraft_of_shown htarget hblank)]
      refine List.forall_mem_cons.mpr ⟨lasting.blank, fun c hc => ?_⟩
      rcases List.mem_append.mp hc with hc | hc
      · exact hcues c hc
      · exact List.mem_singleton.mp hc ▸ hdraft
  | some i =>
    by_cases hi : i < s.timeline.cues.length
    · rw [s.after_commitDraft (s.commitDraft_of_target htarget hi)]
      refine List.forall_mem_cons.mpr ⟨lasting.blank, fun c hc => ?_⟩
      rcases List.mem_or_eq_of_mem_set hc with hc | rfl
      · exact hcues c hc
      · exact hdraft
    · -- the edit of a cue that is not there any more fails
      have hstale := Timeline.commitDraft_of_stale s.timeline htarget (Nat.not_lt.mp hi)
      have hsame : s.after .commitDraft = s := by
        simp only [after, Session.commitDraft, hstale]
      rw [hsame]
      exact h

/-- What every step keeps of the cues that a session holds. -/
theorem held_after (lasting : Lasting P) (h : ∀ c ∈ s.timeline.held, P c) (command : Command)
    (added : ∀ c, command = .addCue c → P c) :
    ∀ c ∈ (s.after command).timeline.held, P c := by
  obtain ⟨hdraft, hcues⟩ := List.forall_mem_cons.mp h
  cases command with
  | addCue c =>
    refine List.forall_mem_cons.mpr ⟨hdraft, fun d hd => ?_⟩
    rcases List.mem_append.mp hd with hd | hd
    · exact hcues d hd
    · exact List.mem_singleton.mp hd ▸ added c rfl
  | beginEdit index => exact held_beginEdit h index
  | cancelEdit => exact List.forall_mem_cons.mpr ⟨lasting.blank, hcues⟩
  | updateDraft fields => exact held_updateDraft lasting h fields
  | stamp => exact held_updateDraft lasting h _
  | commitDraft => exact held_commitDraft lasting h
  | deleteCue index => exact held_deleteCue lasting h index
  | upload data =>
    rw [s.timeline_upload data]
    exact h
  | startRender =>
    rw [s.timeline_startRender]
    exact h
  | setTime t => exact h
  | setDuration d => exact h
  | rendering o => exact h

end Step

/-! ## Runs -/

/-- The session behind some commands. -/
def afterAll (s : Session) (commands : List Command) : Session := commands.foldl after s

theorem held_run {P : Cue → Prop} (lasting : Lasting P) {commands : List Command} {s : Session}
    (h : ∀ c ∈ s.timeline.held, P c) (added : ∀ c, .addCue c ∈ commands → P c) :
    ∀ c ∈ (s.afterAll commands).timeline.held, P c := by
  induction commands generalizing s with
  | nil => exact h
  | cons command commands ih =>
    refine ih (s := s.after command) (held_after lasting h command ?_) fun c hc =>
      added c (List.mem_cons_of_mem _ hc)
    rintro c rfl
    exact added c List.mem_cons_self

theorem held_openOn {P : Cue → Prop} (lasting : Lasting P) {clock : Clock} {timeline : Timeline}
    (h : ∀ c ∈ timeline.held, P c) : ∀ c ∈ (openOn clock timeline).timeline.held, P c := by
  show ∀ c ∈ (if timeline.cues.isEmpty then {} else timeline : Timeline).held, P c
  split
  · exact List.forall_mem_cons.mpr ⟨lasting.blank, nofun⟩
  · exact h

/-- Cues are sound however they came about, and a session holds no others. What `build` asks is what
the fields are asked one by one, and that the span is not reversed; every cue that is built so, and
changed any number of times, has sound values. A change keeps the fields that it does not name, and
giving fields the values that they have changes nothing. A session that is opened on built cues and
fed with built cues and any raw fields holds built cues alone, and so does the snapshot of a render
that it begins. The expression of that snapshot can be written, as far as whole numbers are printed
that are as long as its sizes of letters and the border of the box. -/
theorem built_cues_are_held :
    (∀ fields, (Cue.build fields).map Cue.values = Cue.Values.ofFields fields) ∧
    (∀ c, Built c → c.values.Sound) ∧
    (∀ (c c' : Cue) changes, c.replace changes = .ok c' →
      ∀ name ∈ Cue.fieldNames, changes.lookup name = none →
        c'.fields.lookup name = c.fields.lookup name) ∧
    (∀ (c : Cue) changes, (∀ p ∈ changes, p ∈ c.fields) → c.replace changes = .ok c) ∧
    ∀ clock timeline commands, (∀ c ∈ timeline.held, Built c) →
      (∀ c, .addCue c ∈ commands → Built c) →
      let s := (openOn clock timeline).afterAll commands
      (∀ c ∈ s.timeline.held, Built c) ∧
      ∀ change, s.startRender = .accepted change → ∃ run, change.pending = .submit run ∧
        run.cues = s.timeline.cues ∧
        ∀ font box g, Filter.compile? font box (run.cues.map Cue.values) = .ok g ↔
          (∀ c ∈ run.cues, c.isBlank = false →
            IsPrinted c.fontSize ∧ IsPrinted box.border) ∧
          Filter.compile font box run.cues = g := by
  refine ⟨Cue.build_values, fun c built => built.sound,
    fun c c' changes h name hname unnamed => Cue.lookup_fields_replace h hname unnamed,
    fun c changes h => Cue.replace_own h, ?_⟩
  intro clock timeline commands hheld added
  have hopened : ∀ c ∈ (openOn clock timeline).timeline.held, Built c :=
    held_openOn Built.lasting hheld
  have hbuilt := held_run Built.lasting hopened added
  refine ⟨hbuilt, fun change haccepted => ?_⟩
  obtain ⟨source, hpending⟩ := exists_submit_of_startRender haccepted
  exact ⟨_, hpending, rfl, fun font box g => Filter.compile?_eq_ok_iff⟩

/-- Fields as they are typed: numbers as text, a truth value for a time. -/
def typedFields : Fields :=
  [("text", .text "Hi"), ("start_time", .bool true), ("end_time", .text " 1.5e1 "),
   ("font_size", .text "+32.0"), ("font_color", .text "#00ffAA")]

/-- The cue that they describe. -/
def typedCue : Cue where
  text := "Hi"
  start := .ofNat 1
  stop := .ofNat 15
  fontSize := 32
  color := "#00ffAA"
  position := .middle
  start_nonneg := by decide +kernel
  start_le_stop := by decide +kernel
  fontSize_pos := by decide
  color_valid := by decide +kernel

/-- It stays in a session that refuses to begin it at no number at all, and is burned at the top. -/
def typedCommands : List Command :=
  [.addCue typedCue, .upload [1, 2, 3], .beginEdit 0, .updateDraft [("start_time", .text "nan")],
   .updateDraft [("position", .text "top")], .commitDraft]

theorem typed_cue_is_held :
    Built typedCue ∧ typedCue.values.Sound ∧
      (∃ c, typedCue.replace [("position", .text "top")] = .ok c ∧
        c.fields.lookup "start_time" = typedCue.fields.lookup "start_time") ∧
      typedCue.replace [("text", .text "Hi"), ("font_size", .int 32)] = .ok typedCue ∧
      (∀ c ∈ ((openOn default {}).afterAll typedCommands).timeline.held, Built c) ∧
      ∃ change run, ((openOn default {}).afterAll typedCommands).startRender = .accepted change ∧
        change.pending = .submit run ∧ run.cues.map (·.position) = [.top] ∧
        Filter.compile? "Studio.ttf" {} (run.cues.map Cue.values) =
          .ok (Filter.compile "Studio.ttf" {} run.cues) := by
  obtain ⟨-, hsound, hkept, hown, hsession⟩ := built_cues_are_held
  have hread : Cue.build typedFields = .ok typedCue := by decide +kernel
  have hbuilt : Built typedCue := .build hread
  have hchanged : typedCue.replace [("position", .text "top")] =
      .ok { typedCue with position := .top } := by decide +kernel
  have hadded : ∀ c, .addCue c ∈ typedCommands → Built c := by
    intro c hc
    simp only [typedCommands, List.mem_cons, Command.addCue.injEq, reduceCtorEq, List.not_mem_nil,
      or_false] at hc
    exact hc ▸ hbuilt
  obtain ⟨hheld, hrender⟩ := hsession default {} typedCommands
    (List.forall_mem_cons.mpr ⟨Cue.Built.blank, nofun⟩) hadded
  obtain ⟨change, haccepted⟩ := (startRender_accepted_iff
    ((openOn default {}).afterAll typedCommands)).mpr (by decide +kernel)
  obtain ⟨run, hpending, hcues, hwritten⟩ := hrender change haccepted
  refine ⟨hbuilt, hsound _ hbuilt, ⟨_, hchanged, ?_⟩, ?_, hheld, change, run, haccepted, hpending,
    ?_, ?_⟩
  · exact hkept _ _ _ hchanged "start_time" (by decide) (by decide)
  · exact hown _ _ (by decide +kernel)
  · rw [hcues]
    decide +kernel
  · refine (hwritten "Studio.ttf" {} _).mpr ⟨?_, rfl⟩
    rw [hcues]
    decide +kernel

end Session

end TimedText
