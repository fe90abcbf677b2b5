import TimedText.Proofs.Render.Arguments
import TimedText.Proofs.Render.Outcome
import TimedText.Proofs.Session.Command

/-!
# A new draft from the preview to the video

While a new cue is written the preview shows the committed cues and the draft, once it shows
something. That is what the commit makes of the timeline (`commitDraft_of_new`), so nobody who looks
at the preview sees the commit, and a render that is accepted behind it burns what was previewed.
-/

namespace TimedText.Session

open Render (Course)

/-- Without an edit the cues of the preview are committed, and the draft is blank again. -/
theorem commitDraft_of_new (s : Session) (h : s.timeline.target = none) :
    s.commitDraft.1 =
      .ok (if s.timeline.draft.isBlank then none else some s.timeline.cues.length,
        { s with timeline := { cues := s.effectiveCues } }) := by
  cases hb : s.timeline.draft.isBlank with
  | true =>
    rw [s.commitDraft_of_blank h hb]
    simp [effectiveCues, Timeline.effectiveCues, Timeline.effective, h, hb]
  | false =>
    rw [s.commitDraft_of_shown h hb]
    simp [effectiveCues, Timeline.effectiveCues, Timeline.effective, h, hb]

/-- A timeline whose draft is blank is previewed as it is committed. -/
theorem effectiveCues_of_committed (s : Session) (cues : List Cue) :
    { s with timeline := { cues } : Session }.effectiveCues = cues := by
  have hblank : Cue.blank.isBlank = true := by decide +kernel
  simp [effectiveCues, Timeline.effectiveCues, Timeline.effective, hblank]

/-- A render is accepted if there is a video and no render is in flight, and it takes the committed
cues. -/
theorem startRender_accepted_iff (s : Session) :
    (∃ change, s.startRender = .accepted change) ↔
      s.source.isSome = true ∧ s.orchestrator.isInFlight = false := by
  unfold startRender start Render.Orchestrator.start
  cases s.source with
  | none => simp
  | some source => cases s.orchestrator.isInFlight <;> simp

theorem exists_submit_of_startRender {s : Session} {change : Change}
    (h : s.startRender = .accepted change) :
    ∃ source, change.pending = .submit (.queue source s.timeline.cues) := by
  cases hsource : s.source with
  | none =>
    rw [startRender, hsource] at h
    cases h
  | some source =>
    rw [startRender, hsource] at h
    exact ⟨source, (Render.start_eq_accepted h).2.2⟩

/-- What is previewed while a new cue is written is what is committed, and what is burned. The
commit succeeds, and neither the cues of the preview nor those on screen at any time tell it
happened. A request to render right behind it is accepted as ever, its snapshot compiles to what the
preview before the commit compiles to, and nothing else is asked of the encoder. -/
theorem new_draft_is_burned_as_previewed (s : Session) (h : s.timeline.target = none) :
    ∃ index s', s.commitDraft.1 = .ok (index, s') ∧
      s'.timeline.cues = s.effectiveCues ∧
      s'.effectiveCues = s.effectiveCues ∧
      s'.visibleCues = s.visibleCues ∧
      (∀ t, (s'.setTime t).visibleCues = (s.setTime t).visibleCues) ∧
      ((∃ change, s'.startRender = .accepted change) ↔
        s.source.isSome = true ∧ s.orchestrator.isInFlight = false) ∧
      ∀ change, s'.startRender = .accepted change → ∃ run, change.pending = .submit run ∧
        (∀ font box, Filter.compile font box run.cues = Filter.compile font box s.effectiveCues) ∧
        ∀ c ds r, Course c run ds r → ∀ d ∈ ds, ∀ arguments, d.request = .encode arguments →
          arguments = (Filter.compile c.font c.box s.effectiveCues).encoderArguments := by
  -- behind the commit the draft is blank, so that the preview is the committed cues alone
  have heffective := s.effectiveCues_of_committed s.effectiveCues
  refine ⟨_, _, s.commitDraft_of_new h, rfl, heffective, ?_, fun t => ?_, ?_, ?_⟩
  · exact congrArg (Preview.visible · s.clock.time) heffective
  · exact congrArg (Preview.visible · t) heffective
  · exact startRender_accepted_iff _
  · intro change haccepted
    obtain ⟨source, hpending⟩ := exists_submit_of_startRender haccepted
    refine ⟨_, hpending, fun font box => rfl, ?_⟩
    intro c ds r hcourse d hd arguments asked
    exact hcourse.arguments_eq (Render.Run.compiled_queue c source _) hd asked

/-- A session with a video, one committed cue, and a second one that is being written. -/
def secondCueDrafted : Session where
  clock := { time := .zero, offset := .zero }
  source := some [1, 2, 3]
  timeline := { cues := [{ Cue.blank with text := "Hello" }]
                draft := { Cue.blank with text := "world" } }

/-- Both cues are on screen before the commit and behind it, and a render burns them both. -/
theorem second_draft_is_burned_as_previewed :
    secondCueDrafted.timeline.target = none ∧ ∃ index s' change run,
      secondCueDrafted.commitDraft.1 = .ok (index, s') ∧
      secondCueDrafted.visibleCues.map (·.text) = ["Hello", "world"] ∧
      s'.visibleCues = secondCueDrafted.visibleCues ∧
      s'.startRender = .accepted change ∧ change.pending = .submit run ∧
      Filter.compile "Studio.ttf" {} run.cues =
        Filter.compile "Studio.ttf" {} secondCueDrafted.effectiveCues := by
  obtain ⟨index, s', hcommitted, -, -, hvisible, -, haccepts, hburned⟩ :=
    new_draft_is_burned_as_previewed secondCueDrafted rfl
  obtain ⟨change, haccepted⟩ := haccepts.mpr ⟨rfl, rfl⟩
  obtain ⟨run, hpending, hcompiled, -⟩ := hburned change haccepted
  exact ⟨rfl, index, s', change, run, hcommitted, by decide +kernel, hvisible, haccepted, hpending,
    hcompiled "Studio.ttf" {}⟩

end TimedText.Session
