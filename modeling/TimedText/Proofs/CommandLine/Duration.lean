import TimedText.Proofs.Probe
import TimedText.Proofs.CommandLine.Asked
import TimedText.Proofs.CommandLine.Render

/-!
# A duration that is not known

Before it renders the command asks for the duration of the video. What it is told only tells how far
the video goes: unless the answer is one that stops everything (`Probe.Stops`), the session is
opened, with the duration that was found or with none, and its render starts.
-/

namespace TimedText.CommandLine

/-- The duration of a session that was told this: none, zero, and nothing at all are the same. -/
def durationKnown : Option Double → Double
  | some d => if d.isZero then .zero else d
  | none => .zero

/-- The studio with the duration that was found. -/
def resolved (studio : Studio) (found : Option Double) : Studio :=
  match found with
  | some d => if d.isZero then studio else studio.setDuration d
  | none => studio

section Resolve

variable {studio : Studio} {reply : Probe.Reply} {e : Probe.Error} {found : Option Double}

theorem resolveDuration_of_stops (h : Probe.Stops reply e) :
    resolveDuration studio reply = .error (.probe e) := by
  obtain ⟨hduration, hfatal⟩ := Probe.duration_of_stops h
  simp only [resolveDuration, hduration, hfatal]
  rfl

theorem resolveDuration_of_not_stops (h : ∀ e, ¬ Probe.Stops reply e) :
    resolveDuration studio reply = .ok (resolved studio reply.found) := by
  rcases Probe.duration_of_not_stops h with hfound | ⟨hnone, e, hduration, hpassed⟩
  · simp only [resolveDuration, hfound]
    cases reply.found <;> rfl
  · simp only [resolveDuration, hduration, hpassed, hnone]
    rfl

theorem duration_resolved (untold : studio.session.clock.duration = .zero) :
    (resolved studio found).session.clock.duration = durationKnown found := by
  cases found with
  | none => exact untold
  | some d =>
    simp only [resolved, durationKnown]
    cases d.isZero with
    | true => exact untold
    | false => rfl

end Resolve

namespace Surroundings

variable {s : Surroundings} {words values : List String} {threshold : Log.Level}
  {video : SourceFile} {output path : String} {font : Option SourceFile} {style : Cue.Style}
  {cues : List Cue}

theorem clock_filled (studio : Studio) (cues : List Cue) :
    (filled studio cues).session.clock = studio.session.clock := by
  unfold filled
  induction cues generalizing studio with
  | nil => rfl
  | cons c cues ih => exact ih (studio.addCue c).2

/-- The studio in which the render of a video starts. -/
def opened (s : Surroundings) (path : String) (video : SourceFile) (cues : List Cue) : Studio :=
  filled (resolved ((s.studio path).upload video.data) s.prober.found) cues

theorem duration_opened (s : Surroundings) (path : String) (video : SourceFile) (cues : List Cue) :
    (s.opened path video cues).session.clock.duration = durationKnown s.prober.found := by
  rw [opened, clock_filled]
  exact duration_resolved rfl

/-- The session of an opened studio has the video and the cues, and its render is accepted. -/
theorem prepared_opened (goes : ∀ e, ¬ Probe.Stops s.prober e) (path : String) (video : SourceFile)
    (cues : List Cue) :
    (s.studio path).Prepared (s.opened path video cues) video.data cues :=
  prepared_render (resolveDuration_of_not_stops goes) cues

/-- Behind a request to render, an answer about the duration either stops everything before
anything is rendered or written, or the session is opened with the duration it tells, if any, and
the command goes on to render. -/
theorem render_goes_on_unless_stopped (asks : s.Asks words threshold
      (.render video output font values style)) (prepares : s.Prepares font values style cues path) :
    let probing := Probe.command s.settings.prober video.path
    let ready := s.opened path video cues
    (∀ e, Probe.Stops s.prober e →
        (s.run words).result = .error (.probe e) ∧ (s.run words).started = [probing] ∧
          (s.run words).disk = s.place.disk) ∧
      ((∀ e, ¬ Probe.Stops s.prober e) →
        ready.session.clock.duration = durationKnown s.prober.found ∧
          ready.session.timeline.cues = cues ∧ ready.session.source = some video.data ∧
          (∃ result, ready.startRender.1 = .ok { accepted := true, result := some result }) ∧
          s.run words = s.finish threshold output probing ready.startRender) := by
  intro probing ready
  have hrun : s.run words = s.render threshold video output path cues :=
    (run_of_asks asks).trans (perform_render_of_prepares prepares threshold video output)
  rw [hrun, render_eq_finish]
  refine ⟨fun e hstops => ?_, fun hgoes => ?_⟩
  · simp only [resolveDuration_of_stops hstops]
    exact ⟨rfl, rfl, rfl⟩
  · have hprepared := prepared_opened hgoes path video cues
    simp only [resolveDuration_of_not_stops hgoes]
    exact ⟨s.duration_opened path video cues, hprepared.cues, hprepared.source,
      hprepared.accepted, rfl⟩

/-- An answer with a duration of twelve and a half seconds, written as text. -/
theorem told_duration_is_kept :
    let s := installed (.external installedEncoder)
      (.output "\x7b\"format\": \x7b\"duration\": \"12.5\"\x7d\x7d")
    ∃ cues, (s.opened s.settings.fontPath ⟨"in.mp4", [1, 2]⟩ cues).session.clock.duration =
        .ofRatio false 25 2 ∧
      s.run renderWords = s.finish .info "out.mp4" (Probe.command "ffprobe" "in.mp4")
        (s.opened s.settings.fontPath ⟨"in.mp4", [1, 2]⟩ cues).startRender := by
  intro s
  have hduration : Probe.duration s.prober = .ok (some (.ofRatio false 25 2)) := by decide +kernel
  have hfound : s.prober.found = some (.ofRatio false 25 2) := by decide +kernel
  have hgoes (e : Probe.Error) : ¬ Probe.Stops s.prober e := by
    intro hstops
    have herror := (Probe.duration_of_stops hstops).1
    rw [hduration] at herror
    cases herror
  obtain ⟨cues, hprepares⟩ := prepares_installed s.engine s.prober
  obtain ⟨-, hrender⟩ := render_goes_on_unless_stopped (asks_renderWords (s := s) rfl rfl) hprepares
  obtain ⟨hclock, -, -, -, hrun⟩ := hrender hgoes
  have hknown : durationKnown s.prober.found = .ofRatio false 25 2 := by
    rw [hfound]
    decide +kernel
  exact ⟨cues, hclock.trans hknown, hrun⟩

/-- An answer that is no object, and one whose `format` is none: the command ends before it renders
anything. -/
theorem odd_answers_stop_render :
    let ending (text : String) :=
      (installed (.external installedEncoder) (.output text)).run renderWords
    (ending "[]").result = .error (.probe .notAnObject) ∧
      (ending "\x7b\"format\": [1]\x7d").result = .error (.probe .notAnObject) ∧
      (ending "[]").started = [Probe.command "ffprobe" "in.mp4"] := by
  decide +kernel

end Surroundings

end TimedText.CommandLine
