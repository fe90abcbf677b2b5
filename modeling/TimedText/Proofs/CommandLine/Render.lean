import TimedText.CommandLine.Execution
import TimedText.Proofs.Studio.Asked

/-!
# Which programs `render` starts

The command asks for the duration of the video first, fills the timeline of a fresh session, and
renders it. Until then the studio keeps the tools it was made with (`Studio.Prepared`). So the
encoder is started at most once, for what the cues compile to, and it is started if the surroundings
hold what a render needs (`Equipped`) and the expression of the cues can be written.
-/

namespace TimedText

namespace Studio

variable {s s' s'' : Studio} {video : Bytes} {cues : List Cue}

theorem readFont_of_ok {font : Bytes}
    (h : s.disk.read (PathText.join (Path.ofTexts s.origin.directory) s.font) = .ok font) :
    s.readFont = .ok font := by
  unfold readFont
  rw [h]

/-- `s'` has the tools of `s`, and is about to render these cues over this video. -/
structure Prepared (s s' : Studio) (video : Bytes) (cues : List Cue) : Prop extends
    SameTools s s' where
  atOnce : s'.deferred = false
  source : s'.session.source = some video
  idle : s'.session.orchestrator.isInFlight = false
  cues : s'.session.timeline.cues = cues

theorem Prepared.resolveDuration {reply : Probe.Reply} (h : s.Prepared s' video cues)
    (resolved : CommandLine.resolveDuration s' reply = .ok s'') : s.Prepared s'' video cues := by
  unfold CommandLine.resolveDuration at resolved
  split at resolved
  · next d _ =>
    cases resolved
    split
    · exact h
    · exact ⟨⟨h.engine, h.config, h.font, h.origin, h.disk, h.metrics⟩, h.atOnce, h.source, h.idle,
        h.cues⟩
  · cases resolved
    exact h
  · split at resolved
    · cases resolved
      exact h
    · cases resolved

theorem Prepared.addCues (h : s.Prepared s' video cues) (more : List Cue) :
    s.Prepared (more.foldl (fun s c => (s.addCue c).2) s') video (cues ++ more) := by
  induction more generalizing s' cues with
  | nil =>
    rw [List.append_nil]
    exact h
  | cons c more ih =>
    have hadded : s.Prepared (s'.addCue c).2 video (cues ++ [c]) :=
      ⟨⟨h.engine, h.config, h.font, h.origin, h.disk, h.metrics⟩, h.atOnce, h.source, h.idle,
        congrArg (· ++ [c]) h.cues⟩
    have hall := ih hadded
    rwa [List.append_assoc] at hall

theorem Prepared.session_startRender (h : s.Prepared s' video cues) :
    s'.session.startRender =
      .accepted ⟨{ s'.session with
          orchestrator := { state := .staging, total := s'.session.clock.duration } },
        (s'.session.orchestrator.enter .staging).2, some .staging,
        .submit (.queue video cues)⟩ := by
  rw [Session.startRender, h.source, h.cues]
  simp [Session.start, Render.Orchestrator.start, Render.Orchestrator.enter, h.idle]

theorem Prepared.accepted (h : s.Prepared s' video cues) :
    ∃ result, s'.startRender.1 = .ok { accepted := true, result := some result } := by
  unfold Studio.startRender
  simp only [h.session_startRender, beginRender, change, complete, tell, log, h.atOnce,
    Bool.false_eq_true, if_false]
  exact ⟨_, rfl⟩

/-- What is started is the render of the cues, with the tools there were. -/
theorem Prepared.startRender (h : s.Prepared s' video cues) :
    ∃ accepted : Studio, s'.startRender.2 = (accepted.run (.queue video cues)).2 ∧
      s.SameTools accepted := by
  unfold Studio.startRender
  simp only [h.session_startRender, beginRender, change, complete, tell, log, h.atOnce,
    Bool.false_eq_true, if_false]
  exact ⟨_, rfl, h.engine, h.config, h.font, h.origin, h.disk, h.metrics⟩

end Studio

namespace CommandLine.Surroundings

variable {s : Surroundings} {x : Studio.External} {home : Path}

/-- The name of the font of the settings. -/
def fontName (s : Surroundings) : String := PathText.lastName s.settings.fontPath

/-- Everything is there that a render needs up to the work of the encoder: a directory for it, that
takes the video and the font in, a font that can be read, and an answer about the duration, be it
that there is none. -/
structure Equipped (s : Surroundings) (x : Studio.External) (home : Path) : Prop where
  usable : x.workspace.Usable s.place.disk home
  readable : ∃ font,
    s.place.disk.read (PathText.join (Path.ofTexts s.place.origin.directory) s.settings.fontPath) =
      .ok font
  isName : Workspace.IsName s.fontName
  clean : '\x00' ∉ s.fontName.toList
  input : x.workspace.Suits (x.workspace.ready s.place.disk) home (Filter.inputName : Disk.Name)
  fits : x.workspace.Suits (x.workspace.ready s.place.disk) home (s.fontName : Disk.Name)
  probed : ∀ e, Probe.duration s.prober = .error e → e.isTolerated = true

theorem prepared_upload (s : Surroundings) (font : String) (video : Bytes) :
    (s.studio font).Prepared ((s.studio font).upload video) video [] :=
  ⟨⟨rfl, rfl, rfl, rfl, rfl, rfl⟩, rfl, rfl, rfl, rfl⟩

theorem prepared_render {font : String} {video : Bytes} {studio : Studio}
    (resolved : resolveDuration ((s.studio font).upload video) s.prober = .ok studio)
    (cues : List Cue) :
    (s.studio font).Prepared (cues.foldl (fun studio c => (studio.addCue c).2) studio) video cues :=
  ((s.prepared_upload font video).resolveDuration resolved).addCues cues

theorem started_finish (s : Surroundings) (threshold : Log.Level) (output : String)
    (probing : List String) (made : Except Session.Error Studio.Acceptance × Studio) :
    (s.finish threshold output probing made).started = probing :: made.2.engine.runs := by
  unfold finish
  simp only
  split
  · rfl
  · split
    · split
      · rfl
      · split <;> rfl
    · rfl

theorem started_render (s : Surroundings) (threshold : Log.Level) (video : SourceFile)
    (output font : String) (cues : List Cue) :
    (s.render threshold video output font cues).started =
      Probe.command s.settings.prober video.path ::
        match resolveDuration ((s.studio font).upload video.data) s.prober with
        | .error _ => []
        | .ok studio =>
          (cues.foldl (fun studio c => (studio.addCue c).2) studio).startRender.2.engine.runs := by
  unfold render
  simp only
  cases resolveDuration ((s.studio font).upload video.data) s.prober with
  | error f => rfl
  | ok studio => exact s.started_finish threshold output _ _

/-- The command line of the encoder for cues. -/
def encoding (s : Surroundings) (x : Studio.External) (cues : List Cue) : List String :=
  Encoder.command x.config (Filter.compile s.fontName s.settings.box cues).encoderArguments

/-- The encoder is started at most once, for what the cues compile to. -/
theorem started_render_cases (engine : s.engine = .external x) (fresh : x.runs = [])
    (threshold : Log.Level) (video : SourceFile) (output : String) (cues : List Cue) :
    let started := (s.render threshold video output s.settings.fontPath cues).started
    started = [Probe.command s.settings.prober video.path] ∨
      started = [Probe.command s.settings.prober video.path, s.encoding x cues] := by
  intro started
  have hstarted : started = _ := s.started_render threshold video output s.settings.fontPath cues
  rw [hstarted]
  cases hresolved : resolveDuration ((s.studio s.settings.fontPath).upload video.data) s.prober with
  | error f => exact .inl rfl
  | ok studio =>
    have hprepared := prepared_render hresolved cues
    obtain ⟨accepted, hrun, htools⟩ := hprepared.startRender
    simp only [hrun]
    rcases Studio.engine_run (htools.engine.trans engine) video.data cues with
      ⟨hruns, -⟩ | ⟨hruns, -⟩
    · left
      rw [hruns, Studio.Engine.runs, fresh]
    · right
      rw [hruns, Studio.asked, htools.config]
      simp only [Studio.Engine.runs, Studio.External.started, fresh]
      rfl

/-- The encoder is not started for cues whose expression cannot be written. -/
theorem started_render_of_not_written (engine : s.engine = .external x) (fresh : x.runs = [])
    {cues : List Cue} (notWritten : ¬ Filter.IsWritten s.settings.box cues)
    (threshold : Log.Level) (video : SourceFile) (output : String) :
    (s.render threshold video output s.settings.fontPath cues).started =
      [Probe.command s.settings.prober video.path] := by
  rw [started_render]
  cases hresolved : resolveDuration ((s.studio s.settings.fontPath).upload video.data) s.prober with
  | error f => rfl
  | ok studio =>
    have hprepared := prepared_render hresolved cues
    obtain ⟨accepted, hrun, htools⟩ := hprepared.startRender
    have hruns : (accepted.run (.queue video.data cues)).2.engine = _ :=
      Studio.engine_run_of_not_written (htools.engine.trans engine)
        (htools.config ▸ notWritten) video.data
    simp only [hrun, hruns, Studio.Engine.runs, fresh]

/-- Where everything is there, the encoder is started. -/
theorem started_render_of_equipped (engine : s.engine = .external x) (fresh : x.runs = [])
    (h : s.Equipped x home) {cues : List Cue} (written : Filter.IsWritten s.settings.box cues)
    (threshold : Log.Level) (video : SourceFile) (output : String) :
    (s.render threshold video output s.settings.fontPath cues).started =
      [Probe.command s.settings.prober video.path, s.encoding x cues] := by
  rw [started_render]
  cases hresolved : resolveDuration ((s.studio s.settings.fontPath).upload video.data) s.prober with
  | error f =>
    -- a fault of probing that ends everything is ruled out
    unfold resolveDuration at hresolved
    split at hresolved
    · cases hresolved
    · cases hresolved
    · next e hprobed =>
      rw [if_pos (h.probed e hprobed)] at hresolved
      cases hresolved
  | ok studio =>
    have hprepared := prepared_render hresolved cues
    obtain ⟨accepted, hrun, htools⟩ := hprepared.startRender
    obtain ⟨font, hread⟩ := h.readable
    have hreadable : accepted.readFont = .ok font :=
      htools.readFont.trans (Studio.readFont_of_ok hread)
    obtain ⟨hengine, hconfig, -, -, hdisk, -⟩ := htools
    have husable : x.workspace.Usable accepted.disk home := hdisk ▸ h.usable
    have hruns : (accepted.run (.queue video.data cues)).2.engine = _ :=
      Studio.engine_run_of_staged (hengine.trans engine) husable hreadable (hconfig ▸ h.isName)
        (hconfig ▸ h.clean) (hdisk ▸ h.input) (hdisk ▸ hconfig ▸ h.fits) (hconfig ▸ written)
        video.data
    simp only [hrun, hruns, Studio.asked, hconfig, Studio.Engine.runs, Studio.External.started,
      fresh]
    rfl

end CommandLine.Surroundings

end TimedText
