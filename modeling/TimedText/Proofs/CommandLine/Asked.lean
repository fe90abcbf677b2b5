import TimedText.Proofs.CommandLine.Agreement

/-!
# From a command line to its request

A command line is refused, or answered with a text, or it asks for a request that is carried out
(`run_cases`). A request to render is refused if its cues or its font are none; else the render is
prepared, made, and finished, where finishing is all that a render leads to (`render_eq_finish`).
-/

namespace TimedText.CommandLine.Surroundings

variable {s : Surroundings} {words values : List String} {threshold : Log.Level}
  {request : Request} {video : SourceFile} {output path : String} {font : Option SourceFile}
  {style : Cue.Style} {cues : List Cue}

/-- Words ask for a request, to be carried out at a threshold of the log: they name a command, and
what stands behind it can be read. -/
inductive Asks (s : Surroundings) (words : List String) : Log.Level → Request → Prop
  | intro {general said : Words} {name : String} {rest : List String} {c : Command}
      {threshold : Log.Level} {request : Request}
      (first : readWords generalParameters false words = .ok general)
      (unasked : general.has .help = false)
      (uncompleted : (general.has .installCompletion || general.has .showCompletion) = false)
      (free : general.free = name :: rest)
      (command : commandOf general.free name = .ok (.command c))
      (logs : s.thresholdOf general = .ok threshold)
      (behind : readWords c.parameters true rest = .ok said)
      (fine : Request.ofWords s.place c said = .ok request) :
      Asks s words threshold request

theorem run_of_asks (h : s.Asks words threshold request) :
    s.run words = s.perform threshold request := by
  obtain ⟨first, unasked, uncompleted, free, command, logs, behind, fine⟩ := h
  rw [run_of_command first unasked uncompleted free command logs behind, fine]

theorem run_cases (s : Surroundings) (words : List String) :
    (∃ f, s.run words = s.refuse f) ∨ (∃ text, s.run words = s.say text) ∨
      ∃ threshold request, s.Asks words threshold request := by
  unfold run
  split
  · exact .inl ⟨_, rfl⟩
  next general first =>
  split
  · exact .inr (.inl ⟨_, rfl⟩)
  next unasked =>
  split
  · exact .inr (.inl ⟨_, rfl⟩)
  next uncompleted =>
  split
  · exact .inl ⟨_, rfl⟩
  next name rest free =>
  split
  · exact .inl ⟨_, rfl⟩
  · exact .inr (.inl ⟨_, rfl⟩)
  next c command =>
  split
  · exact .inl ⟨_, rfl⟩
  next threshold logs =>
  cases behind : readWords c.parameters true rest with
  | error refusal => exact .inl ⟨_, rfl⟩
  | ok said =>
    cases fine : Request.ofWords s.place c said with
    | error p =>
      exact .inl ⟨.problem p, by simp only [Except.mapError, bind, Except.bind, fine]⟩
    | ok request =>
      exact .inr (.inr ⟨threshold, request, .intro first (Bool.eq_false_iff.mpr unasked)
        (Bool.eq_false_iff.mpr uncompleted) free command logs behind fine⟩)

/-! ## Rendering -/

/-- What is burned in, and with which font: the cues that are typed, and the font that is named, or
else the one of the settings. -/
structure Prepares (s : Surroundings) (font : Option SourceFile) (values : List String)
    (style : Cue.Style) (cues : List Cue) (path : String) : Prop where
  cues : readCues values style = .ok cues
  font : match font with
    | some file => path = file.path
    | none => s.defaultFont = .ok path

theorem perform_render_of_prepares (h : s.Prepares font values style cues path)
    (threshold : Log.Level) (video : SourceFile) (output : String) :
    s.perform threshold (.render video output font values style) =
      s.render threshold video output path cues := by
  obtain ⟨hcues, hfont⟩ := h
  cases font with
  | some file =>
    cases hfont
    simp only [perform, hcues]
    rfl
  | none =>
    simp only [perform, hcues, hfont]
    rfl

theorem perform_render_cases (s : Surroundings) (threshold : Log.Level) (video : SourceFile)
    (output : String) (font : Option SourceFile) (values : List String) (style : Cue.Style) :
    (∃ f, s.perform threshold (.render video output font values style) = s.refuse f) ∨
      ∃ cues path, s.Prepares font values style cues path := by
  cases hcues : readCues values style with
  | error p => exact .inl ⟨.problem p, by simp only [perform, hcues]; rfl⟩
  | ok cues =>
    cases font with
    | some file => exact .inr ⟨cues, file.path, hcues, rfl⟩
    | none =>
      cases hfont : s.defaultFont with
      | error p => exact .inl ⟨.problem p, by simp only [perform, hcues, hfont]; rfl⟩
      | ok path => exact .inr ⟨cues, path, hcues, hfont⟩

/-- The studio in which a render is about to start. -/
def filled (studio : Studio) (cues : List Cue) : Studio :=
  cues.foldl (fun studio c => (studio.addCue c).2) studio

theorem render_eq_finish (s : Surroundings) (threshold : Log.Level) (video : SourceFile)
    (output path : String) (cues : List Cue) :
    s.render threshold video output path cues =
      let probing := Probe.command s.settings.prober video.path
      let studio := (s.studio path).upload video.data
      match resolveDuration studio s.prober with
      | .error f =>
        { s.refuse f with errors := s.logLines threshold studio.records, started := [probing] }
      | .ok studio => s.finish threshold output probing (filled studio cues).startRender := by
  unfold render
  rfl

/-! ## In an installation -/

/-- Words that ask for a cue to be burned into the video of an installation. -/
def renderWords : List String := ["render", "in.mp4", "-o", "out.mp4", "-c", "0,1,Hi"]

/-- An installation with this engine and this answer about the duration. -/
def installed (engine : Studio.Engine) (reply : Probe.Reply) : Surroundings :=
  { installation with engine, prober := reply }

/-- Whatever else there is in the place of an installation, the words ask for the render. -/
theorem asks_renderWords {s : Surroundings} (place : s.place = installation.place)
    (settings : s.settings = installation.settings) :
    s.Asks renderWords .info
      (.render ⟨"in.mp4", [1, 2]⟩ "out.mp4" none ["0,1,Hi"] plainStyle) := by
  have first : readWords generalParameters false renderWords = .ok { free := renderWords } := by
    decide +kernel
  have behind : readWords Command.render.parameters true (renderWords.drop 1) =
      .ok { given := [(.output, "out.mp4"), (.cue, "0,1,Hi")], free := ["in.mp4"] } := by
    decide +kernel
  have fine : Request.ofWords installation.place .render
      { given := [(.output, "out.mp4"), (.cue, "0,1,Hi")], free := ["in.mp4"] } =
        .ok (.render ⟨"in.mp4", [1, 2]⟩ "out.mp4" none ["0,1,Hi"] plainStyle) := by
    decide +kernel
  have logs : Log.thresholdOfWord installation.settings.logLevel = .ok .info := by decide +kernel
  rw [← place] at fine
  rw [← settings] at logs
  exact .intro first rfl rfl rfl rfl logs behind fine

theorem prepares_installed (engine : Studio.Engine) (reply : Probe.Reply) :
    ∃ cues, (installed engine reply).Prepares none ["0,1,Hi"] plainStyle cues
      installation.settings.fontPath := by
  have hfont : (installed engine reply).defaultFont = .ok installation.settings.fontPath := by
    simp only [defaultFont, installed]
    decide +kernel
  have hread : (readCues ["0,1,Hi"] plainStyle).toBool = true := by decide +kernel
  cases hcues : readCues ["0,1,Hi"] plainStyle with
  | error p =>
    rw [hcues] at hread
    cases hread
  | ok cues => exact ⟨cues, hcues, hfont⟩

end TimedText.CommandLine.Surroundings
