import TimedText.Proofs.CommandLine.Output
import TimedText.Proofs.CommandLine.Render
import TimedText.Proofs.CommandLine.Request
import TimedText.Proofs.CommandLine.Sizes

/-!
# The three commands agree

The same words about cues mean the same cues behind every command. Where they are no cues, every
command refuses them for the same reason before it does anything. Where they are, `preview` lists
those of them that are on screen, and `filtergraph` shows what `render` hands to the encoder. That
much holds of the expression; what is written of it has lost the sequences that control a terminal,
so it is shown as it is handed on exactly if it holds none. Where the border of the settings has too
many digits to be printed, there is no expression, and neither command goes further.
-/

namespace TimedText.CommandLine.Surroundings

variable {s : Surroundings} {threshold : Log.Level} {c : Command} {look : List String}
  {said : Words} {style : Cue.Style}

/-! ## From words to a request -/

/-- Behind a command that is named, with a log that is set up, the words say what is asked for. -/
theorem run_of_command {words rest : List String} {general said : Words} {name : String}
    (first : readWords generalParameters false words = .ok general)
    (unasked : general.has .help = false)
    (uncompleted : (general.has .installCompletion || general.has .showCompletion) = false)
    (free : general.free = name :: rest) (command : commandOf general.free name = .ok (.command c))
    (logs : s.thresholdOf general = .ok threshold)
    (behind : readWords c.parameters true rest = .ok said) :
    s.run words =
      match Request.ofWords s.place c said with
      | .error p => s.refuse (.problem p)
      | .ok request => s.perform threshold request := by
  rw [free] at command
  simp only [run, first, unasked, uncompleted, free, command, logs, behind, Bool.false_eq_true,
    if_false]
  rfl

theorem run_eq (logs : Log.thresholdOfWord s.settings.logLevel = .ok threshold)
    (read : readWords c.parameters true look = .ok said) :
    s.run (c.name :: look) =
      match Request.ofWords s.place c said with
      | .error p => s.refuse (.problem p)
      | .ok request => s.perform threshold request := by
  -- the name of a command is the first word that is no option, so no general word stands before it
  have hgeneral : readWords generalParameters false (c.name :: look) =
      .ok { free := c.name :: look } := by
    have hname : c.name ≠ "--" ∧ isOption c.name = false := by cases c <;> decide
    rw [readWords, if_neg hname.1, hname.2, if_neg Bool.false_ne_true, if_neg Bool.false_ne_true]
  have hcommand : commandOf (c.name :: look) c.name = .ok (.command c) := by
    unfold commandOf
    have hname : Command.ofName? c.name = some c := by cases c <;> decide
    rw [hname]
  exact run_of_command hgeneral rfl rfl rfl hcommand logs read

/-! ## Typed cues -/

/-- The first typed cue that is none is refused. -/
theorem readCues_of_malformed {values : List String}
    (h : ∃ value ∈ values, ∃ e, Cue.ofOption style value = .error e) :
    ∃ before value after e, values = before ++ value :: after ∧
      (∀ v ∈ before, ∃ c, Cue.ofOption style v = .ok c) ∧ Cue.ofOption style value = .error e ∧
      readCues values style = .error (.badCue e) := by
  unfold readCues
  induction values with
  | nil =>
    obtain ⟨value, hvalue, -⟩ := h
    cases hvalue
  | cons first values ih =>
    rw [List.mapM_cons]
    cases hfirst : Cue.ofOption style first with
    | error e => exact ⟨[], first, values, e, rfl, nofun, hfirst, rfl⟩
    | ok c =>
      have hrest : ∃ value ∈ values, ∃ e, Cue.ofOption style value = .error e := by
        obtain ⟨value, hvalue, e, malformed⟩ := h
        rcases List.mem_cons.mp hvalue with rfl | hvalue
        · rw [hfirst] at malformed
          cases malformed
        · exact ⟨value, hvalue, e, malformed⟩
      obtain ⟨before, value, after, e, rfl, hbefore, malformed, hread⟩ := ih hrest
      refine ⟨first :: before, value, after, e, rfl, ?_, malformed, ?_⟩
      · exact List.forall_mem_cons.mpr ⟨⟨c, hfirst⟩, hbefore⟩
      · rw [hread]
        rfl

section Perform

variable {values : List String}

theorem perform_of_badCue (s : Surroundings) (threshold : Log.Level) (file : SourceFile)
    (output : String) (t : Double) {e : Cue.OptionError}
    (h : readCues values style = .error (.badCue e)) :
    s.perform threshold (.filtergraph values style) = s.refuse (.problem (.badCue e)) ∧
      s.perform threshold (.preview t values style) = s.refuse (.problem (.badCue e)) ∧
      s.perform threshold (.render file output none values style) =
        s.refuse (.problem (.badCue e)) := by
  refine ⟨?_, ?_, ?_⟩ <;> simp only [perform, h]
  rfl

theorem perform_render {file : SourceFile} {output : String} {cues : List Cue}
    (installed : s.defaultFont = .ok s.settings.fontPath)
    (h : readCues values style = .ok cues) :
    s.perform threshold (.render file output none values style) =
      s.render threshold file output s.settings.fontPath cues := by
  simp only [perform, h, installed]
  rfl

end Perform

/-! ## Agreement -/

/-- What the encoder is started with for an overlay, or without one. -/
def encodingOf (x : Studio.External) (overlay : Option String) : List String :=
  Encoder.command x.config (["-i", "input.mp4"] ++ overlay.elim [] (["-vf", ·])
    ++ ["-c:a", "copy", "output.mp4"])

theorem encoding_eq (x : Studio.External) (cues : List Cue) :
    s.encoding x cues =
      encodingOf x (Filter.compile s.fontName s.settings.box cues).overlay? :=
  congrArg (Encoder.command x.config) (Filter.encoderArguments_eq _)

/-- The three commands agree on their cues, told in any words that all of them know, if what else
they are told is in order. A look that cannot be read, or the first cue that is none, is refused by
all of them alike, before anything is started or written. Else `preview` lists the cues on screen in
their order, and `filtergraph` writes what `render` hands to the encoder behind `-vf`, or that it
hands nothing on. What is written has lost the sequences that control a terminal, so it is what is
handed on exactly if that holds none. Of cues that are to be seen behind a border of too many digits
no expression is written: `filtergraph` stops, and `render` does not start the encoder. -/
theorem commands_agree_on_cues {x : Studio.External} (engine : s.engine = .external x)
    (fresh : x.runs = []) (installed : s.defaultFont = .ok s.settings.fontPath)
    (logs : Log.thresholdOfWord s.settings.logLevel = .ok threshold)
    (read : readWords Command.filtergraph.parameters true look = .ok said)
    (bare : said.free = []) (unasked : said.has .help = false)
    {time : String} {t : Double} (htime : readTime time = .ok t)
    {video output : String} {file : SourceFile} (plain : isOption video = false)
    (hfile : readFile s.place .video video = .ok file)
    (houtput : readTarget s.place .output output = .ok output) :
    let graphed := s.run ("filtergraph" :: look)
    let previewed := s.run ("preview" :: "--at" :: time :: look)
    let rendered := s.run ("render" :: video :: "--output" :: output :: look)
    let refused (p : Problem) := graphed = s.refuse (.problem p) ∧
      previewed = s.refuse (.problem p) ∧ rendered = s.refuse (.problem p)
    ((∃ e, said.style = .error e) → ∃ p, refused p) ∧
    ∀ style, said.style = .ok style →
      ((∃ value ∈ said.values .cue, ∃ e, Cue.ofOption style value = .error e) →
        ∃ before value after e, said.values .cue = before ++ value :: after ∧
          (∀ v ∈ before, ∃ c, Cue.ofOption style v = .ok c) ∧
          Cue.ofOption style value = .error e ∧ refused (.badCue e)) ∧
      ∀ cues, readCues (said.values .cue) style = .ok cues →
        previewed = s.say (match Preview.visible cues t with
          | [] => "No cues visible at " ++ t.general ++ "s"
          | visible => String.intercalate "\n" (visible.map cueLine)) ∧
        let probing := Probe.command s.settings.prober file.path
        let printed := ∀ c ∈ cues, c.isBlank = false → IsPrinted s.settings.box.border
        (¬ printed →
          graphed = s.refuse (.fault Filter.notWritten) ∧ rendered.started = [probing]) ∧
        (printed → ∃ overlay : Option String,
          let text := overlay.getD "(no overlay stage)" ++ "\n"
          graphed.result = .ok 0 ∧ graphed.output = Text.plain text ∧
          (graphed.output = text ↔ ∀ tail, tail <:+ text.toList → Text.sequenceLength tail = 0) ∧
          (graphed.output = "(no overlay stage)\n" ↔ overlay = none) ∧
          (rendered.started = [probing] ∨ rendered.started = [probing, encodingOf x overlay]) ∧
          ∀ home, s.Equipped x home → rendered.started = [probing, encodingOf x overlay]) := by
  intro graphed previewed rendered refused
  have hreads := reads_of_readWords read
  -- what `filtergraph` knows the others know too, and their own words are added to it
  have only : ∀ p ∈ said.options, p ∈ common := by
    intro p hp
    obtain ⟨given, hgiven, rfl⟩ := Words.mem_options.mp hp
    exact hreads.mem_of_given given hgiven
  have hgraphed : graphed = _ := run_eq (c := .filtergraph) logs read
  have hpreviewed : previewed = _ := run_eq (c := .preview) logs (hreads.forPreview time).readWords
  have hrendered : rendered = _ :=
    run_eq (c := .render) logs (hreads.forRender output plain).readWords
  rcases requests_alike only bare unasked htime hfile houtput with
    ⟨style, hstyle, hgraph, hlook, hvideo⟩ | ⟨⟨e, hstyle⟩, p, hgraph, hlook, hvideo⟩
  · rw [hgraph] at hgraphed
    rw [hlook] at hpreviewed
    rw [hvideo] at hrendered
    refine ⟨?_, ?_⟩
    · rintro ⟨e, he⟩
      rw [hstyle] at he
      cases he
    intro style' hstyle'
    cases hstyle.symm.trans hstyle'
    refine ⟨?_, ?_⟩
    · intro h
      obtain ⟨before, value, after, e, hvalues, hbefore, malformed, hread⟩ :=
        readCues_of_malformed h
      obtain ⟨hg, hp, hr⟩ := perform_of_badCue s threshold file output t hread
      exact ⟨before, value, after, e, hvalues, hbefore, malformed, hgraphed.trans hg,
        hpreviewed.trans hp, hrendered.trans hr⟩
    · intro cues hread
      have hshown : graphed = s.filtergraph cues :=
        hgraphed.trans (by simp only [perform, hread])
      have hlisted : previewed = s.say (previewText cues t) :=
        hpreviewed.trans (by simp only [perform, hread])
      have hstarted := hrendered.trans (perform_render installed hread)
      have hwritten := isWritten_iff_of_readCues hstyle hread s.settings.box
      refine ⟨hlisted, fun unprinted => ?_, fun printed => ?_⟩
      · have hnot := mt hwritten.mp unprinted
        rw [hshown, hstarted]
        exact ⟨filtergraph_of_not_written hnot,
          started_render_of_not_written engine fresh hnot threshold file output⟩
      · have hwritten := hwritten.mpr printed
        refine ⟨(Filter.compile s.fontName s.settings.box cues).overlay?, ?_⟩
        rw [hshown, filtergraph_of_written hwritten, hstarted, ← encoding_eq]
        refine ⟨rfl, rfl, Text.plain_eq_self_iff _,
          lineOf_eq_noOverlay_iff s.fontName s.settings.box cues,
          started_render_cases engine fresh threshold file output cues, fun home equipped => ?_⟩
        exact started_render_of_equipped engine fresh equipped hwritten threshold file output
  · rw [hgraph] at hgraphed
    rw [hlook] at hpreviewed
    rw [hvideo] at hrendered
    refine ⟨fun _ => ⟨p, hgraphed, hpreviewed, hrendered⟩, ?_⟩
    intro style' hstyle'
    rw [hstyle] at hstyle'
    cases hstyle'

/-! ## An installation -/

/-- The look of a cue where nothing is said about it. -/
def plainStyle : Cue.Style := { fontSize := .int 24, color := .text "#FFFFFF", position := .middle }

/-- An encoder in its directory. -/
def installedEncoder : Studio.External where
  config := { binary := "ffmpeg" }
  workspace := { directory := ["tmp", "timed-text"], label := "/tmp/timed-text", owned := true }

/-- Surroundings with a font and a video, in which the duration is not known. -/
def installation : Surroundings where
  settings := Settings.defaults "/app"
  place :=
    { disk := ⟨[(["tmp"], .directory), (["tmp", "timed-text"], .directory), (["app"], .directory),
        (["app", "fonts"], .directory), (["app", "fonts", Filter.defaultFont], .file [7]),
        (["app", "in.mp4"], .file [1, 2])]⟩
      origin := { directory := ["app"] } }
  engine := .external installedEncoder
  prober := .failed 1

theorem equipped_installation : installation.Equipped installedEncoder ["tmp", "timed-text"] := by
  have hat : installedEncoder.workspace.IsAt installation.place.disk ["tmp", "timed-text"] := by
    decide +kernel
  have hready := hat.ready_eq
  have hfont : PathText.join (Path.ofTexts installation.place.origin.directory)
      installation.settings.fontPath = Path.ofTexts ["app", "fonts", Filter.defaultFont] := by
    decide +kernel
  refine ⟨hat.usable, ⟨[7], ?_⟩, by decide +kernel, by decide +kernel, ?_, ?_, ?_⟩
  · rw [hfont]
    decide +kernel
  · rw [hready]
    decide +kernel
  · rw [hready]
    decide +kernel
  · intro e he
    cases he
    rfl

/-- A text with a comma and a quote, and one that is blank. -/
theorem comma_and_quote_agree :
    let look := cueWords ["0,1,Hi, it's", "2,3, "] "24" "#FFFFFF" "middle"
    installation.Equipped installedEncoder ["tmp", "timed-text"] ∧
    ∃ overlay : Option String, overlay ≠ none ∧
      (installation.run ("filtergraph" :: look)).output = Text.plain (overlay.getD "" ++ "\n") ∧
      (installation.run ("preview" :: "--at" :: "0.5" :: look)).output =
        "[0.0s ~ 1.0s] Hi, it's @ bottom 50%\n" ∧
      (installation.run ("render" :: "in.mp4" :: "--output" :: "out.mp4" :: look)).started =
        [Probe.command "ffprobe" "in.mp4", encodingOf installedEncoder overlay] := by
  intro look
  have engine : installation.engine = .external installedEncoder := rfl
  have installed : installation.defaultFont = .ok installation.settings.fontPath := by
    decide +kernel
  have logs : Log.thresholdOfWord installation.settings.logLevel = .ok .info := by decide +kernel
  have read := readWords_cueWords ["0,1,Hi, it's", "2,3, "] "24" "#FFFFFF" "middle"
  have htime : readTime "0.5" = .ok (.ofRatio false 1 2) := by decide +kernel
  have hfile : readFile installation.place .video "in.mp4" = .ok ⟨"in.mp4", [1, 2]⟩ := by
    decide +kernel
  have houtput : readTarget installation.place .output "out.mp4" = .ok "out.mp4" := by
    decide +kernel
  have hstyle : (cueWordsSaid ["0,1,Hi, it's", "2,3, "] "24" "#FFFFFF" "middle").style =
      .ok plainStyle := by
    decide +kernel
  obtain ⟨-, hagree⟩ := commands_agree_on_cues engine rfl installed logs read rfl rfl htime
    (by decide) hfile houtput
  obtain ⟨-, hcues⟩ := hagree _ hstyle
  rw [values_cueWordsSaid] at hcues
  have hread : (readCues ["0,1,Hi, it's", "2,3, "] plainStyle).toBool = true := by decide +kernel
  cases hparsed : readCues ["0,1,Hi, it's", "2,3, "] plainStyle with
  | error p =>
    rw [hparsed] at hread
    cases hread
  | ok cues =>
    have hprinted : IsPrinted installation.settings.box.border := by decide +kernel
    obtain ⟨-, -, hwritten⟩ := hcues cues hparsed
    obtain ⟨overlay, -, hshown, -, hnone, -, hstarted⟩ := hwritten fun _ _ _ => hprinted
    have hsome : overlay ≠ none := by
      intro h
      have := hnone.mpr h
      revert this
      decide +kernel
    refine ⟨equipped_installation, overlay, hsome, ?_, by decide +kernel,
      hstarted _ equipped_installation⟩
    obtain ⟨expression, rfl⟩ := Option.ne_none_iff_exists'.mp hsome
    exact hshown

/-- A text that a terminal shows in red. It is handed to the encoder as it is, and shown without the
sequence that sets the colour. -/
theorem red_text_is_shown_without_red :
    let look := ["-c", "0,1,\x1b[31mHi"]
    let overlay := "drawtext=fontfile=CookieRunRegular.ttf:text='\x1b[31mHi':fontcolor=0xFFFFFF"
      ++ ":fontsize=24:x=(w-text_w)/2:y=(h-text_h)/2:enable='between(t,0,1)':box=1"
      ++ ":boxcolor=black@0.5:boxborderw=5"
    (installation.run ("render" :: "in.mp4" :: "--output" :: "out.mp4" :: look)).started =
        [Probe.command "ffprobe" "in.mp4", encodingOf installedEncoder (some overlay)] ∧
      (installation.run ("filtergraph" :: look)).output ≠ overlay ++ "\n" := by
  intro look overlay
  refine ⟨?_, by decide +kernel⟩
  have logs : Log.thresholdOfWord installation.settings.logLevel = .ok .info := by decide +kernel
  have read : readWords Command.render.parameters true ("in.mp4" :: "--output" :: "out.mp4" :: look) =
      .ok { given := [(.output, "out.mp4"), (.cue, "0,1,\x1b[31mHi")], free := ["in.mp4"] } := by
    decide +kernel
  have fine : Request.ofWords installation.place .render
      { given := [(.output, "out.mp4"), (.cue, "0,1,\x1b[31mHi")], free := ["in.mp4"] } =
        .ok (.render ⟨"in.mp4", [1, 2]⟩ "out.mp4" none ["0,1,\x1b[31mHi"] plainStyle) := by
    decide +kernel
  have installed : installation.defaultFont = .ok installation.settings.fontPath := by
    decide +kernel
  have hcompiled : (readCues ["0,1,\x1b[31mHi"] plainStyle).toOption.any (fun cues =>
      installation.encoding installedEncoder cues = encodingOf installedEncoder (some overlay) ∧
        Filter.IsWritten installation.settings.box cues) = true := by
    decide +kernel
  cases hcues : readCues ["0,1,\x1b[31mHi"] plainStyle with
  | error p =>
    rw [hcues] at hcompiled
    cases hcompiled
  | ok cues =>
    rw [hcues] at hcompiled
    obtain ⟨hencoding, hwritten⟩ := of_decide_eq_true hcompiled
    have hrun := run_eq (c := .render) logs read
    simp only [fine, perform_render installed hcues] at hrun
    show (installation.run (Command.render.name :: _)).started = _
    rw [hrun, started_render_of_equipped rfl rfl equipped_installation hwritten, hencoding]
    rfl

end TimedText.CommandLine.Surroundings
