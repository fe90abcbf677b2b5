import TimedText.Proofs.CommandLine.Asked
import TimedText.Proofs.Studio.Confined

/-!
# When the output is written

A command line writes outside of the encoder's directory only where it renders: a row of metrics,
and, behind a render that has come to a video, the file that it is told to write. That file holds
the video if the command ends with status 0.

Otherwise it is as it was, with three exceptions. The old file is gone as soon as it is opened, so
that writing which breaks off leaves a front of the video. The video stays where it was saved if
only the line cannot be written that tells of it. And if rows of metrics are written to the same
file, it grows by a row. `IsSaved` has a constructor for each of the ways in which a video gets
there.
-/

namespace TimedText.CommandLine.Surroundings

open Disk (SameOutside WritesOutside)
open Render (Orchestrator)

variable {s : Surroundings} {dir : Path} {rows : Option Path} {words values : List String}
  {threshold : Log.Level} {video : SourceFile} {output path : String} {font : Option SourceFile}
  {style : Cue.Style} {cues : List Cue} {before : Disk} {o : Orchestrator} {data : Bytes}

/-- The file that rows of metrics are written to, if they are. -/
def rowFile (s : Surroundings) : Option Path :=
  (s.settings.metricsPolicy s.place.origin s.underTest).rowFile

/-! ## Behind the render -/

/-- How a video gets to the output, on a disk that was like this before. -/
inductive IsSaved (s : Surroundings) (dir : Path) (rows : Option Path) (before : Disk)
    (output : String) (data : Bytes) (ending : Ending) : Prop
  /-- It is there as a whole, whether or not that can be told, -/
  | whole {target : List String} (path : s.place.origin.resolve output = .ok target)
      (result : ending.result = match s.untold with
        | none => .ok 0
        | some f => .error (.fault f))
      (disk : WritesOutside dir rows before ending.disk (Path.ofTexts target) data)
  /-- or a front of it is, since the writing broke off. -/
  | front {target : List String} {b : Disk.Break} (path : s.place.origin.resolve output = .ok target)
      (breaks : s.breaking = some b) (result : ending.result = .error (.save (.disk b.cause)))
      (disk : WritesOutside dir rows before ending.disk (Path.ofTexts target)
        (data.take b.written))

section Finish

variable {made : Except Session.Error Studio.Acceptance × Studio}

/-- Without a video the command does not end with status 0, and nothing is written. -/
theorem finish_of_error {f : Fault}
    (failed : made.2.session.orchestrator = o.concluded (.error f))
    (confined : made.2.Confined dir rows before) (threshold : Log.Level) (output : String)
    (probing : List String) :
    let ending := s.finish threshold output probing made
    ending.result ≠ .ok 0 ∧ SameOutside dir rows before ending.disk := by
  have hclosed : SameOutside dir rows before (made.2.engine.close made.2.disk) :=
    confined.disk.trans (.of_same fun _ ho => confined.engine.close _ ho)
  unfold finish
  simp only [failed, Orchestrator.concluded]
  split
  · exact ⟨nofun, hclosed⟩
  · exact ⟨nofun, hclosed⟩

/-- A video is saved, or nothing is written. -/
theorem finish_of_ok (done : made.2.session.orchestrator = o.concluded (.ok data))
    (confined : made.2.Confined dir rows before) (threshold : Log.Level) (output : String)
    (probing : List String) :
    let ending := s.finish threshold output probing made
    (ending.result ≠ .ok 0 ∧ SameOutside dir rows before ending.disk) ∨
      s.IsSaved dir rows before output data ending := by
  intro ending
  have hclose (d : Disk) : ∀ o, ¬ dir <+: o → (made.2.engine.close d).held o = d.held o :=
    fun _ ho => confined.engine.close d ho
  have hending : ending = s.finish threshold output probing made := rfl
  unfold finish at hending
  simp only [done, Orchestrator.concluded] at hending
  split at hending
  · -- a fault of the render that nobody took care of
    left
    rw [hending]
    exact ⟨nofun, confined.disk.trans (.of_same (hclose _))⟩
  · have hsave := ({ data } : Render.Artifact).save_cases made.2.disk s.place.origin output s.breaking
    generalize ({ data } : Render.Artifact).save made.2.disk s.place.origin output s.breaking = saved
      at hending hsave
    obtain ⟨result, disk⟩ := saved
    cases result with
    | error e =>
      rcases hsave with hsame | ⟨b, target, hbreaks, rfl, hpath, hfront⟩
      · left
        rw [hending]
        exact ⟨nofun, (confined.disk.trans (.of_same fun o _ => hsame o)).trans
          (.of_same (hclose _))⟩
      · -- the file was opened, and what was written before the break stays in it
        right
        rw [hending]
        exact .front hpath hbreaks rfl (hfront.outside confined.disk (hclose _))
    | ok target =>
      -- the video stays saved, even if there is nobody left to tell
      obtain ⟨hpath, hwhole⟩ := hsave
      have houtside := hwhole.outside confined.disk (hclose disk)
      right
      simp only at hending
      cases huntold : s.untold with
      | none =>
        rw [huntold] at hending
        rw [hending]
        exact .whole hpath (by rw [huntold]) houtside
      | some f =>
        rw [huntold] at hending
        rw [hending]
        exact .whole hpath (by rw [huntold]) houtside

end Finish

/-! ## Whole command lines -/

/-- A render that has come to no video writes nothing; one that has saves it, or writes nothing. -/
theorem render_cases (stays : s.engine.StaysIn dir) (threshold : Log.Level) (video : SourceFile)
    (output path : String) (cues : List Cue) :
    let ending := s.render threshold video output path cues
    (ending.result ≠ .ok 0 ∧ SameOutside dir s.rowFile s.place.disk ending.disk) ∨
      ∃ data, (s.studio path).Yields video.data cues data ∧
        s.IsSaved dir s.rowFile s.place.disk output data ending := by
  intro ending
  have hending : ending = _ := s.render_eq_finish threshold video output path cues
  simp only at hending
  cases hresolved : resolveDuration ((s.studio path).upload video.data) s.prober with
  | error f =>
    -- the command ends before it renders
    rw [hresolved] at hending
    left
    rw [hending]
    exact ⟨nofun, .refl dir _ s.place.disk⟩
  | ok opened =>
    rw [hresolved] at hending
    -- what is rendered with are the tools of a fresh studio, so its engine stays where it was
    obtain ⟨accepted, hrun, htools⟩ := (prepared_render hresolved cues).startRender
    have hconfined : accepted.Confined dir s.rowFile s.place.disk :=
      ⟨htools.engine ▸ stays, by rw [htools.metrics]; rfl, by rw [htools.disk]; exact .refl _ _ _⟩
    have hconcluded := accepted.run_concluded video.data cues
    have hdone := hconfined.run (.queue video.data cues)
    rw [htools.made] at hconcluded
    replace hrun : (filled opened cues).startRender.2 = _ := hrun
    rw [← hrun] at hconcluded hdone
    simp only at hending
    rw [hending]
    cases hmade : (s.studio path).made video.data cues with
    | error f =>
      rw [hmade] at hconcluded
      exact .inl (finish_of_error hconcluded hdone threshold output _)
    | ok data =>
      rw [hmade] at hconcluded
      exact (finish_of_ok hconcluded hdone threshold output _).imp_right fun hsaved =>
        ⟨data, Studio.yields_of_made hmade, hsaved⟩

/-- The words ask for a render to this output, and it comes to this video: the engine takes
everything in, works without a fault, and gives these bytes back. -/
def Finishes (s : Surroundings) (words : List String) (output : String) (data : Bytes) : Prop :=
  ∃ threshold video font values style cues path,
    s.Asks words threshold (.render video output font values style) ∧
      s.Prepares font values style cues path ∧ (s.studio path).Yields video.data cues data

/-- A request to render is refused or fails, and nothing is written; or its render has come to a
video, which is saved. -/
theorem run_of_asks_render (stays : s.engine.StaysIn dir)
    (asks : s.Asks words threshold (.render video output font values style)) :
    ((s.run words).result ≠ .ok 0 ∧
        SameOutside dir s.rowFile s.place.disk (s.run words).disk) ∨
      ∃ data, s.Finishes words output data ∧
        s.IsSaved dir s.rowFile s.place.disk output data (s.run words) := by
  have hrun := run_of_asks asks
  rcases s.perform_render_cases threshold video output font values style with
    ⟨f, hrefused⟩ | ⟨cues, path, prepares⟩
  · left
    rw [hrun, hrefused]
    exact ⟨nofun, .refl dir _ s.place.disk⟩
  · rw [hrun, perform_render_of_prepares prepares threshold video output]
    exact (render_cases stays threshold video output path cues).imp_right
      fun ⟨data, yields, hsaved⟩ => ⟨data, ⟨_, _, _, _, _, _, _, asks, prepares, yields⟩, hsaved⟩

/-- What is not a request to render writes nothing at all. -/
theorem disk_run (s : Surroundings) (words : List String) :
    (s.run words).disk = s.place.disk ∨ ∃ threshold video output font values style,
      s.Asks words threshold (.render video output font values style) := by
  rcases s.run_cases words with ⟨f, hrefused⟩ | ⟨text, hsaid⟩ | ⟨threshold, request, asks⟩
  · left
    rw [hrefused]
    rfl
  · left
    rw [hsaid]
    rfl
  · cases request with
    | render video output font values style => exact .inr ⟨_, _, _, _, _, _, asks⟩
    | help =>
      left
      rw [run_of_asks asks]
      rfl
    | filtergraph values style =>
      left
      rw [run_of_asks asks, perform]
      split
      · rfl
      · exact disk_filtergraph _ _
    | preview time values style =>
      left
      rw [run_of_asks asks, perform]
      split <;> rfl

/-- A request to render that ends with status 0 comes from a render whose engine took everything in,
worked without a fault, and gave the bytes back that are then held at the path of the output; no
other file is written outside of the encoder's directory, but a row of metrics. A command line that
ends otherwise leaves every file there as it was, but for such a row; unless its render has come to
a video, and the video is held at the path of the output although this could not be told, or a front
of it is where writing it broke off. -/
theorem output_is_written_by_finished_render (stays : s.engine.StaysIn dir) (words : List String) :
    let ending := s.run words
    (∀ threshold video output font values style,
      s.Asks words threshold (.render video output font values style) → ending.result = .ok 0 →
        ∃ data target, s.Finishes words output data ∧ s.place.origin.resolve output = .ok target ∧
          WritesOutside dir s.rowFile s.place.disk ending.disk (Path.ofTexts target) data) ∧
      (ending.result ≠ .ok 0 → SameOutside dir s.rowFile s.place.disk ending.disk ∨
        ∃ output data, s.Finishes words output data ∧
          s.IsSaved dir s.rowFile s.place.disk output data ending) := by
  intro ending
  constructor
  · intro threshold video output font values style asks hresult
    rcases run_of_asks_render stays asks with ⟨hfailed, -⟩ | ⟨data, hfinishes, hsaved⟩
    · exact absurd hresult hfailed
    · cases hsaved with
      | whole hpath _ hdisk => exact ⟨data, _, hfinishes, hpath, hdisk⟩
      | front _ _ hbroken _ => cases hbroken.symm.trans hresult
  · intro hresult
    rcases s.disk_run words with hsame | ⟨threshold, video, output, font, values, style, asks⟩
    · left
      rw [show ending.disk = s.place.disk from hsame]
      exact .refl dir _ s.place.disk
    · exact (run_of_asks_render stays asks).imp And.right fun ⟨data, hrest⟩ => ⟨output, data, hrest⟩

/-! ## In an installation -/

/-- The encoder of an installation that writes an output. -/
def writingEncoder : Studio.External :=
  { installedEncoder with script := { writes := [(Filter.outputName, [5])] } }

/-- The encoder writes an output into its directory, and the command saves it. -/
theorem output_of_installation_is_written :
    let s := { installed (.external writingEncoder) (.failed 1) with underTest := true }
    s.engine.StaysIn ["tmp", "timed-text"] ∧ (s.run renderWords).result = .ok 0 ∧
      ∃ data, (s.run renderWords).disk.held ["app", "out.mp4"] = some data := by
  intro s
  have hstays : s.engine.StaysIn ["tmp", "timed-text"] := by
    rintro _ ⟨⟩
    exact ⟨rfl, by decide +kernel, by decide +kernel⟩
  have hresult : (s.run renderWords).result = .ok 0 := by decide +kernel
  obtain ⟨hwritten, -⟩ := output_is_written_by_finished_render hstays renderWords
  obtain ⟨data, target, -, hresolve, hwrites⟩ :=
    hwritten _ _ _ _ _ _ (asks_renderWords rfl rfl) hresult
  have htarget : s.place.origin.resolve "out.mp4" = .ok ["app", "out.mp4"] := by rfl
  cases hresolve.symm.trans htarget
  exact ⟨hstays, hresult, data, hwrites.written (by decide +kernel)⟩

/-- Three command lines over an earlier output of three bytes that end otherwise than with status 0.
In the first the disk is full, and nothing of the earlier output or of the video is left. In the
second the output is saved, but nobody can be told. In the third the render fails, and its row goes
to the file of the output. -/
theorem output_changes_without_success :
    let output : Path := ["app", "out.mp4"]
    let earlier (s : Surroundings) : Surroundings :=
      { s with place := { s.place with disk := s.place.disk.put output (.file [1, 2, 3]) } }
    let plain := earlier (installed (.external writingEncoder) (.failed 1))
    let full : Disk.Break := ⟨0, .other 28 "No space left on device"⟩
    let pipe : Fault := ⟨.other "BrokenPipeError", "[Errno 32] Broken pipe", ""⟩
    let broken := { plain with underTest := true, breaking := some full }
    let silent := { plain with underTest := true, untold := some pipe }
    let logging := { plain with
      engine := .external installedEncoder
      settings := { plain.settings with metricsPath := some "out.mp4" } }
    plain.place.disk.held output = some [1, 2, 3] ∧
    ((broken.run renderWords).result = .error (.save (.disk full.cause)) ∧
      (broken.run renderWords).disk.held output = some []) ∧
    ((silent.run renderWords).result = .error (.fault pipe) ∧
      (silent.run renderWords).disk.held output = some [5]) ∧
    (logging.run renderWords).result = .ok 1 ∧
      (logging.run renderWords).disk.held output ≠ some [1, 2, 3] := by
  decide +kernel

end TimedText.CommandLine.Surroundings
