import TimedText.Proofs.Except
import TimedText.Proofs.Render.Row
import TimedText.Proofs.Disk.Directory
import TimedText.Proofs.Disk.Resolved
import TimedText.Settings.Basic
import TimedText.Studio.Basic

/-!
# When a row cannot be logged

Logging passes over whatever the disk refuses, but not over the rest. The path of the file is
resolved before anything is tried: `MetricsPolicy.Lost` says when that fails. Directories above the
file that are missing are made unless they are too many (`MetricsPolicy.TooDeep`). And once the file
is open, a line that cannot be put into words or into bytes is not passed over either
(`NotWritten`). Nothing else stops logging, whatever the disk is (`write_eq_error_iff`).

The row is logged behind all else (`Aftermath.row_last`), so that such a fault is the outcome of the
render, also of one that made a video.
-/

namespace TimedText

namespace Render

/-! ## What stops logging -/

/-- Why the file that rows are written to is not found. -/
inductive MetricsPolicy.Lost (p : MetricsPolicy) : Fault → Prop
  /-- The path that was given is not resolved; -/
  | given {s : String} {reason : PathText.Unresolved} (given : p.path = some s)
      (loses : p.origin.Loses s reason) : Lost p reason.fault
  /-- or none was given, and the one below the directory of the project leads nowhere. -/
  | default {reason : PathText.Unresolved} (default : p.path = none)
      (strays : p.origin.Strays (!(PathText.leading p.projectRoot).isEmpty)
        (PathText.names p.projectRoot ++ ["logs", "render_metrics.jsonl"]) reason) :
      Lost p reason.fault

/-- Why a line is not written: it could not be put into words, or it has lone halves in it. -/
inductive NotWritten (line : Except Fault LooseText) : Fault → Prop
  | unworded {f : Fault} (unworded : line = .error f) : NotWritten line f
  | halves {text : LooseText} (worded : line = .ok text) (there : ∃ l ∈ text, l.isHalf = true) :
      NotWritten line (notEncoded text)

/-- The file that rows are written to is found, and can be opened. -/
def MetricsPolicy.Opens (p : MetricsPolicy) (disk : Disk) : Prop :=
  ∃ path, p.file = .ok path ∧ disk.Opens path

/-- The file that rows are written to is found, but too many directories are missing above it. -/
def MetricsPolicy.TooDeep (p : MetricsPolicy) (disk : Disk) : Prop :=
  ∃ path, p.file = .ok path ∧ disk.IsTooDeep path.dropLast

/-- What stops the logging of a line. -/
def MetricsPolicy.Stops (p : MetricsPolicy) (disk : Disk) (line : Except Fault LooseText)
    (f : Fault) : Prop :=
  p.isOn = true ∧ (p.Lost f ∨ p.TooDeep disk ∧ f = PathText.tooDeepFault ∨
    p.Opens disk ∧ NotWritten line f)

section Write

variable {p : MetricsPolicy} {disk : Disk} {line : Except Fault LooseText} {text : LooseText}
  {f : Fault} {stamp : Metrics.Stamp} {m : Metrics}

theorem exists_file_eq_error_iff :
    (∃ reason, p.file = .error reason ∧ reason.fault = f) ↔ p.Lost f := by
  constructor
  · rintro ⟨reason, hfile, rfl⟩
    unfold MetricsPolicy.file at hfile
    split at hfile
    · next default =>
      exact .default default (PathText.Origin.follow_eq_error_iff.mp (map_eq_error.mp hfile))
    · next s given =>
      exact .given given (PathText.Origin.resolve_eq_error_iff.mp (map_eq_error.mp hfile))
  · intro h
    cases h with
    | @given s reason given loses =>
      refine ⟨reason, ?_, rfl⟩
      simp only [MetricsPolicy.file, given]
      exact map_eq_error.mpr (PathText.Origin.resolve_eq_error_iff.mpr loses)
    | @default reason default strays =>
      refine ⟨reason, ?_, rfl⟩
      simp only [MetricsPolicy.file, default]
      exact map_eq_error.mpr (PathText.Origin.follow_eq_error_iff.mpr strays)

theorem bind_encoded_eq_error_iff : line.bind encoded = .error f ↔ NotWritten line f := by
  cases line with
  | error g =>
    constructor
    · rintro ⟨⟩
      exact .unworded rfl
    · rintro (⟨⟨⟩⟩ | ⟨⟨⟩, -⟩)
      rfl
  | ok text =>
    show encoded text = .error f ↔ _
    unfold encoded
    cases htext : text.text? with
    | some s =>
      refine iff_of_false nofun ?_
      rintro (⟨⟨⟩⟩ | ⟨⟨⟩, there⟩)
      rw [LooseText.text?_eq_none_iff.mpr there] at htext
      cases htext
    | none =>
      constructor
      · rintro ⟨⟩
        exact .halves rfl (LooseText.text?_eq_none_iff.mp htext)
      · rintro (⟨⟨⟩⟩ | ⟨⟨⟩, -⟩)
        rfl

/-- Logging a line fails exactly if rows are written and their file is not found, or has too many
directories missing above it, or is opened for a line that is not written. -/
theorem write_eq_error_iff : (p.write disk line).1 = .error f ↔ p.Stops disk line f := by
  rw [MetricsPolicy.Stops, ← exists_file_eq_error_iff, ← bind_encoded_eq_error_iff]
  unfold MetricsPolicy.write MetricsPolicy.TooDeep MetricsPolicy.Opens
  cases p.isOn with
  | false => exact iff_of_false nofun fun h => Bool.false_ne_true h.1
  | true =>
    rw [if_pos rfl, and_iff_right rfl]
    cases p.file with
    | error reason => simp
    | ok path => simp [MetricsPolicy.append_eq_error_iff]

/-- The line of a row is written unless one of its whole numbers is not printed. -/
theorem notWritten_line_iff :
    NotWritten (m.line? stamp) f ↔ (∃ i ∈ m.wholes, ¬ IsPrinted i) ∧ f = Metrics.notPrinted := by
  rw [← bind_encoded_eq_error_iff]
  unfold Metrics.line?
  split
  · next h =>
    refine iff_of_false ?_ fun ⟨⟨i, hi, hlong⟩, _⟩ => hlong (h i hi)
    simp only [Except.bind, encoded, LooseText.text?_map_char]
    nofun
  · next h =>
    rw [not_forall₂] at h
    simp only [Except.bind, Except.error.injEq, exists_prop] at h ⊢
    exact ⟨fun hf => ⟨h, hf.symm⟩, fun hf => hf.2.symm⟩

end Write

/-! ## The outcome of a render -/

section Answered

variable {ds : List Dealing} {outcome : Outcome} {t : Studio} {f : Fault}

/-- A row that the dealing asks for is logged by this studio, as it is then. -/
def Dealing.LoggedBy (t : Studio) (d : Dealing) : Prop :=
  ∀ m, d.request = .record m → d.reply = (t.answer (.record m)).1

theorem answer_record_eq_fault {m : Metrics} :
    (t.answer (.record m)).1 = .fault f ↔ t.metrics.Stops t.disk (m.line? t.stamp) f := by
  have hwrite : (t.metrics.log t.disk t.stamp m).1 = .error f ↔
      t.metrics.Stops t.disk (m.line? t.stamp) f := write_eq_error_iff
  rw [← hwrite]
  show Studio.replyOf (t.metrics.log t.disk t.stamp m).1 = _ ↔ _
  cases (t.metrics.log t.disk t.stamp m).1 <;> simp [Studio.replyOf]

/-- A row that is refused since its file is not found is one that the studio refuses. -/
theorem loggedBy_of_lost (on : t.metrics.isOn = true) (lost : t.metrics.Lost f)
    (refused : ∀ d ∈ ds, d.request.row?.isSome = true → d.reply = .fault f) :
    ∀ d ∈ ds, d.LoggedBy t := by
  intro d hd m hm
  have hstops : t.metrics.Stops t.disk (m.line? t.stamp) f := ⟨on, .inl lost⟩
  exact (refused d hd (by rw [hm]; rfl)).trans (answer_record_eq_fault.mpr hstops).symm

theorem Point.ofResult_ne_finished (result : Except Fault Bytes) (outcome : Outcome) :
    Point.ofResult result ≠ .finished outcome := by
  intro h
  cases result <;> cases h

/-- One row is recorded, behind all else, so that the fault it meets is the outcome. -/
theorem Aftermath.row_last {point : Point} (h : Aftermath point ds outcome)
    (before : ∀ result, point ≠ .finished result) :
    ∃ m, rowsIn ds = [m] ∧
      ∃ d ∈ ds, d.request = .record m ∧ ∀ f, d.reply = .fault f → outcome = .error f := by
  induction h with
  | finished outcome => exact absurd rfl (before outcome)
  | recorded o m outcome => exact ⟨m, rfl, _, List.mem_cons_self, rfl, nofun⟩
  | unrecorded o m g outcome =>
    refine ⟨m, rfl, _, List.mem_cons_self, rfl, fun f h => ?_⟩
    cases h
    rfl
  | heard o message rest ih | unheard o message g rest ih | failed o rest ih
  | unfailed o g rest ih | done o rest ih | undone o g rest ih =>
    obtain ⟨m, hm, d, hd, hends⟩ := ih nofun
    exact ⟨m, hm, d, List.mem_cons_of_mem _ hd, hends⟩

/-- What escapes from a listener, or from whoever keeps the metrics. -/
theorem Dealing.escapes_iff {d : Dealing} :
    d.Escapes ↔ (d.request.isTelling = true ∧ d.Escapes) ∨
      ∃ m f, d.request = .record m ∧ d.reply = .fault f := by
  constructor
  · rintro ⟨hunguarded, f, hf⟩
    cases hq : d.request with
    | record m => exact .inr ⟨m, f, rfl, hf⟩
    | tellState | tellFailure => exact .inl ⟨rfl, hunguarded, f, hf⟩
    | _ => rw [hq] at hunguarded; cases hunguarded
  · rintro (⟨-, h⟩ | ⟨m, f, hq, hf⟩)
    · exact h
    · exact ⟨by rw [hq]; rfl, f, hf⟩

theorem mem_rowsIn {d : Dealing} {m : Metrics} (hd : d ∈ ds) (asks : d.request = .record m) :
    m ∈ rowsIn ds :=
  List.mem_filterMap.mpr ⟨d, hd, by rw [asks]; rfl⟩

end Answered

/-- What logging does to renders. It fails exactly if rows are written and their file is not found,
or has too many directories missing above it, or is opened for a line that cannot be put into words
or into bytes, which the line of a row can unless one of its whole numbers has too many digits. A
render that is accepted comes to its end, whatever its conduct is, if the encoder does not tell
lines for ever. It has one row recorded. If logging that row fails then that is the outcome,
whatever the render made and whatever listeners did; otherwise the outcome is a fault exactly if one
escapes from a listener. -/
theorem lost_file_is_outcome (p : MetricsPolicy) (c : Config) (s : Session) (source : Bytes)
    (cues : List Cue) (total : Double) (change : Session.Change)
    (h : s.start (some source) cues total = .accepted change) :
    (∀ disk line f, (p.write disk line).1 = .error f ↔
      p.isOn = true ∧ (p.Lost f ∨ p.TooDeep disk ∧ f = PathText.tooDeepFault ∨
        p.Opens disk ∧ NotWritten line f)) ∧
    (∀ (m : Metrics) stamp f, NotWritten (m.line? stamp) f ↔
      (∃ i ∈ m.wholes, ¬ IsPrinted i) ∧ f = Metrics.notPrinted) ∧
    ∃ run, change.pending = .submit run ∧
      (∀ x : Conduct, x.Fits → ∀ lines, x.TellsAtMost lines → ∃ es o r outcome,
        Exchange c change.session.orchestrator run es o r ∧ x.Gives [] es ∧
          r.outcome? = some outcome) ∧
      ∀ ds r outcome, Course c run ds r → (∀ d ∈ ds, d.request.takes d.reply = true) →
        r.outcome? = some outcome →
        ∃ m, rowsIn ds = [m] ∧ ∀ t : Studio, t.metrics = p → (∀ d ∈ ds, d.LoggedBy t) →
          (∀ f, p.Stops t.disk (m.line? t.stamp) f → outcome = .error f) ∧
          ((∃ f, outcome = .error f) ↔ (∃ f, p.Stops t.disk (m.line? t.stamp) f) ∨
            ∃ d ∈ ds, d.request.isTelling = true ∧ d.Escapes) := by
  obtain ⟨-, -, hpending⟩ := start_eq_accepted h
  refine ⟨fun disk line f => write_eq_error_iff, fun m stamp f => notWritten_line_iff, _, hpending,
    fun x fits lines terse => exists_outcome c fits terse _ _, ?_⟩
  intro ds r outcome hcourse fits houtcome
  obtain ⟨before, after, result, rfl, hquiet, haftermath, hiff⟩ :=
    hcourse.conclusion rfl houtcome fits
  obtain ⟨m, hrow, d, hd, hrequest, hends⟩ :=
    haftermath.row_last (Point.ofResult_ne_finished result)
  replace hrow := (rowsIn_behind hquiet).trans hrow
  replace hd := List.mem_append_right before hd
  refine ⟨m, hrow, ?_⟩
  rintro t rfl logged
  have hstops : ∀ f, t.metrics.Stops t.disk (m.line? t.stamp) f → outcome = .error f := fun f hf =>
    hends f ((logged d hd m hrequest).trans (answer_record_eq_fault.mpr hf))
  refine ⟨hstops, ?_⟩
  constructor
  · intro hfault
    obtain ⟨e, he, hescapes⟩ := hiff.mp hfault
    rcases Dealing.escapes_iff.mp hescapes with htells | ⟨m', f, hrecords, hreply⟩
    · exact .inr ⟨e, he, htells⟩
    · -- it is the one row that was refused
      have hmem := mem_rowsIn he hrecords
      rw [hrow, List.mem_singleton] at hmem
      subst hmem
      rw [logged e he m' hrecords] at hreply
      exact .inl ⟨f, answer_record_eq_fault.mp hreply⟩
  · rintro (⟨f, hf⟩ | ⟨e, he, -, hescapes⟩)
    · exact ⟨f, hstops f hf⟩
    · exact hiff.mpr ⟨e, he, hescapes⟩

/-! ## Settings with which rows cannot be logged -/

section Settings

/-- A user without a home is asked for, and the rows go to no file. The render made a video, and its
outcome is a fault. -/
theorem video_is_lost_with_row :
    let p : MetricsPolicy := { enabled := some true, path := some "~nobody/rows.jsonl" }
    let homeless : Fault := ⟨.runtime, PathText.noHomeMessage, ""⟩
    let staging : Orchestrator := { state := .staging }
    let done : Orchestrator := { state := .done, artifact := some { data := [3] } }
    ∃ change run ds r, bareSession.start (some [1]) [] .zero = .accepted change ∧
      change.pending = .submit run ∧ Course { font := "Studio.ttf" } run ds r ∧
      ds.map (fun d => (d.seen, d.reply)) = [(staging, .done), (staging, .bytes [0]),
        (staging, .done), (staging, .done), (staging, .done), (staging, .done), (staging, .done),
        (staging, .bytes [3]), (done, .done), (done, .fault homeless)] ∧
      (∀ disk line, (p.write disk line).1 = .error homeless) ∧
      r.outcome? = some (.error homeless) := by
  intro p homeless staging done
  have haccepted : ∃ change, bareSession.start (some [1]) [] .zero = .accepted change := ⟨_, rfl⟩
  obtain ⟨change, haccepted⟩ := haccepted
  obtain ⟨hwrite, -, run, hpending, -, houtcome⟩ := lost_file_is_outcome p { font := "Studio.ttf" }
    bareSession [1] [] .zero change haccepted
  obtain rfl := queue_of_accepted haccepted hpending
  have hhome : PathText.IsHomeOf "~nobody/rows.jsonl" "nobody".toList ["rows.jsonl"] :=
    ⟨by decide, by decide⟩
  have hlost : p.Lost homeless := .given rfl (.homeless hhome (by decide) rfl)
  have hlogged : ∀ disk line, (p.write disk line).1 = .error homeless := fun disk line =>
    (hwrite disk line homeless).mpr ⟨rfl, .inl hlost⟩
  have hcourse : Course { font := "Studio.ttf" } (.queue [1] [])
      [⟨staging, _, .done⟩, ⟨staging, _, .bytes [0]⟩, ⟨staging, _, .done⟩, ⟨staging, _, .done⟩,
        ⟨staging, _, .done⟩, ⟨staging, _, .done⟩, ⟨staging, _, .done⟩, ⟨staging, _, .bytes [3]⟩,
        ⟨done, _, .done⟩, ⟨done, _, .fault homeless⟩] _ :=
    .step rfl (.step rfl (.step rfl (.step rfl (.step rfl (.step rfl (.step rfl (.step rfl
      (.step rfl (.step rfl .refl)))))))))
  let t : Studio :=
    { session := bareSession, engine := .memory {}, config := { font := "Studio.ttf" },
      font := "Studio.ttf", disk := {}, metrics := p }
  obtain ⟨m, -, hstudio⟩ := houtcome _ _ _ hcourse (by decide) rfl
  obtain ⟨hends, -⟩ := hstudio t rfl (loggedBy_of_lost rfl hlost (by decide))
  exact ⟨change, _, _, _, haccepted, hpending, hcourse, rfl, hlogged,
    congrArg some (hends homeless ⟨rfl, .inl hlost⟩)⟩

/-- Settings are accepted whose rows cannot be logged, whatever disk and line are. And where they
can, an open file may be left without the row: of a count of too many digits, or of a line with a
lone half. -/
theorem accepted_path_cannot_be_logged :
    (∃ s : Settings, Settings.build (.defaults "/app")
        [("metrics_enabled", .bool true), ("metrics_path", .text "a\x00b")] = .ok s ∧
      ∀ origin underTest disk line,
        ((s.metricsPolicy origin underTest).write disk line).1 =
          .error ⟨.value, "embedded null byte", ""⟩) ∧
    let p : MetricsPolicy := { enabled := some true, path := some "rows.jsonl" }
    (∀ (m : Metrics) stamp, ¬ IsPrinted m.cueCount →
      (p.log {} stamp m).1 = .error Metrics.notPrinted) ∧
    ∀ n, ∃ f, (p.write {} (.ok [.half n])).1 = .error f := by
  constructor
  · obtain ⟨s, hbuilt, hon, hpath⟩ : ∃ s : Settings, Settings.build (.defaults "/app")
        [("metrics_enabled", .bool true), ("metrics_path", .text "a\x00b")] = .ok s ∧
        s.metricsEnabled = some true ∧ s.metricsPath = some "a\x00b" := ⟨_, rfl, rfl, rfl⟩
    refine ⟨s, hbuilt, fun origin underTest disk line => ?_⟩
    have hnul : origin.resolve "a\x00b" = .error .nul := rfl
    have hlost : (s.metricsPolicy origin underTest).Lost PathText.Unresolved.nul.fault :=
      .given hpath (PathText.Origin.resolve_eq_error_iff.mp hnul)
    refine write_eq_error_iff.mpr ⟨?_, .inl hlost⟩
    simp only [Settings.metricsPolicy, MetricsPolicy.isOn, hon]
  · intro p
    have hopens : p.Opens {} :=
      ⟨["rows.jsonl"], rfl, ["rows.jsonl"], by decide +kernel, by decide +kernel⟩
    refine ⟨fun m stamp hlong => ?_, fun n => ?_⟩
    · refine write_eq_error_iff.mpr ⟨rfl, .inr (.inr ⟨hopens,
        notWritten_line_iff.mpr ⟨⟨_, ?_, hlong⟩, rfl⟩⟩)⟩
      exact List.mem_append_left _ (List.mem_append_left _ List.mem_cons_self)
    · exact ⟨_, write_eq_error_iff.mpr
        ⟨rfl, .inr (.inr ⟨hopens, .halves rfl ⟨_, List.mem_singleton_self _, rfl⟩⟩)⟩⟩

end Settings

end Render

end TimedText
