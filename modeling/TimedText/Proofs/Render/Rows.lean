import TimedText.Proofs.Bytes
import TimedText.Proofs.Disk.Rows
import TimedText.Proofs.Filter.Printed
import TimedText.Proofs.Json.RoundTrip
import TimedText.Proofs.Render.Row

/-!
# The file of rows

Each row is written as one line behind the lines that are there. A line has no line feed but at its
end, since no control character is printed inside a value, and it reads back as the row. For it to
be a text of JSON all doubles of the row have to be numbers. Times of steps are; the duration is
taken as the player said it, so that the line of a render under an infinite duration, or under one
that is no number, holds a word that JSON does not know.

`Metrics.Kept` is what holds of the notes of every render (`Course.row_kept`).
-/

namespace TimedText

/-- A whole number, or a double that is neither infinite nor `nan`. -/
def Number.isFinite : Number → Bool
  | .whole _ => true
  | .double d => d.isFinite

namespace Render

/-! ## The notes of a render -/

/-- The notes of a render: whole numbers short enough to be printed, and the time of each step,
noted once. -/
structure Metrics.Kept (m : Metrics) : Prop where
  cueCount : IsPrinted m.cueCount
  inputBytes : IsPrinted m.inputBytes
  outputBytes : ∀ n ∈ m.outputBytes, IsPrinted n
  duration : ∀ i, m.duration = .whole i → IsPrinted i
  distinct : (m.timings.map Prod.fst).Nodup
  finite : ∀ t ∈ m.timings, t.2.isFinite = true

namespace Metrics.Kept

variable {m : Metrics}

/-- A step is noted under its name, in the place of an older note. -/
theorem step (h : m.Kept) (name : String) {seconds : Double} (hseconds : seconds.isFinite = true) :
    (m.step name seconds).Kept := by
  refine { h with distinct := ?_, finite := ?_ }
  · exact Json.nodup_put h.distinct
  · intro t ht
    rcases Json.mem_put ht with rfl | ht
    · exact hseconds
    · exact h.finite t ht

/-- Of a failure nothing is noted but its text. -/
theorem failed (h : m.Kept) (error : Option String) : ({ m with error := error } : Metrics).Kept :=
  { h with }

theorem measured (h : m.Kept) {n : Int} (printed : IsPrinted n) :
    ({ m with outputBytes := some n } : Metrics).Kept := by
  refine { h with outputBytes := ?_ }
  rintro n ⟨⟩
  exact printed

theorem timed (h : m.Kept) (total : Double) :
    ({ m with duration := .double total } : Metrics).Kept :=
  { h with duration := nofun }

end Metrics.Kept

section Course

variable {c : Config} {o : Orchestrator} {r r' : Run} {ds : List Dealing}

/-- A step of a render keeps its notes in order: it notes the time of what ended, and besides it at
most a failure or the length of the video. -/
theorem Run.resume_kept (h : r.metrics.Kept) {reply : Reply}
    (printed : ∀ data, reply = .bytes data → IsPrinted data.length) :
    (r.resume c o reply).2.1.metrics.Kept := by
  obtain ⟨source, cues, metrics, point⟩ := r
  have hended (name : String) : (metrics.step name .zero).Kept := h.step name rfl
  cases point with
  | queued =>
    cases reply with
    | done => exact h.timed o.total
    | _ => exact h
  | readingFont | stagingSource =>
    cases reply with
    | fault f => exact (hended _).failed _
    | _ => exact h
  | stagingFont =>
    cases reply with
    | done => exact hended _
    | fault f => exact (hended _).failed _
    | _ => exact h
  | enteringCompiling =>
    cases reply with
    | done =>
      rcases compile_cases c o ⟨source, cues, metrics, .enteringCompiling⟩ with ⟨-, heq⟩ | ⟨-, heq⟩
      · simp only [Run.resume, heq]
        exact { hended "compile" with }
      · simp only [Run.resume, heq]
        exact (hended _).failed _
    | fault f => exact h.failed _
    | _ => exact h
  | enteringEncoding =>
    cases reply with
    | fault f => exact h.failed _
    | _ => exact h
  | encoding graph =>
    cases reply with
    | line kind message =>
      show (Run.hear c o _ graph kind message).2.1.metrics.Kept
      unfold Run.hear
      split <;> exact h
    | fault f => exact (hended _).failed _
    | _ => exact h
  | reading =>
    cases reply with
    | bytes data => exact (hended _).measured (printed data rfl)
    | fault f => exact (hended _).failed _
    | _ => exact h
  | enteringDone =>
    cases reply with
    | done => exact hended _
    | fault f => exact h.failed _
    | _ => exact h
  | enteringFailed =>
    cases reply with
    | fault f => exact hended _
    | _ => exact h
  | tellingFailure =>
    cases reply with
    | done | fault => exact hended _
    | _ => exact h
  | reporting | recording => cases reply <;> exact h
  | finished => exact h

theorem Course.keeps (h : Course c r ds r') (kept : r.metrics.Kept)
    (printed : ∀ d ∈ ds, ∀ data, d.reply = .bytes data → IsPrinted data.length) :
    ∀ d ∈ ds, ∀ m, d.request = .record m → m.Kept := by
  induction h with
  | refl => exact List.forall_mem_nil _
  | @step r r' d ds asks rest ih =>
    obtain ⟨hd, hds⟩ := List.forall_mem_cons.mp printed
    refine List.forall_mem_cons.mpr ⟨fun m hm => ?_, ih (Run.resume_kept kept hd) hds⟩
    rw [hm] at asks
    obtain ⟨source, cues, metrics, point⟩ := r
    cases point <;> cases asks
    exact kept

/-- Whatever a render is answered, its row is kept, as far as the lengths of what it is given and of
what it reads are printed. -/
theorem Course.row_kept {source : Bytes} {cues : List Cue} (h : Course c (.queue source cues) ds r')
    (hsource : IsPrinted source.length) (hcues : IsPrinted cues.length)
    (printed : ∀ d ∈ ds, ∀ data, d.reply = .bytes data → IsPrinted data.length) :
    ∀ d ∈ ds, ∀ m, d.request = .record m → m.Kept :=
  h.keeps ⟨hcues, hsource, nofun, nofun, List.nodup_nil, List.forall_mem_nil _⟩ printed

end Course

/-! ## The line of a row -/

section Line

variable {m : Metrics} {stamp : Metrics.Stamp} {words : Json.Words}

/-- The members of a row as it is written. -/
def Metrics.stamped (stamp : Metrics.Stamp) (m : Metrics) : List (String × Json) :=
  [("ts", .str stamp.time), ("host", .str stamp.host), ("app_env", .str stamp.environment)]
    ++ m.members

/-- No name comes twice in a row. -/
theorem nodup_stamped (stamp : Metrics.Stamp) (m : Metrics) :
    ((m.stamped stamp).map Prod.fst).Nodup := by
  have hnames : (m.stamped stamp).map Prod.fst =
      ["ts", "host", "app_env", "status", "error", "cue_count", "filter_stage", "input_bytes",
        "output_bytes", "duration_s", "timings"] := rfl
  rw [hnames]
  decide

theorem map_fst_timings (m : Metrics) :
    (m.timings.map fun (k, v) => (k, Json.float v)).map Prod.fst = m.timings.map Prod.fst := by
  rw [List.map_map]
  rfl

theorem Metrics.Kept.fits (h : m.Kept) (stamp : Metrics.Stamp)
    (known : words = .allowed ∨ m.duration.isFinite = true) :
    Json.Fits words Json.maxNesting (m.toJson stamp) := by
  have hduration (room : Nat) : Json.Fits words room m.duration.toJson := by
    cases hd : m.duration with
    | whole i => exact .int (h.duration i hd)
    | double d =>
      rw [hd] at known
      exact .float known
  have hfailure (room : Nat) : Json.Fits words room ((m.error.map Json.str).getD .null) := by
    cases m.error with
    | none => exact .null
    | some text => exact .str text
  have houtput (room : Nat) : Json.Fits words room ((m.outputBytes.map Json.int).getD .null) := by
    cases hn : m.outputBytes with
    | none => exact .null
    | some n => exact .int (h.outputBytes n hn)
  have htimings (room : Nat) :
      Json.Fits words (room + 1) (.dict (m.timings.map fun (k, v) => (k, .float v))) := by
    refine .dict ?_ (List.forall_mem_map.mpr fun t ht => .float (.inr (h.finite t ht)))
    rw [map_fst_timings]
    exact h.distinct
  refine .dict (nodup_stamped stamp m) ?_
  simp only [Metrics.members, List.cons_append, List.nil_append, List.forall_mem_cons]
  exact ⟨.str _, .str _, .str _, .str _, hfailure _, .int h.cueCount, .bool _, .int h.inputBytes,
    houtput _, hduration _, htimings _, List.forall_mem_nil _⟩

theorem Metrics.Kept.allFinite_iff (h : m.Kept) (stamp : Metrics.Stamp) :
    Json.AllFinite (m.toJson stamp) ↔ m.duration.isFinite = true := by
  have hduration : Json.AllFinite m.duration.toJson ↔ m.duration.isFinite = true := by
    cases m.duration with
    | whole i => exact iff_of_true (.int i) rfl
    | double d => exact Json.allFinite_float
  constructor
  · intro hrow
    refine hduration.mp ((Json.allFinite_dict.mp hrow) ("duration_s", m.duration.toJson) ?_)
    simp [Metrics.members]
  · intro hfinite
    exact (h.fits stamp (.inr hfinite)).allFinite

/-- A row is a line without its end, and a line feed. -/
theorem ofText_line (m : Metrics) (stamp : Metrics.Stamp) :
    Bytes.ofText (String.ofList (m.line stamp)) = Bytes.ofText (m.toJson stamp).print ++ [10] := by
  have hfeed : ['\n'].flatMap String.utf8EncodeChar = [10] := by decide
  rw [Metrics.line, Json.print, Bytes.ofText_eq, Bytes.ofText_eq, String.toList_ofList,
    String.toList_ofList, List.flatMap_append, hfeed]

theorem line_feed_not_mem (j : Json) : 10 ∉ Bytes.ofText j.print := by
  rw [Bytes.mem_ofText_iff (by decide), Json.print, String.toList_ofList]
  rintro ⟨c, hc, hfeed⟩
  have habove : 0x20 ≤ c.toNat := Json.above_chars j c hc
  have hcode : c.toNat = 10 := hfeed
  omega

end Line

/-! ## The lines of a file -/

/-- The line of a row without its end, as bytes. -/
def Metrics.lineBytes (stamp : Metrics.Stamp) (m : Metrics) : Bytes :=
  Bytes.ofText (m.toJson stamp).print

/-- Writes rows one after another, each under its stamp, up to one that cannot be logged. -/
def MetricsPolicy.logAll (p : MetricsPolicy) (disk : Disk) :
    List (Metrics.Stamp × Metrics) → Except Fault Unit × Disk
  | [] => (.ok (), disk)
  | row :: rows =>
    match p.log disk row.1 row.2 with
    | (.error f, disk) => (.error f, disk)
    | (.ok (), disk) => p.logAll disk rows

section File

variable {p : MetricsPolicy} {path place : Path} {d : Disk} {rows : List (Metrics.Stamp × Metrics)}

theorem Metrics.Kept.printed {m : Metrics} (h : m.Kept) : ∀ i ∈ m.wholes, IsPrinted i := by
  simp only [wholes, List.forall_mem_append, List.forall_mem_cons]
  refine ⟨⟨⟨h.cueCount, h.inputBytes, List.forall_mem_nil _⟩, fun i hi => ?_⟩, ?_⟩
  · exact h.outputBytes i (Option.mem_toList.mp hi)
  · cases hd : m.duration with
    | whole i => exact List.forall_mem_singleton.mpr (h.duration i hd)
    | double d => exact List.forall_mem_nil _

/-- The row of a render can be written. -/
theorem Metrics.Kept.encoded_line {m : Metrics} (h : m.Kept) (stamp : Metrics.Stamp) :
    (m.line? stamp).bind encoded = .ok (m.lineBytes stamp ++ [10]) := by
  rw [line?, if_pos h.printed]
  simp only [Except.bind, encoded, LooseText.text?_map_char, ofText_line]
  rfl

theorem MetricsPolicy.log_row (on : p.isOn = true) (file : p.file = .ok path)
    (writable : d.Accepts path place) (stamp : Metrics.Stamp) {m : Metrics} (kept : m.Kept) :
    p.log d stamp m = (.ok (), d.withRow path (m.lineBytes stamp ++ [10])) := by
  unfold log write
  rw [if_pos on, file]
  exact append_of_encoded (kept.encoded_line stamp) writable.not_tooDeep

theorem MetricsPolicy.logAll_eq (on : p.isOn = true) (file : p.file = .ok path)
    (writable : d.Accepts path place) (kept : ∀ row ∈ rows, row.2.Kept) :
    p.logAll d rows = (.ok (), (rows.map fun row => row.2.lineBytes row.1 ++ [10]).foldl
      (fun d row => d.withRow path row) d) := by
  induction rows generalizing d with
  | nil => rfl
  | cons row rows ih =>
    obtain ⟨hrow, hrows⟩ := List.forall_mem_cons.mp kept
    rw [logAll, log_row on file writable row.1 hrow]
    exact ih (writable.withRow _).1 hrows

/-- Rows that renders leave (`Course.row_kept`), whatever time their steps took, are written as
lines: the file holds what it held and behind it one line for each row, in order, each with a line
feed at its end and none inside. Every line reads back as the row where words for doubles are
allowed. It is a text of JSON, and reads back where they are not, exactly if the duration of the
render is finite. -/
theorem rows_are_lines_of_json (on : p.isOn = true) (file : p.file = .ok path)
    (writable : d.Accepts path place) (kept : ∀ row ∈ rows, row.2.Kept) :
    (∃ d', p.logAll d rows = (.ok (), d') ∧ (d'.held place).getD [] =
      (d.held place).getD [] ++ (rows.map fun row => row.2.lineBytes row.1 ++ [10]).flatten) ∧
    ∀ row ∈ rows, 10 ∉ row.2.lineBytes row.1 ∧
      Json.read .allowed (row.2.toJson row.1).print = .ok (row.2.toJson row.1) ∧
      (Json.IsText (row.2.toJson row.1).print ∧
          Json.read .refused (row.2.toJson row.1).print = .ok (row.2.toJson row.1) ↔
        row.2.duration.isFinite = true) := by
  refine ⟨⟨_, MetricsPolicy.logAll_eq on file writable kept, writable.rows _⟩, ?_⟩
  intro row hrow
  have hkept := kept row hrow
  refine ⟨line_feed_not_mem _, Json.read_print (hkept.fits _ (.inl rfl)), ?_⟩
  constructor
  · rintro ⟨htext, -⟩
    exact (hkept.allFinite_iff _).mp (Json.isText_print_iff.mp htext)
  · intro hfinite
    exact ⟨Json.isText_print_iff.mpr ((hkept.allFinite_iff _).mpr hfinite),
      Json.read_print (hkept.fits _ (.inr hfinite))⟩

/-- Two renders, one under a finite duration, leave two lines behind the one that was there. The
first is a text of JSON, although its fault has a quote and a line feed in it; the second is not,
and reads back only where words are allowed. -/
theorem two_rows_behind_a_line :
    let p : MetricsPolicy := { enabled := some true, path := some "rows.jsonl" }
    let path : Path := ["rows.jsonl"]
    let disk : Disk := ⟨[(path, .file [123, 125, 10])]⟩
    let failed : Metrics :=
      { cueCount := 2, inputBytes := 6, error := some "a\"\nb", timings := [("total_s", .zero)],
        duration := .double (.finite false 4503599627370496 1024 (by decide)) }
    let endless : Metrics :=
      { cueCount := 0, inputBytes := 6, duration := .double (.infinite false) }
    (∃ d', p.logAll disk [({}, failed), ({}, endless)] = (.ok (), d') ∧ (d'.held path).getD [] =
      [123, 125, 10] ++ ((failed.lineBytes {} ++ [10]) ++ (endless.lineBytes {} ++ [10]))) ∧
    Json.IsText (failed.toJson {}).print ∧
    Json.read .allowed (endless.toJson {}).print = .ok (endless.toJson {}) ∧
    ¬ (Json.IsText (endless.toJson {}).print ∧
      Json.read .refused (endless.toJson {}).print = .ok (endless.toJson {})) := by
  intro p path disk failed endless
  have hfailed : failed.Kept := ⟨by decide, by decide, nofun, nofun, by decide, by decide⟩
  have hendless : endless.Kept := ⟨by decide, by decide, nofun, nofun, by decide, by decide⟩
  have haccepts : disk.Accepts path path := Disk.accepts_of_target (by decide +kernel)
  have hold : (disk.held path).getD [] = [123, 125, 10] := by decide +kernel
  have hboth : ∀ row ∈ [(({} : Metrics.Stamp), failed), ({}, endless)], row.2.Kept :=
    List.forall_mem_cons.mpr ⟨hfailed, List.forall_mem_singleton.mpr hendless⟩
  obtain ⟨⟨d', hd', hheld⟩, hlines⟩ := rows_are_lines_of_json (p := p) rfl rfl haccepts hboth
  obtain ⟨⟨-, -, hfirst⟩, hrest⟩ := List.forall_mem_cons.mp hlines
  obtain ⟨-, hallowed, hsecond⟩ := List.forall_mem_singleton.mp hrest
  refine ⟨⟨d', hd', ?_⟩, (hfirst.mpr rfl).1, hallowed, fun h => nomatch hsecond.mp h⟩
  rw [hheld, hold, List.map_cons, List.map_singleton, List.flatten_cons, List.flatten_singleton]

end File

/-! ## A duration that is no number -/

/-- A render runs under the duration that the clock holds, which may be infinite, and makes a video.
Its row is written, on a line that is no text of JSON. -/
theorem endless_render_leaves_no_json :
    let p : MetricsPolicy := { enabled := some true, path := some "rows.jsonl" }
    let clock := Clock.setDuration { offset := .zero } (.infinite false)
    let session : Session := { clock := clock, source := some [1] }
    let staging : Orchestrator := { state := .staging, total := .infinite false }
    let done : Orchestrator :=
      { state := .done, artifact := some { data := [3] }, total := .infinite false }
    let row : Metrics :=
      { cueCount := 0, inputBytes := 1, duration := .double (.infinite false),
        outputBytes := some 1, timings := [("staging_s", .zero), ("compile_s", .zero),
          ("encode_s", .zero), ("total_s", .zero)] }
    (∃ change run ds r, session.startRender = .accepted change ∧
      change.pending = .submit run ∧ Course { font := "Studio.ttf" } run ds r ∧
      ds.map (fun d => (d.seen, d.reply)) = [(staging, .done), (staging, .bytes [0]),
        (staging, .done), (staging, .done), (staging, .done), (staging, .done), (staging, .done),
        (staging, .bytes [3]), (done, .done), (done, .done)] ∧
      r.outcome? = some (.ok (some { data := [3] })) ∧ rowsIn ds = [row]) ∧
    (∃ disk, p.log {} {} row = (.ok (), disk) ∧
      disk.held ["rows.jsonl"] = some (row.lineBytes {} ++ [10])) ∧
    ¬ Json.IsText (row.toJson {}).print := by
  intro p clock session staging done row
  have hcourse : Course { font := "Studio.ttf" } (.queue [1] [])
      [⟨staging, _, .done⟩, ⟨staging, _, .bytes [0]⟩, ⟨staging, _, .done⟩, ⟨staging, _, .done⟩,
        ⟨staging, _, .done⟩, ⟨staging, _, .done⟩, ⟨staging, _, .done⟩, ⟨staging, _, .bytes [3]⟩,
        ⟨done, _, .done⟩, ⟨done, _, .done⟩] _ :=
    .step rfl (.step rfl (.step rfl (.step rfl (.step rfl (.step rfl (.step rfl (.step rfl
      (.step rfl (.step rfl .refl)))))))))
  have houtput : ∀ n ∈ row.outputBytes, IsPrinted n := by
    rintro n ⟨⟩
    decide
  have hkept : row.Kept := ⟨by decide, by decide, houtput, nofun, by decide, by decide⟩
  refine ⟨⟨_, _, _, _, rfl, rfl, hcourse, rfl, rfl, rfl⟩, ?_, ?_⟩
  · have haccepts : Disk.Accepts {} ["rows.jsonl"] ["rows.jsonl"] :=
      Disk.accepts_of_target (by decide +kernel)
    have hempty : (Disk.held {} ["rows.jsonl"]).getD [] = [] := rfl
    have hheld := (haccepts.withRow (row.lineBytes {} ++ [10])).2
    rw [hempty, List.nil_append] at hheld
    exact ⟨_, MetricsPolicy.log_row rfl rfl haccepts _ hkept, hheld⟩
  · intro htext
    cases (hkept.allFinite_iff {}).mp (Json.isText_print_iff.mp htext)

end Render

end TimedText
