import TimedText.Proofs.Render.Report

/-!
# The row of a render

On the way to its result a render notes nothing about it. The answer that brings it there is noted,
either as the length of the video or as the text of the fault that is blamed (`Run.resume_noted`),
and from then on the notes stay as they are while listeners return (`Course.row_noted`). The row is
recorded once, behind all else.

A row counts a render as failed by the text of its fault, so that a fault that says nothing leaves
the row of a success. Main statement: what the row says is right but for the status of such a fault.
-/

namespace TimedText.Render

/-- What is noted about a result: the length of the video, and the text of the fault. -/
def Metrics.notes (m : Metrics) : Option Int × Option String := (m.outputBytes, m.error)

/-- What the answer says that brings a render to its result, and what is noted. -/
inductive Noted (c : Config) (q : Request) (reply : Reply) (r : Run) : Prop
  | video (data : Bytes) (asked : q = .read Filter.outputName) (read : reply = .bytes data)
      (point : r.point = .enteringDone) (noted : r.metrics.notes = (some (data.length : Int), none))
  | fault (f : Fault) (blamed : Blamed c r.cues q reply f) (point : r.point = .enteringFailed)
      (noted : r.metrics.notes = (none, some f.message))

/-! ## Notes on the way -/

section Resume

variable {c : Config} {o : Orchestrator} {r : Run} {q : Request} {reply : Reply}

theorem noted_fail {f : Fault} (blamed : Blamed c r.cues q reply f)
    (fresh : r.metrics.notes = (none, none)) : Noted c q reply (Run.fail o r f).2.1 := by
  have hbytes : r.metrics.outputBytes = none := congrArg Prod.fst fresh
  exact .fault f blamed rfl (Prod.ext hbytes rfl)

/-- An answer lets a render go on, which notes nothing, or it brings the render to its result. -/
theorem Run.resume_noted (way : r.point.isUnderWay = true) (asks : r.request c = some q)
    (fresh : r.metrics.notes = (none, none)) :
    ((r.resume c o reply).2.1.point.isUnderWay = true ∧
      (r.resume c o reply).2.1.metrics.notes = (none, none)) ∨
    Noted c q reply (r.resume c o reply).2.1 := by
  obtain ⟨source, cues, metrics, point⟩ := r
  cases point with
  | enteringDone | enteringFailed | tellingFailure | recording | finished => cases way
  | queued => cases reply <;> exact .inl ⟨rfl, fresh⟩
  | encoding graph =>
    cases asks
    cases reply with
    | line kind message =>
      left
      show (Run.hear c o _ graph kind message).2.1.point.isUnderWay = true ∧
        (Run.hear c o _ graph kind message).2.1.metrics.notes = (none, none)
      unfold Run.hear
      split <;> exact ⟨rfl, fresh⟩
    | fault f => exact .inr (noted_fail (r := Run.ended _ _) (.met f rfl) fresh)
    | _ => exact .inl ⟨rfl, fresh⟩
  | reporting graph percent => cases reply <;> exact .inl ⟨rfl, fresh⟩
  | reading =>
    cases asks
    cases reply with
    | bytes data =>
      have herror : metrics.error = none := congrArg Prod.snd fresh
      exact .inr (.video data rfl rfl rfl (Prod.ext rfl herror))
    | fault f => exact .inr (noted_fail (r := Run.ended _ _) (.met f rfl) fresh)
    | _ => exact .inl ⟨rfl, fresh⟩
  | readingFont | stagingSource | stagingFont =>
    cases asks
    cases reply with
    | fault f => exact .inr (noted_fail (r := Run.ended _ _) (.met f rfl) fresh)
    | _ => exact .inl ⟨rfl, fresh⟩
  | enteringCompiling =>
    cases asks
    cases reply with
    | done =>
      rcases compile_cases c o ⟨source, cues, metrics, .enteringCompiling⟩ with
        ⟨-, heq⟩ | ⟨unwritten, heq⟩
      · simp only [Run.resume, heq]
        exact .inl ⟨rfl, fresh⟩
      · simp only [Run.resume, heq]
        exact .inr (noted_fail (r := Run.ended _ _) (.notWritten unwritten) fresh)
    | fault f => exact .inr (noted_fail (.met f rfl) fresh)
    | _ => exact .inl ⟨rfl, fresh⟩
  | enteringEncoding =>
    cases asks
    cases reply with
    | fault f => exact .inr (noted_fail (.met f rfl) fresh)
    | _ => exact .inl ⟨rfl, fresh⟩

/-- Whether the request tells listeners of something. -/
def Request.isTelling : Request → Bool
  | .tellState _ | .tellProgress _ | .tellFailure _ => true
  | _ => false

/-- Behind the result nothing more is noted, unless a listener fails. -/
theorem Run.notes_resume (way : r.point.isUnderWay = false) (asks : r.request c = some q)
    (returns : q.isTelling = true → reply = .done) :
    (r.resume c o reply).2.1.metrics.notes = r.metrics.notes := by
  obtain ⟨source, cues, metrics, point⟩ := r
  cases point with
  | enteringDone | enteringFailed | tellingFailure =>
    cases asks
    cases returns rfl
    rfl
  | recording => cases reply <;> rfl
  | finished => cases asks
  | _ => cases way

end Resume

/-! ## The course of a render -/

section Course

variable {c : Config} {r r' : Run} {ds : List Dealing} {outcome : Outcome}

/-- A render that comes to its end comes to its result by one answer, and reports nothing before. -/
theorem Course.settles (h : Course c r ds r') (way : r.point.isUnderWay = true)
    (fresh : r.metrics.notes = (none, none)) (concluded : r'.point.isUnderWay = false) :
    ∃ before d after mid, ds = before ++ d :: after ∧
      (∀ e ∈ before ++ [d], e.request.isReport = false) ∧ Noted c d.request d.reply mid ∧
      Course c mid after r' := by
  induction h with
  | refl =>
    rw [way] at concluded
    cases concluded
  | @step r r' d ds asks rest ih =>
    have hquiet := Run.isReport_of_underWay way asks
    rcases Run.resume_noted (o := d.seen) way asks fresh with ⟨hgoes, hfresh⟩ | hnoted
    · obtain ⟨before, e, after, mid, rfl, hbefore, hnoted, hafter⟩ := ih hgoes hfresh concluded
      exact ⟨d :: before, e, after, mid, rfl, List.forall_mem_cons.mpr ⟨hquiet, hbefore⟩, hnoted,
        hafter⟩
    · exact ⟨[], d, ds, _, rfl, List.forall_mem_singleton.mpr hquiet, hnoted, rest⟩

/-- While listeners return, the row says what was noted of the result. -/
theorem Course.row_noted (h : Course c r ds r') (way : r.point.isUnderWay = false)
    (returns : ∀ d ∈ ds, d.request.isTelling = true → d.reply = .done) :
    ∀ d ∈ ds, ∀ m, d.request = .record m → m.notes = r.metrics.notes := by
  induction h with
  | refl => exact List.forall_mem_nil _
  | @step r r' d ds asks rest ih =>
    obtain ⟨hreturns, hrest⟩ := List.forall_mem_cons.mp returns
    have hnext := (Run.resume_concluded c d.seen d.reply way).1
    have hsame := Run.notes_resume (o := d.seen) way asks hreturns
    refine List.forall_mem_cons.mpr ⟨fun m hm => ?_, fun e he m hm => ?_⟩
    · rw [hm] at asks
      obtain ⟨source, cues, metrics, point⟩ := r
      cases point <;> cases asks
      rfl
    · exact (ih hnext hrest e he m hm).trans hsame

end Course

/-! ## Behind the result -/

/-- The row that is recorded. -/
def Request.row? : Request → Option Metrics
  | .record m => some m
  | _ => none

/-- The rows that are recorded. -/
def rowsIn (ds : List Dealing) : List Metrics := ds.filterMap (·.request.row?)

/-- Listeners were told of a state. -/
def Told (s : State) (ds : List Dealing) : Prop := ∃ d ∈ ds, d.request = .tellState s

/-- What is dealt with behind a video while listeners return. -/
theorem Aftermath.row_of_done {ds : List Dealing} {outcome : Outcome}
    (h : Aftermath .enteringDone ds outcome)
    (returns : ∀ d ∈ ds, d.request.isTelling = true → d.reply = .done) :
    ∃ m, rowsIn ds = [m] ∧ Told .done ds ∧ ¬ Told .failed ds := by
  cases h with
  | done o rest =>
    cases rest with
    | recorded o' m => exact ⟨m, rfl, ⟨_, List.mem_cons_self, rfl⟩, by simp [Told]⟩
    | unrecorded o' m f => exact ⟨m, rfl, ⟨_, List.mem_cons_self, rfl⟩, by simp [Told]⟩
  | undone o f rest => cases returns _ List.mem_cons_self rfl

/-- What is dealt with behind a failure while listeners return. -/
theorem Aftermath.row_of_failed {ds : List Dealing} {outcome : Outcome}
    (h : Aftermath .enteringFailed ds outcome)
    (returns : ∀ d ∈ ds, d.request.isTelling = true → d.reply = .done) :
    ∃ m, rowsIn ds = [m] ∧ Told .failed ds ∧ ¬ Told .done ds := by
  cases h with
  | failed o rest =>
    cases rest with
    | heard o' message rest =>
      cases rest with
      | recorded o'' m => exact ⟨m, rfl, ⟨_, List.mem_cons_self, rfl⟩, by simp [Told]⟩
      | unrecorded o'' m f => exact ⟨m, rfl, ⟨_, List.mem_cons_self, rfl⟩, by simp [Told]⟩
    | unheard o' message f rest =>
      cases returns _ (List.mem_cons_of_mem _ List.mem_cons_self) rfl
  | unfailed o f rest => cases returns _ List.mem_cons_self rfl

section Quiet

variable {front behind : List Dealing} (quiet : ∀ d ∈ front, d.request.isReport = false)
include quiet

theorem rowsIn_behind : rowsIn (front ++ behind) = rowsIn behind := by
  have hnone : rowsIn front = [] := by
    refine List.filterMap_eq_nil_iff.mpr fun d hd => ?_
    have hquiet := quiet d hd
    cases hq : d.request <;> rw [hq] at hquiet <;> first | rfl | cases hquiet
  show List.filterMap _ (front ++ behind) = _
  rw [List.filterMap_append, show List.filterMap _ front = [] from hnone]
  rfl

theorem told_behind {s : State} (ends : s.isInFlight = false) :
    Told s (front ++ behind) ↔ Told s behind := by
  constructor
  · rintro ⟨d, hd, hq⟩
    rcases List.mem_append.mp hd with hd | hd
    · have hquiet := quiet d hd
      rw [hq, Request.isReport, ends] at hquiet
      cases hquiet
    · exact ⟨d, hd, hq⟩
  · rintro ⟨d, hd, hq⟩
    exact ⟨d, List.mem_append_right _ hd, hq⟩

end Quiet

/-! ## What the row says -/

/-- A row and the end of its render of these cues. It gives the length of the video that was read,
or the text of the fault that the render failed with; only a text that is not empty makes it the row
of a failure. -/
inductive RowTells (c : Config) (cues : List Cue) (ds : List Dealing) (m : Metrics) : Prop
  | video (done : Told .done ds) (unfailed : ¬ Told .failed ds) (data : Bytes)
      (read : ∃ d ∈ ds, d.request = .read Filter.outputName ∧ d.reply = .bytes data)
      (status : m.members.lookup "status" = some (.str "success"))
      (error : m.members.lookup "error" = some .null)
      (size : m.members.lookup "output_bytes" = some (.int data.length))
  | fault (failed : Told .failed ds) (undone : ¬ Told .done ds) (f : Fault)
      (blamed : ∃ d ∈ ds, Blamed c cues d.request d.reply f)
      (status : m.members.lookup "status" =
        some (.str (if f.message = "" then "success" else "error")))
      (error : m.members.lookup "error" = some (.str f.message))
      (size : m.members.lookup "output_bytes" = some .null)

/-- A row says of the result what was noted; no text at all counts like an empty one. -/
theorem Metrics.members_of_notes {m : Metrics} {size : Option Int} {error : Option String}
    (h : m.notes = (size, error)) :
    m.members.lookup "status" =
        some (.str (if error.getD "" = "" then "success" else "error")) ∧
      m.members.lookup "error" = some ((error.map Json.str).getD .null) ∧
      m.members.lookup "output_bytes" = some ((size.map Json.int).getD .null) := by
  obtain ⟨rfl, rfl⟩ := Prod.mk.inj h
  refine ⟨?_, rfl, rfl⟩
  show some (Json.str (if m.isFailure then "error" else "success")) = _
  unfold Metrics.isFailure
  cases m.error with
  | none => rfl
  | some text => by_cases hempty : text = "" <;> simp [hempty]

/-- A render that comes to its end while listeners return has one row recorded. -/
theorem Course.row {c : Config} {run r : Run} {ds : List Dealing} {outcome : Outcome}
    (h : Course c run ds r) (queued : run.point = .queued)
    (fresh : run.metrics.notes = (none, none)) (houtcome : r.outcome? = some outcome)
    (fits : ∀ d ∈ ds, d.request.takes d.reply = true)
    (returns : ∀ d ∈ ds, d.request.isTelling = true → d.reply = .done) :
    ∃ m, rowsIn ds = [m] ∧ RowTells c run.cues ds m := by
  have hcues := h.cues_eq
  have hpoint := Run.finished_of_outcome houtcome
  obtain ⟨before, d, after, mid, rfl, hquiet, hnoted, hafter⟩ :=
    h.settles (by rw [queued]; rfl) fresh (by rw [hpoint]; rfl)
  rw [List.append_cons] at fits returns ⊢
  have hfits : ∀ e ∈ after, e.request.takes e.reply = true := fun e he =>
    fits e (List.mem_append_right _ he)
  have hreturns : ∀ e ∈ after, e.request.isTelling = true → e.reply = .done := fun e he =>
    returns e (List.mem_append_right _ he)
  have hd : d ∈ (before ++ [d]) ++ after := by simp
  have hrow {m : Metrics} (hm : rowsIn after = [m]) (way : mid.point.isUnderWay = false) :
      m.notes = mid.metrics.notes := by
    have hmem : m ∈ rowsIn after := hm ▸ List.mem_singleton_self m
    obtain ⟨e, he, hrequest⟩ := List.mem_filterMap.mp hmem
    refine hafter.row_noted way hreturns e he m ?_
    cases hq : e.request with
    | record m' => rw [hq] at hrequest; exact congrArg Request.record (Option.some.inj hrequest)
    | _ => rw [hq] at hrequest; cases hrequest
  cases hnoted with
  | video data asked read point noted =>
    have way : mid.point.isUnderWay = false := by rw [point]; rfl
    have haftermath := hafter.aftermath way hpoint hfits
    rw [point] at haftermath
    obtain ⟨m, hm, htold, huntold⟩ := haftermath.row_of_done hreturns
    obtain ⟨hstatus, herror, hsize⟩ := Metrics.members_of_notes ((hrow hm way).trans noted)
    exact ⟨m, (rowsIn_behind hquiet).trans hm, .video ((told_behind hquiet rfl).mpr htold)
      (mt (told_behind hquiet rfl).mp huntold) data ⟨d, hd, asked, read⟩ hstatus herror hsize⟩
  | fault f blamed point noted =>
    rw [← hafter.cues_eq, hcues] at blamed
    have way : mid.point.isUnderWay = false := by rw [point]; rfl
    have haftermath := hafter.aftermath way hpoint hfits
    rw [point] at haftermath
    obtain ⟨m, hm, htold, huntold⟩ := haftermath.row_of_failed hreturns
    obtain ⟨hstatus, herror, hsize⟩ := Metrics.members_of_notes ((hrow hm way).trans noted)
    exact ⟨m, (rowsIn_behind hquiet).trans hm, .fault ((told_behind hquiet rfl).mpr htold)
      (mt (told_behind hquiet rfl).mp huntold) f ⟨d, hd, blamed⟩ hstatus herror hsize⟩

/-- With a conduct that fits, and an encoder that does not tell lines for ever, there is an
outcome. -/
theorem exists_outcome (c : Config) {x : Conduct} (fits : x.Fits) {lines : Nat}
    (terse : x.TellsAtMost lines) (o : Orchestrator) (run : Run) :
    ∃ es o' r outcome, Exchange c o run es o' r ∧ x.Gives [] es ∧ r.outcome? = some outcome := by
  obtain ⟨es, o', r, outcome, hex, hgives, hpoint⟩ := exists_exchange c fits terse [] o run
  exact ⟨es, o', r, outcome, hex, hgives, by simp only [Run.outcome?, hpoint]⟩

/-- The render that is begun is one of the video and the cues that it was accepted with. -/
theorem queue_of_accepted {s : Session} {source : Bytes} {cues : List Cue} {total : Double}
    {change : Session.Change} {run : Run} (h : s.start (some source) cues total = .accepted change)
    (submitted : change.pending = .submit run) : run = .queue source cues := by
  obtain ⟨-, -, hpending⟩ := start_eq_accepted h
  rw [submitted] at hpending
  cases hpending
  rfl

/-- What is recorded of a render that was accepted. It comes to its end, whatever its conduct is, if
the encoder does not tell lines for ever; and whoever else asks for something meanwhile, if
listeners return it is told done or failed, and records one row. The row of a video gives its length
and is one of a success. The row of a failure gives the text of the fault and no length, and is one
of an error unless that text is empty. -/
theorem one_row_tells_result (c : Config) (s : Session) (source : Bytes) (cues : List Cue)
    (total : Double) (change : Session.Change)
    (h : s.start (some source) cues total = .accepted change) :
    ∃ run, change.pending = .submit run ∧
      (∀ x : Conduct, x.Fits → ∀ lines, x.TellsAtMost lines → ∃ es o r outcome,
        Exchange c change.session.orchestrator run es o r ∧ x.Gives [] es ∧
          r.outcome? = some outcome) ∧
      ∀ ds r outcome, Course c run ds r → (∀ d ∈ ds, d.request.takes d.reply = true) →
        (∀ d ∈ ds, d.request.isTelling = true → d.reply = .done) → r.outcome? = some outcome →
        ∃ m, rowsIn ds = [m] ∧ RowTells c cues ds m := by
  obtain ⟨-, -, hpending⟩ := start_eq_accepted h
  refine ⟨_, hpending, fun x fits lines terse => exists_outcome c fits terse _ _, ?_⟩
  intro ds r outcome hcourse fits returns houtcome
  exact hcourse.row rfl rfl houtcome fits returns

/-! ## Two renders -/

section Renders

/-- A session with nothing in it. -/
def bareSession : Session := { clock := { offset := .zero } }

/-- A render whose encoder tells a line, ends well and leaves two bytes. -/
theorem video_of_two_bytes_has_row :
    let staging : Orchestrator := { state := .staging }
    let done : Orchestrator := { state := .done, artifact := some { data := [3, 4] } }
    ∃ change run ds r m, bareSession.start (some [1]) [] .zero = .accepted change ∧
      change.pending = .submit run ∧ Course { font := "Studio.ttf" } run ds r ∧
      ds.map (fun d => (d.seen, d.reply)) = [(staging, .done), (staging, .bytes [0]),
        (staging, .done), (staging, .done), (staging, .done), (staging, .done),
        (staging, .line "stderr" "frame=1"), (staging, .done), (staging, .bytes [3, 4]),
        (done, .done), (done, .done)] ∧
      r.outcome? = some (.ok (some { data := [3, 4] })) ∧ rowsIn ds = [m] ∧
      RowTells { font := "Studio.ttf" } [] ds m := by
  intro staging done
  have haccepted : ∃ change, bareSession.start (some [1]) [] .zero = .accepted change := ⟨_, rfl⟩
  obtain ⟨change, haccepted⟩ := haccepted
  obtain ⟨run, hpending, -, hrow⟩ := one_row_tells_result { font := "Studio.ttf" } bareSession [1]
    [] .zero change haccepted
  obtain rfl := queue_of_accepted haccepted hpending
  have hcourse : Course { font := "Studio.ttf" } (.queue [1] [])
      [⟨staging, _, .done⟩, ⟨staging, _, .bytes [0]⟩, ⟨staging, _, .done⟩, ⟨staging, _, .done⟩,
        ⟨staging, _, .done⟩, ⟨staging, _, .done⟩, ⟨staging, _, .line "stderr" "frame=1"⟩,
        ⟨staging, _, .done⟩, ⟨staging, _, .bytes [3, 4]⟩, ⟨done, _, .done⟩, ⟨done, _, .done⟩] _ :=
    .step rfl (.step rfl (.step rfl (.step rfl (.step rfl (.step rfl (.step rfl (.step rfl
      (.step rfl (.step rfl (.step rfl .refl))))))))))
  obtain ⟨m, hm, htells⟩ := hrow _ _ _ hcourse (by decide) (by decide) rfl
  exact ⟨change, _, _, _, m, haccepted, hpending, hcourse, rfl, rfl, hm, htells⟩

/-- A render whose encoder meets a fault that says nothing. It fails, and listeners are told so; its
row is the row of a success. -/
theorem wordless_fault_has_row_of_success :
    let staging : Orchestrator := { state := .staging }
    let failed : Orchestrator :=
      { state := .failed, failure := some "Video processing failed: " }
    ∃ change run ds r m, bareSession.start (some [1]) [] .zero = .accepted change ∧
      change.pending = .submit run ∧ Course { font := "Studio.ttf" } run ds r ∧
      ds.map (fun d => (d.seen, d.reply)) = [(staging, .done), (staging, .bytes [0]),
        (staging, .done), (staging, .done), (staging, .done), (staging, .done),
        (staging, .fault ⟨.runtime, "", ""⟩), (failed, .done), (failed, .done), (failed, .done)] ∧
      (∀ d ∈ ds, d.request.takes d.reply = true) ∧
      (∀ d ∈ ds, d.request.isTelling = true → d.reply = .done) ∧
      r.outcome? = some (.ok none) ∧ Told .failed ds ∧ rowsIn ds = [m] ∧
      m.members.lookup "status" = some (.str "success") := by
  intro staging failed
  have hcourse : Course { font := "Studio.ttf" } (.queue [1] [])
      [⟨staging, _, .done⟩, ⟨staging, _, .bytes [0]⟩, ⟨staging, _, .done⟩, ⟨staging, _, .done⟩,
        ⟨staging, _, .done⟩, ⟨staging, _, .done⟩, ⟨staging, _, .fault ⟨.runtime, "", ""⟩⟩,
        ⟨failed, _, .done⟩, ⟨failed, _, .done⟩, ⟨failed, _, .done⟩] _ :=
    .step rfl (.step rfl (.step rfl (.step rfl (.step rfl (.step rfl (.step rfl (.step rfl
      (.step rfl (.step rfl .refl)))))))))
  refine ⟨_, _, _, _, _, rfl, rfl, hcourse, rfl, by decide, by decide, rfl, ?_, rfl, rfl⟩
  exact ⟨⟨failed, .tellState .failed, .done⟩, by simp, rfl⟩

end Renders

end TimedText.Render
