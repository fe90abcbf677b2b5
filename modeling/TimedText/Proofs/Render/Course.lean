import TimedText.Proofs.Render.Workshop

/-!
# The course of a render among others

A render does not own what is readable about rendering. Between two of its answers commands may
forget a result or accept another render, so the course of a render is a list of dealings, each with
what was readable when the answer came in, whoever left it so. An exchange with an outside is the
course of a render that is left alone.

The interesting part is behind the result: the `Aftermath`, in which listeners are told, a row is
recorded, and the outcome is settled. Up to the result a render tells nobody of one.
-/

namespace TimedText.Render

/-- A request and its answer, with what was readable when the answer came in. -/
structure Dealing where
  seen : Orchestrator
  request : Request
  reply : Reply

theorem Run.finished_of_outcome {r : Run} {outcome : Outcome} (h : r.outcome? = some outcome) :
    r.point = .finished outcome := by
  unfold Run.outcome? at h
  split at h
  · next hpoint => rw [hpoint, Option.some.inj h]
  · cases h

theorem Run.finished_of_request {c : Config} {r : Run} (h : r.request c = none) :
    ∃ outcome, r.point = .finished outcome := by
  obtain ⟨source, cues, metrics, point⟩ := r
  cases point with
  | finished outcome => exact ⟨outcome, rfl⟩
  | _ => cases h

/-- What a render deals with on the way from one point to another. -/
inductive Course (c : Config) : Run → List Dealing → Run → Prop
  | refl {r : Run} : Course c r [] r
  | step {r r' : Run} {d : Dealing} {ds : List Dealing} (asks : r.request c = some d.request)
      (rest : Course c (r.resume c d.seen d.reply).2.1 ds r') : Course c r (d :: ds) r'

/-- Whether a reply is one that the request can get: bytes where bytes are wanted, lines from the
encoder, and else that it is done or a fault. -/
def Request.takes : Request → Reply → Bool
  | .turn, .done => true
  | .turn, _ => false
  | .readFont, .bytes _ | .read _, .bytes _ => true
  | .readFont, .done | .read _, .done => false
  | .encode _, .line _ _ => true
  | _, .done | _, .fault _ => true
  | _, _ => false

/-- Whether a request tells of a result or notes it down. -/
def Request.isReport : Request → Bool
  | .tellState s => !s.isInFlight
  | .tellFailure _ | .record _ => true
  | _ => false

/-- A render that has still to come to its result reports none. -/
theorem Run.isReport_of_underWay {c : Config} {r : Run} {q : Request}
    (way : r.point.isUnderWay = true) (asks : r.request c = some q) : q.isReport = false := by
  obtain ⟨source, cues, metrics, point⟩ := r
  cases point with
  | enteringDone | enteringFailed | tellingFailure | recording | finished => cases way
  | _ => cases asks; rfl

theorem Request.failureTold_of_not_report {q : Request} (h : q.isReport = false) :
    q.failureTold = none := by
  cases q <;> first | rfl | cases h

/-- A render that comes to its end comes to a result on the way, and reports nothing before. -/
theorem Course.split {c : Config} {r r' : Run} {ds : List Dealing} (h : Course c r ds r')
    (way : r.point.isUnderWay = true) (concluded : r'.point.isUnderWay = false) :
    ∃ before after result mid, ds = before ++ after ∧
      (∀ d ∈ before, d.request.isReport = false) ∧ mid.point = .ofResult result ∧
      Course c mid after r' := by
  induction h with
  | refl =>
    rw [way] at concluded
    cases concluded
  | @step r r' d ds asks rest ih =>
    have hquiet := Run.isReport_of_underWay way asks
    rcases Run.resume_underWay c d.seen d.reply way with ⟨hgoes, -⟩ | ⟨result, hresult, -⟩
    · obtain ⟨before, after, result, mid, rfl, hbefore, hmid, hafter⟩ := ih hgoes concluded
      refine ⟨d :: before, after, result, mid, rfl, ?_, hmid, hafter⟩
      intro d' hd'
      rcases List.mem_cons.mp hd' with rfl | hd'
      · exact hquiet
      · exact hbefore d' hd'
    · refine ⟨[d], ds, result, _, rfl, ?_, hresult, rest⟩
      intro d' hd'
      cases List.mem_singleton.mp hd'
      exact hquiet

/-! ## Behind the result -/

/-- What is dealt with from a point behind the result, and the outcome. -/
inductive Aftermath : Point → List Dealing → Outcome → Prop
  | finished (outcome : Outcome) : Aftermath (.finished outcome) [] outcome
  | recorded (o : Orchestrator) (m : Metrics) (outcome : Outcome) :
      Aftermath (.recording outcome) [⟨o, .record m, .done⟩] outcome
  | unrecorded (o : Orchestrator) (m : Metrics) (f : Fault) (outcome : Outcome) :
      Aftermath (.recording outcome) [⟨o, .record m, .fault f⟩] (.error f)
  | heard (o : Orchestrator) (message : Option String) {ds : List Dealing} {outcome : Outcome}
      (rest : Aftermath (.recording (.ok none)) ds outcome) :
      Aftermath (.tellingFailure message) (⟨o, .tellFailure message, .done⟩ :: ds) outcome
  | unheard (o : Orchestrator) (message : Option String) (f : Fault) {ds : List Dealing}
      {outcome : Outcome} (rest : Aftermath (.recording (.error f)) ds outcome) :
      Aftermath (.tellingFailure message) (⟨o, .tellFailure message, .fault f⟩ :: ds) outcome
  /-- The failure that is told is the one that is readable when the listener returns, -/
  | failed (o : Orchestrator) {ds : List Dealing} {outcome : Outcome}
      (rest : Aftermath (.tellingFailure o.failure) ds outcome) :
      Aftermath .enteringFailed (⟨o, .tellState .failed, .done⟩ :: ds) outcome
  | unfailed (o : Orchestrator) (f : Fault) {ds : List Dealing} {outcome : Outcome}
      (rest : Aftermath (.recording (.error f)) ds outcome) :
      Aftermath .enteringFailed (⟨o, .tellState .failed, .fault f⟩ :: ds) outcome
  /-- and so is the video that the render ends with. -/
  | done (o : Orchestrator) {ds : List Dealing} {outcome : Outcome}
      (rest : Aftermath (.recording (.ok o.artifact)) ds outcome) :
      Aftermath .enteringDone (⟨o, .tellState .done, .done⟩ :: ds) outcome
  | undone (o : Orchestrator) (f : Fault) {ds : List Dealing} {outcome : Outcome}
      (rest : Aftermath .enteringFailed ds outcome) :
      Aftermath .enteringDone (⟨o, .tellState .done, .fault f⟩ :: ds) outcome

/-- The failures that listeners were told of. -/
def failuresIn (ds : List Dealing) : List (Option String) := ds.filterMap (·.request.failureTold)

/-- No failure is told by what does not report. -/
theorem failuresIn_behind {front behind : List Dealing}
    (quiet : ∀ d ∈ front, d.request.isReport = false) :
    failuresIn (front ++ behind) = failuresIn behind := by
  have hnone : failuresIn front = [] :=
    List.filterMap_eq_nil_iff.mpr fun d hd => Request.failureTold_of_not_report (quiet d hd)
  show List.filterMap _ (front ++ behind) = _
  rw [List.filterMap_append, show List.filterMap _ front = [] from hnone]
  rfl

/-- Whether the request tells of a failure or asks for the row to be recorded. Of a fault in answer
to it the render takes no care. -/
def Request.isUnguarded : Request → Bool
  | .tellState .failed | .tellFailure _ | .record _ => true
  | _ => false

theorem Request.isReport_of_unguarded {q : Request} (h : q.isUnguarded = true) :
    q.isReport = true := by
  cases q with
  | tellState s => cases s <;> first | rfl | cases h
  | tellFailure | record => rfl
  | _ => cases h

/-- A fault that nobody takes care of. -/
def Dealing.Escapes (d : Dealing) : Prop :=
  d.request.isUnguarded = true ∧ ∃ f, d.reply = .fault f

/-- Nothing escapes from what does not report. -/
theorem escapes_behind {front behind : List Dealing}
    (quiet : ∀ d ∈ front, d.request.isReport = false) :
    (∃ d ∈ front ++ behind, d.Escapes) ↔ ∃ d ∈ behind, d.Escapes := by
  constructor
  · rintro ⟨d, hd, hescapes⟩
    rcases List.mem_append.mp hd with hd | hd
    · have hreport := Request.isReport_of_unguarded hescapes.1
      rw [quiet d hd] at hreport
      cases hreport
    · exact ⟨d, hd, hescapes⟩
  · rintro ⟨d, hd, hescapes⟩
    exact ⟨d, List.mem_append_right _ hd, hescapes⟩

section Aftermath

variable {c : Config} {r r' : Run} {ds : List Dealing} {outcome : Outcome}

theorem Course.aftermath (h : Course c r ds r') (way : r.point.isUnderWay = false)
    (finished : r'.point = .finished outcome) (fits : ∀ d ∈ ds, d.request.takes d.reply = true) :
    Aftermath r.point ds outcome := by
  induction h with
  | refl =>
    rw [finished]
    exact .finished outcome
  | @step r r' d ds asks rest ih =>
    have hnext := (Run.resume_concluded c d.seen d.reply way).1
    have ih := ih hnext finished fun d hd => fits d (List.mem_cons_of_mem _ hd)
    have hfits := fits _ List.mem_cons_self
    obtain ⟨o, q, reply⟩ := d
    obtain ⟨source, cues, metrics, point⟩ := r
    cases point with
    | enteringDone =>
      cases asks
      cases reply with
      | done => exact .done o ih
      | fault f => exact .undone o f ih
      | _ => cases hfits
    | enteringFailed =>
      cases asks
      cases reply with
      | done => exact .failed o ih
      | fault f => exact .unfailed o f ih
      | _ => cases hfits
    | tellingFailure message =>
      cases asks
      cases reply with
      | done => exact .heard o message ih
      | fault f => exact .unheard o message f ih
      | _ => cases hfits
    | recording result =>
      cases asks
      cases reply with
      | done => cases ih; exact .recorded o metrics _
      | fault f => cases ih; exact .unrecorded o metrics f _
      | _ => cases hfits
    | finished result => cases asks
    | _ => cases way

/-- The outcome is a fault exactly if one escaped. -/
theorem Aftermath.error_iff {p : Point} (h : Aftermath p ds outcome) :
    (∃ f, outcome = .error f) ↔
      (∃ f, p = .finished (.error f) ∨ p = .recording (.error f)) ∨ ∃ d ∈ ds, d.Escapes := by
  induction h with
  | finished outcome => simp
  | recorded o m outcome => simp [Dealing.Escapes]
  | unrecorded o m f outcome => simp [Dealing.Escapes, Request.isUnguarded]
  | heard o message rest ih => simpa [Dealing.Escapes] using ih
  | unheard o message f rest ih => simp [ih, Dealing.Escapes, Request.isUnguarded]
  | failed o rest ih => simpa [Dealing.Escapes] using ih
  | unfailed o f rest ih => simp [ih, Dealing.Escapes, Request.isUnguarded]
  | done o rest ih => simpa [Dealing.Escapes] using ih
  | undone o f rest ih => simpa [Dealing.Escapes, Request.isUnguarded] using ih

theorem Aftermath.error_iff_escapes {result : Except Fault Bytes}
    (h : Aftermath (.ofResult result) ds outcome) :
    (∃ f, outcome = .error f) ↔ ∃ d ∈ ds, d.Escapes := by
  rw [h.error_iff, or_iff_right]
  rintro ⟨f, hf⟩
  cases result <;> rcases hf with hf | hf <;> cases hf

theorem Aftermath.of_recording {result : Outcome} (h : Aftermath (.recording result) ds outcome) :
    failuresIn ds = [] ∧ (outcome = result ∨ ∃ f, outcome = .error f) := by
  cases h with
  | recorded o m => exact ⟨rfl, .inl rfl⟩
  | unrecorded o m f => exact ⟨rfl, .inr ⟨f, rfl⟩⟩

theorem Aftermath.of_telling {message : Option String}
    (h : Aftermath (.tellingFailure message) ds outcome) :
    failuresIn ds = [message] ∧ (outcome = .ok none ∨ ∃ f, outcome = .error f) := by
  cases h with
  | heard o message rest =>
    obtain ⟨hnone, hrest⟩ := rest.of_recording
    exact ⟨congrArg (message :: ·) hnone, hrest⟩
  | unheard o message f rest =>
    obtain ⟨hnone, hrest⟩ := rest.of_recording
    exact ⟨congrArg (message :: ·) hnone, .inr (hrest.elim (fun h => ⟨f, h⟩) id)⟩

/-- A failure is told once if the listener that is told of the state returns, and else not at
all. -/
theorem Aftermath.of_failed (h : Aftermath .enteringFailed ds outcome) :
    (∃ d ∈ ds, d.request = .tellState .failed ∧ d.reply = .done ∧
        failuresIn ds = [d.seen.failure] ∧ (outcome = .ok none ∨ ∃ f, outcome = .error f)) ∨
      ∃ d ∈ ds, d.request = .tellState .failed ∧ (∃ f, d.reply = .fault f) ∧ failuresIn ds = [] ∧
        ∃ f, outcome = .error f := by
  cases h with
  | failed o rest =>
    exact .inl ⟨_, List.mem_cons_self, rfl, rfl, rest.of_telling⟩
  | unfailed o f rest =>
    obtain ⟨hnone, hrest⟩ := rest.of_recording
    exact .inr ⟨_, List.mem_cons_self, rfl, ⟨f, rfl⟩, hnone,
      hrest.elim (fun h => ⟨f, h⟩) id⟩

end Aftermath

end TimedText.Render
