import TimedText.Proofs.Render.Workshop

/-!
# Who is in flight

That a render is in flight is said by the state alone, which the editor's side sets and workers move
on. A render keeps others out from the moment it is accepted until it comes to its result; a render
whose request fails behind that moment keeps them out for good.

`Exclusive` is what makes the state tell the truth: only the render that was accepted last keeps
others out, and while it does, the state says so. Main statements: at most one render is in flight
and the calls of different renders to the encoder never mix; and a state in flight is one of a
render in flight, or of a request that failed.
-/

namespace TimedText

open Render (State Orchestrator Point Run Request Reply Config)

/-- Whether a request is a call to the encoder. -/
def Render.Request.isCall : Request → Bool
  | .stage .. | .encode _ | .read _ => true
  | _ => false

/-- Whether a request is one of those by whose answers a render comes to its result. What is told of
progress is not, nor what is told and noted down behind the result. -/
def Render.Request.isWork : Request → Bool
  | .turn | .readFont | .stage .. | .encode _ | .read _ => true
  | .tellState s => s.isInFlight
  | .tellProgress _ | .tellFailure _ | .record _ => false

theorem Render.Request.isWork_of_isCall {q : Request} (h : q.isCall = true) : q.isWork = true := by
  cases q <;> first | rfl | cases h

namespace Workshop

/-- The `n`-th accepted render keeps other renders out. -/
def Holds (w : Workshop) (n : Nat) : Prop := w.Active n ∨ w.Dropped n

/-- A render is in flight, as far as the state says. -/
def InFlight (w : Workshop) : Prop := w.orchestrator.isInFlight = true

instance (w : Workshop) : Decidable w.InFlight := inferInstanceAs (Decidable (_ = true))

section Step

variable {w : Workshop} {n : Nat}

theorem not_inFlight (free : w.orchestrator.isInFlight = false) : ¬ w.InFlight := by
  rw [InFlight, free]
  exact Bool.false_ne_true

theorem InFlight.congr {w' : Workshop} (h : w.InFlight) (readable : w'.orchestrator = w.orchestrator) :
    w'.InFlight := by
  unfold InFlight at h ⊢
  rwa [readable]

theorem holds_congr {w' : Workshop} (jobs : w'.jobs = w.jobs) : w'.Holds n ↔ w.Holds n := by
  unfold Holds Active Dropped
  rw [jobs]

theorem Holds.lt_length (h : w.Holds n) : n < w.jobs.length := by
  rcases h with h | h
  · exact h.lt_length
  · exact (List.getElem?_eq_some_iff.mp h).1

/-- What keeps others out did so before, unless it was accepted just now. -/
theorem holds_of_step (hn : n < w.jobs.length) {e : Event} (h : (w.step e).Holds n) :
    w.Holds n := by
  have hfound := List.getElem?_eq_getElem hn
  obtain ⟨job', hsome, hnext⟩ := next_step hfound e
  rcases h with ⟨_, hjob', hactive⟩ | hdropped
  · cases hsome.symm.trans hjob'
    exact .inl ⟨_, hfound, hnext.isActive hactive⟩
  · cases hsome.symm.trans hdropped
    generalize w.jobs[n] = job at hfound hnext
    cases hnext with
    | same => exact .inr hfound
    | dropped source cues => exact .inl ⟨_, hfound, rfl⟩

theorem isInFlight_concluded (o : Orchestrator) (result : Except Fault Bytes) :
    (o.concluded result).isInFlight = false := by
  cases result <;> rfl

/-- While the state says that a render is in flight, something keeps others out. -/
theorem exists_holds_step (h : w.InFlight → ∃ n, w.Holds n) (e : Event)
    (flight : (w.step e).InFlight) : ∃ n, (w.step e).Holds n := by
  unfold InFlight at h flight
  cases w.change_step e with
  | quiet readable jobs =>
    obtain ⟨n, hn⟩ := h (readable ▸ flight)
    exact ⟨n, (holds_congr jobs).mpr hn⟩
  | forgotten free readable jobs =>
    rw [readable] at flight
    cases flight
  | accepted source cues total free readable jobs =>
    refine ⟨w.jobs.length, .inl ⟨.announced source cues, ?_, rfl⟩⟩
    rw [jobs, List.getElem?_append_right (Nat.le_refl _), Nat.sub_self]
    rfl
  | handedOn m source cues found readable jobs =>
    refine ⟨m, .inl ⟨.working (.queue source cues), ?_, rfl⟩⟩
    rw [jobs, getElem?_set_of_found found, if_pos rfl]
  | dropped m source cues found readable jobs =>
    refine ⟨m, .inr ?_⟩
    rw [Dropped, jobs, getElem?_set_of_found found, if_pos rfl]
  | answered m run reply event found readable jobs =>
    cases hway : run.point.isUnderWay with
    | true =>
      rcases Run.resume_underWay w.config w.orchestrator reply hway with
        ⟨hgoes, -⟩ | ⟨result, -, hresult⟩
      · refine ⟨m, .inl ⟨.working _, ?_, hgoes⟩⟩
        rw [jobs, getElem?_set_of_found found, if_pos rfl]
      · rw [readable, hresult, isInFlight_concluded] at flight
        cases flight
    | false =>
      rcases (Run.resume_concluded w.config w.orchestrator reply hway).2 with
        hsame | ⟨-, f, -, hfails⟩
      · rw [readable, hsame] at flight
        obtain ⟨n, hn⟩ := h flight
        -- what is answered had come to its result, so it is not what keeps others out
        have hne : m ≠ n := by
          rintro rfl
          rcases hn with ⟨job, hjob, hactive⟩ | hdropped
          · cases found.symm.trans hjob
            rw [Job.isActive, hway] at hactive
            cases hactive
          · cases found.symm.trans hdropped
        refine ⟨n, ?_⟩
        unfold Holds Active Dropped at hn ⊢
        rwa [jobs, getElem?_set_of_found found, if_neg hne]
      · rw [readable, hfails, isInFlight_concluded] at flight
        cases flight

/-- Only the render that was accepted last keeps others out, and the state says so. -/
structure Exclusive (w : Workshop) : Prop where
  last : ∀ n, w.Holds n → n + 1 = w.jobs.length
  inFlight : ∀ n, w.Holds n → w.InFlight

/-- A step keeps a workshop exclusive, unless a listener fails which is told of a video. -/
theorem Exclusive.step (h : w.Exclusive) {e : Event} (spares : w.Spares e) :
    (w.step e).Exclusive := by
  -- a step that accepts nothing leaves those in place that keep others out
  have kept (length : (w.step e).jobs.length = w.jobs.length)
      (flight : ∀ n, (w.step e).Holds n → w.Holds n → (w.step e).InFlight) :
      (w.step e).Exclusive := by
    have before (n : Nat) (hn : (w.step e).Holds n) : w.Holds n :=
      holds_of_step (length ▸ hn.lt_length) hn
    exact ⟨fun n hn => length ▸ h.last n (before n hn), fun n hn => flight n hn (before n hn)⟩
  cases w.change_step e with
  | quiet readable jobs =>
    apply kept (by rw [jobs])
    intro n _ hn
    exact (h.inFlight n hn).congr readable
  | forgotten free readable jobs =>
    apply kept (by rw [jobs])
    intro n _ hn
    exact absurd (h.inFlight n hn) (not_inFlight free)
  | accepted source cues total free readable jobs =>
    have flight : (w.step e).InFlight := by rw [InFlight, readable]; rfl
    refine ⟨fun n hn => ?_, fun _ _ => flight⟩
    have hlt := hn.lt_length
    rw [jobs, List.length_append, List.length_singleton] at hlt ⊢
    -- nothing keeps others out when a render is accepted
    have hnew : ¬ n < w.jobs.length := by
      intro hold
      exact not_inFlight free (h.inFlight n (holds_of_step hold hn))
    omega
  | handedOn m source cues found readable jobs =>
    apply kept (by rw [jobs, List.length_set])
    intro n _ hn
    exact (h.inFlight n hn).congr readable
  | dropped m source cues found readable jobs =>
    apply kept (by rw [jobs, List.length_set])
    intro n _ hn
    exact (h.inFlight n hn).congr readable
  | answered m run reply event found readable jobs =>
    apply kept (by rw [jobs, List.length_set])
    intro n hstill hn
    have hflight := h.inFlight n hn
    unfold InFlight at hflight ⊢
    rw [readable]
    cases hway : run.point.isUnderWay with
    | true =>
      rcases Run.resume_underWay w.config w.orchestrator reply hway with
        ⟨-, s, hs, hgoes⟩ | ⟨result, hpoint, hresult⟩
      · rw [hgoes]
        rcases hs with rfl | hs
        · exact hflight
        · exact hs
      · -- the render that came to its result is the one that kept others out
        have hm := h.last m (.inl ⟨_, found, hway⟩)
        obtain rfl : m = n := by have := h.last n hn; omega
        have hover : ¬ (w.step e).Holds m := by
          rintro (⟨job, hjob, hactive⟩ | hdropped)
          · rw [jobs, getElem?_set_of_found found, if_pos rfl] at hjob
            cases hjob
            rw [Job.isActive, hpoint, Point.isUnderWay_ofResult] at hactive
            cases hactive
          · rw [Dropped, jobs, getElem?_set_of_found found, if_pos rfl] at hdropped
            cases hdropped
        exact absurd hstill hover
    | false =>
      rcases (Run.resume_concluded w.config w.orchestrator reply hway).2 with
        hsame | ⟨hpoint, f, hfault, -⟩
      · rw [hsame]
        exact hflight
      · subst event hfault
        exact absurd hpoint (spares run found)

end Step

/-! ## Runs -/

theorem exclusive_opened (c : Config) (s : Session) : (opened c s).Exclusive := by
  have none (n : Nat) : ¬ (opened c s).Holds n := fun h => Nat.not_lt_zero n h.lt_length
  exact ⟨fun n h => absurd h (none n), fun n h => absurd h (none n)⟩

theorem Exclusive.run {w : Workshop} (h : w.Exclusive) {es : List Event}
    (polite : w.Courteous es) : (w.run es).Exclusive := by
  induction es generalizing w with
  | nil => exact h
  | cons e es ih => exact ih (h.step polite.1) polite.2

/-- No run leaves the state in flight without something that keeps others out. -/
theorem exists_holds_run (c : Config) (s : Session) (es : List Event) :
    ((opened c s).run es).InFlight → ∃ n, ((opened c s).run es).Holds n := by
  suffices hkeep : ∀ w : Workshop, (w.InFlight → ∃ n, w.Holds n) →
      (w.run es).InFlight → ∃ n, (w.run es).Holds n by
    exact hkeep _ fun h => nomatch h
  induction es with
  | nil => exact fun _ h => h
  | cons e es ih => exact fun w h => ih _ (exists_holds_step h e)

/-! ## Calls to the encoder -/

/-- The calls to the encoder with their answers, each with the number of the render that made it. -/
def calls (w : Workshop) (es : List Event) : List (Nat × Request × Reply) :=
  (w.trace es).filter (·.2.1.isCall)

theorem calls_nil (w : Workshop) : w.calls [] = [] := rfl

theorem calls_cons (w : Workshop) (e : Event) (es : List Event) :
    w.calls (e :: es) =
      (w.exchange? e).toList.filter (·.2.1.isCall) ++ (w.step e).calls es := by
  unfold calls
  rw [trace_cons, List.filter_append]

/-- What a render asks for when it is answered. -/
theorem exchange?_eq_some {w : Workshop} {e : Event} {n : Nat} {q : Request} {reply : Reply}
    (h : w.exchange? e = some (n, q, reply)) :
    e = .answer n reply ∧
      ∃ run, w.jobs[n]? = some (.working run) ∧ run.request w.config = some q := by
  cases e with
  | answer m reply' =>
    simp only [exchange?] at h
    split at h
    · next run found =>
      obtain ⟨q', hq', heq⟩ := Option.map_eq_some_iff.mp h
      cases heq
      exact ⟨rfl, run, found, hq'⟩
    · cases h
  | _ => cases h

/-- Only a render that has still to come to its result works for it. -/
theorem active_of_work {w : Workshop} {e : Event} {n : Nat} {q : Request} {reply : Reply}
    (h : w.exchange? e = some (n, q, reply)) (work : q.isWork = true) : w.Active n := by
  obtain ⟨-, run, found, hq⟩ := exchange?_eq_some h
  refine ⟨.working run, found, ?_⟩
  obtain ⟨source, cues, metrics, point⟩ := run
  cases point <;> first | rfl | (cases hq <;> cases work)

/-- The calls of one render all come before those of the renders that were accepted later. -/
theorem calls_in_order {w : Workshop} (h : w.Exclusive) {es : List Event}
    (polite : w.Courteous es) :
    (∀ call ∈ w.calls es, w.jobs.length ≤ call.1 + 1) ∧
      (w.calls es).Pairwise (·.1 ≤ ·.1) := by
  induction es generalizing w with
  | nil =>
    rw [calls_nil]
    exact ⟨fun _ hmem => absurd hmem List.not_mem_nil, .nil⟩
  | cons e es ih =>
    obtain ⟨hlater, hsorted⟩ := ih (h.step polite.1) polite.2
    have hlength := w.length_jobs_step e
    -- a call that is made now is made by the render that was accepted last
    have hnow : ∀ call ∈ (w.exchange? e).toList.filter (·.2.1.isCall),
        call.1 + 1 = w.jobs.length := by
      rintro ⟨n, q, reply⟩ hmem
      obtain ⟨hexchange, hcall⟩ := List.mem_filter.mp hmem
      have hactive := active_of_work (Option.mem_toList.mp hexchange)
        (Request.isWork_of_isCall hcall)
      exact h.last n (.inl hactive)
    rw [calls_cons]
    constructor
    · intro call hmem
      rcases List.mem_append.mp hmem with hmem | hmem
      · exact Nat.le_of_eq (hnow call hmem).symm
      · have := hlater call hmem
        omega
    · refine List.pairwise_append.mpr ⟨?_, hsorted, ?_⟩
      · cases w.exchange? e with
        | none => exact .nil
        | some exchange => exact (List.pairwise_singleton _ exchange).filter _
      · intro a ha b hb
        have := hnow a ha
        have := hlater b hb
        omega

/-! ## One render at a time -/

section InFlight

variable {w : Workshop} (h : w.InFlight)
include h

theorem start_of_inFlight (video : Bytes) (cues : List Cue) (total : Double) :
    ∃ records, w.session.start (some video) cues total = .ignored records := by
  have hflight : w.session.orchestrator.isInFlight = true := h
  simp [Session.start, Orchestrator.start, hflight]

theorem step_start_of_inFlight (source : Option Bytes) (cues : List Cue) (total : Double) :
    w.accept (w.session.start source cues total) = w := by
  cases source with
  | none => rfl
  | some video =>
    obtain ⟨records, hignored⟩ := start_of_inFlight h video cues total
    rw [hignored]
    rfl

theorem step_reset_of_inFlight : w.step .reset = w := by
  have hflight : w.session.orchestrator.isInFlight = true := h
  simp [step, Session.reset, Orchestrator.reset, hflight]

end InFlight

/-- What it means that a workshop renders one at a time, all through a run. -/
structure OneAtATime (start : Workshop) (es : List Event) : Prop where
  /-- No two renders are between staging and their results. -/
  alone : ∀ m n, (start.run es).Active m → (start.run es).Active n → m = n
  /-- The state tells of the one that is. -/
  told : ∀ n, (start.run es).Active n → (start.run es).InFlight
  /-- While it does, a request with a video is not accepted, and does not fail. -/
  ignored : (start.run es).InFlight → ∀ video cues total, ∃ records,
    (start.run es).session.start (some video) cues total = .ignored records
  /-- It changes nothing, and neither does a reset. -/
  unchanged : (start.run es).InFlight →
    (∀ source cues total, (start.run es).step (.start source cues total) = start.run es) ∧
      (start.run es).step (.command .startRender) = start.run es ∧
      (start.run es).step .reset = start.run es
  /-- The calls of one render to the encoder all come before those of the next. -/
  calls : ((start.calls es).map (·.1)).Pairwise (· ≤ ·)

/-- Whatever commands come in, from the editor or from inside listeners, and whenever workers go
on: if listeners that are told of a video return, then one render is made at a time. -/
theorem at_most_one_render_in_flight (c : Config) (s : Session) (es : List Event)
    (polite : (opened c s).Courteous es) : OneAtATime (opened c s) es := by
  have hexclusive := (exclusive_opened c s).run polite
  refine ⟨?_, ?_, ?_, ?_, ?_⟩
  · intro m n hm hn
    have := hexclusive.last m (.inl hm)
    have := hexclusive.last n (.inl hn)
    omega
  · exact fun n hn => hexclusive.inFlight n (.inl hn)
  · exact fun h => start_of_inFlight h
  · intro h
    exact ⟨step_start_of_inFlight h, step_start_of_inFlight h _ _ _, step_reset_of_inFlight h⟩
  · exact List.pairwise_map.mpr (calls_in_order (exclusive_opened c s) polite).2

/-- A listener that is told of a video asks for the next render, which then stages its files before
the first render is over. -/
theorem restart_from_listener_is_one_at_a_time :
    let w : Workshop := opened { font := "Studio.ttf" } { clock := { offset := .zero } }
    let es : List Event :=
      [.start (some [1]) [] .zero, .handOn 0, .answer 0 .done, .answer 0 (.bytes [2]),
        .answer 0 .done, .answer 0 .done, .answer 0 .done, .answer 0 .done, .answer 0 .done,
        .answer 0 (.bytes [3]), .start (some [4]) [] .zero, .handOn 1, .answer 1 .done,
        .answer 1 (.bytes [2]), .answer 1 .done, .answer 0 .done, .answer 1 .done]
    w.Courteous es ∧ (w.run es).Active 1 ∧ OneAtATime w es := by
  refine ⟨?_, by decide +kernel, at_most_one_render_in_flight _ _ _ ?_⟩
  all_goals simp [Courteous, Spares]

/-! ## Requests that fail -/

theorem Dropped.run {w : Workshop} {n : Nat} (h : w.Dropped n) (es : List Event) :
    (w.run es).Dropped n := by
  induction es generalizing w with
  | nil => exact h
  | cons e es ih =>
    obtain ⟨job, hjob, hnext⟩ := next_step h e
    cases hnext
    exact ih hjob

/-- After any run the state tells of a render in flight only if one is, or if a request failed
behind its acceptance. As long as listeners that are told of a video return, it does so in both
cases, and in the second for ever. -/
theorem in_flight_by_render_or_failed_request (c : Config) (s : Session) (es : List Event) :
    (((opened c s).run es).InFlight →
      ∃ n, ((opened c s).run es).Active n ∨ ((opened c s).run es).Dropped n) ∧
    ((opened c s).Courteous es →
      ∀ n, ((opened c s).run es).Active n → ((opened c s).run es).InFlight) ∧
    ∀ fs, (opened c s).Courteous (es ++ fs) →
      ∀ n, ((opened c s).run es).Dropped n → ((opened c s).run (es ++ fs)).InFlight := by
  refine ⟨exists_holds_run c s es, ?_, ?_⟩
  · intro polite n hn
    exact ((exclusive_opened c s).run polite).inFlight n (.inl hn)
  · intro fs polite n hn
    refine ((exclusive_opened c s).run polite).inFlight n (.inr ?_)
    rw [run_append]
    exact hn.run fs

/-- A request that failed, a reset, and a request that is ignored. -/
theorem failed_request_outlasts_reset :
    let w : Workshop := opened { font := "Studio.ttf" } { clock := { offset := .zero } }
    let es : List Event := [.start (some [1]) [] .zero, .abandon 0]
    let fs : List Event := [.reset, .start (some [2]) [] .zero]
    w.Courteous (es ++ fs) ∧ (w.run es).Dropped 0 ∧ (w.run (es ++ fs)).InFlight ∧
      ∃ n, (w.run (es ++ fs)).Active n ∨ (w.run (es ++ fs)).Dropped n := by
  intro w es fs
  have polite : w.Courteous (es ++ fs) := by simp [es, fs, Courteous, Spares]
  have hdropped : (w.run es).Dropped 0 := rfl
  obtain ⟨-, -, hstays⟩ := in_flight_by_render_or_failed_request { font := "Studio.ttf" }
    { clock := { offset := .zero } } es
  have hflight : (w.run (es ++ fs)).InFlight := hstays fs polite 0 hdropped
  obtain ⟨htells, -, -⟩ := in_flight_by_render_or_failed_request { font := "Studio.ttf" }
    { clock := { offset := .zero } } (es ++ fs)
  exact ⟨polite, hdropped, hflight, htells hflight⟩

/-- A listener that fails when it is told of staging, and workers that were sent away: in either
case no render is made, and every later request is ignored. -/
theorem failed_request_keeps_state_in_flight :
    let w : Workshop := opened { font := "Studio.ttf" } { clock := { offset := .zero } }
    ∀ es ∈ [[.start (some [1]) [] .zero, .abandon 0],
        [.close, .start (some [1]) [] .zero, .handOn 0]],
      (w.run es).InFlight ∧ (∀ n, ¬ (w.run es).Active n) ∧
        ∀ source cues total, (w.run es).step (.start source cues total) = w.run es := by
  intro w es hes
  have hjobs : (w.run es).InFlight ∧ (w.run es).jobs = [.dropped] := by
    rcases List.mem_cons.mp hes with rfl | hes
    · exact ⟨rfl, rfl⟩
    · cases List.mem_singleton.mp hes
      exact ⟨rfl, rfl⟩
  refine ⟨hjobs.1, ?_, step_start_of_inFlight hjobs.1⟩
  rintro n ⟨job, hjob, hactive⟩
  rw [hjobs.2] at hjob
  cases List.mem_singleton.mp (List.mem_of_getElem? hjob)
  cases hactive

end Workshop

end TimedText
