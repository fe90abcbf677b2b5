import TimedText.Proofs.Render.Arguments
import TimedText.Proofs.Render.Escape
import TimedText.Proofs.Render.Story

/-!
# What a render reports

Behind its result a render tells listeners of the state, and only when they have returned it looks
at what is readable: the failure that is told and the video that it ends with are those that are
there then. A listener may have forgotten the result by that time, or asked for another render.

The history of a render is cut at the answer that brings it to its result. Up to there it reports
nothing; from there on it has a course, and what listeners left is what they are seen to leave in
it. Main statement: a render reports what the listener left that was told of its result, and that is
what it came to as long as nobody asks for anything while it is being told.
-/

namespace TimedText

open Render (State Artifact Orchestrator Point Run Request Reply Config Outcome Dealing Course
  Aftermath failuresIn)

namespace Render

/-- Whether listeners are being told of a result. -/
def Point.tellsResult : Point → Bool
  | .enteringDone | .enteringFailed => true
  | _ => false

theorem Point.tellsResult_ofResult (result : Except Fault Bytes) :
    (Point.ofResult result).tellsResult = true := by
  cases result <;> rfl

/-- The fault that a render fails with when this request meets one. -/
def Request.blames : Request → Fault → Fault
  | .readFont => Run.fontFault
  | .read _ => Run.outputFault
  | _ => id

/-- The fault that an answer makes a render of these cues fail with: the one that its work met, or
that the cues cannot be compiled, which shows once it is told that the render compiles. -/
inductive Blamed (c : Config) (cues : List Cue) : Request → Reply → Fault → Prop
  | met {q : Request} (f : Fault) (work : q.isWork = true) :
      Blamed c cues q (.fault f) (q.blames f)
  | notWritten (unwritten : ¬ Filter.IsWritten c.box cues) :
      Blamed c cues (.tellState .compiling) .done Filter.notWritten

theorem Blamed.isWork {c : Config} {cues : List Cue} {q : Request} {reply : Reply} {f : Fault}
    (h : Blamed c cues q reply f) : q.isWork = true := by
  cases h with
  | met f work => exact work
  | notWritten => rfl

/-- A render comes to a failure only by a fault of its own work. -/
theorem Run.blamed_of_failed {c : Config} {o : Orchestrator} {r : Run} {reply : Reply}
    (way : r.point.isUnderWay = true)
    (entered : (r.resume c o reply).2.1.point = .enteringFailed) :
    ∃ q f, r.request c = some q ∧ Blamed c r.cues q reply f ∧
      (r.resume c o reply).1.failure = some (Run.failureMessage f) := by
  obtain ⟨source, cues, metrics, point⟩ := r
  cases reply with
  | fault g =>
    cases point with
    | queued | reporting => cases entered
    | enteringDone | enteringFailed | tellingFailure | recording | finished => cases way
    | _ => exact ⟨_, _, rfl, .met g rfl, rfl⟩
  | done =>
    cases point with
    | enteringCompiling =>
      rcases compile_cases c o ⟨source, cues, metrics, .enteringCompiling⟩ with
        ⟨-, heq⟩ | ⟨unwritten, heq⟩
      · simp only [Run.resume, heq] at entered
        cases entered
      · simp only [Run.resume, heq]
        exact ⟨_, _, rfl, .notWritten unwritten, rfl⟩
    | enteringDone | enteringFailed | tellingFailure | recording | finished => cases way
    | _ => cases entered
  | line kind message =>
    cases point with
    | encoding graph =>
      simp only [Run.resume, Run.hear] at entered
      split at entered <;> cases entered
    | enteringDone | enteringFailed | tellingFailure | recording | finished => cases way
    | _ => cases entered
  | _ =>
    cases point with
    | enteringDone | enteringFailed | tellingFailure | recording | finished => cases way
    | _ => cases entered

/-- What is readable when a render comes to its result is of its own making. -/
theorem Run.shown_of_result {c : Config} {o : Orchestrator} {r : Run} {reply : Reply}
    {result : Except Fault Bytes} (way : r.point.isUnderWay = true) (failure : o.failure = none)
    (readable : (r.resume c o reply).1 = o.concluded result)
    (point : (r.resume c o reply).2.1.point = .ofResult result) :
    match result with
    | .ok data => reply = .bytes data ∧ r.request c = some (.read Filter.outputName) ∧
        (o.concluded result).shown = (.done, some { data }, none)
    | .error _ => ∃ q f, r.request c = some q ∧ Blamed c r.cues q reply f ∧
        (o.concluded result).shown = (.failed, none, some (Run.failureMessage f)) := by
  cases result with
  | ok data =>
    obtain ⟨hreply, hasks⟩ := Run.reading_of_done way readable point
    refine ⟨hreply, hasks, ?_⟩
    show (State.done, some _, o.failure) = _
    rw [failure]
  | error f =>
    obtain ⟨q, g, hasks, hblamed, hfailure⟩ := Run.blamed_of_failed way point
    refine ⟨q, g, hasks, hblamed, ?_⟩
    rw [readable] at hfailure
    show (State.failed, none, (o.concluded (.error f)).failure) = _
    rw [hfailure]

end Render

namespace Workshop

/-! ## What a render deals with among others -/

/-- What the `n`-th render deals with when this happens. -/
def dealing? (n : Nat) (w : Workshop) (e : Event) : Option Dealing :=
  match w.exchange? e with
  | some (m, q, reply) => if m = n then some ⟨w.orchestrator, q, reply⟩ else none
  | none => none

/-- What the `n`-th render deals with, one after another. -/
def dealings (n : Nat) : Workshop → List Event → List Dealing
  | _, [] => []
  | w, e :: es => (w.dealing? n e).toList ++ (w.step e).dealings n es

section Dealings

variable {w : Workshop} {n : Nat} {e : Event} {es : List Event} {run : Run} {d : Dealing}

theorem dealing?_eq_some (h : w.dealing? n e = some d) :
    w.exchange? e = some (n, d.request, d.reply) ∧ d.seen = w.orchestrator := by
  unfold dealing? at h
  split at h
  · next m q reply hexchange =>
    split at h
    · next hm =>
      subst hm
      cases h
      exact ⟨hexchange, rfl⟩
    · cases h
  · cases h

theorem dealings_append (es fs : List Event) :
    w.dealings n (es ++ fs) = w.dealings n es ++ (w.run es).dealings n fs := by
  induction es generalizing w with
  | nil => rfl
  | cons e es ih =>
    show (w.dealing? n e).toList ++ (w.step e).dealings n (es ++ fs) = _
    rw [ih, ← List.append_assoc]
    rfl

theorem mem_trace_of_dealing (h : d ∈ w.dealings n es) :
    (n, d.request, d.reply) ∈ w.trace es := by
  induction es generalizing w with
  | nil => cases h
  | cons e es ih =>
    rcases List.mem_append.mp h with h | h
    · obtain ⟨hexchange, -⟩ := dealing?_eq_some (Option.mem_toList.mp h)
      exact List.mem_append_left _ (Option.mem_toList.mpr hexchange)
    · exact List.mem_append_right _ (ih h)

theorem step_answer (found : w.jobs[n]? = some (.working run)) (reply : Reply) :
    (w.step (.answer n reply)).jobs[n]? =
      some (.working (run.resume w.config w.orchestrator reply).2.1) := by
  simp only [step, found]
  rw [getElem?_set_of_found found, if_pos rfl]
  rfl

/-- Only its own answers move a render on that a worker has. -/
theorem step_job (found : w.jobs[n]? = some (.working run)) (e : Event) :
    (∃ d, w.dealing? n e = some d ∧ run.request w.config = some d.request ∧
        (w.step e).jobs[n]? = some (.working (run.resume w.config d.seen d.reply).2.1)) ∨
      w.dealing? n e = none ∧ (w.step e).jobs[n]? = some (.working run) := by
  cases hdealing : w.dealing? n e with
  | some d =>
    obtain ⟨hexchange, hseen⟩ := dealing?_eq_some hdealing
    obtain ⟨rfl, run', found', hasks⟩ := exchange?_eq_some hexchange
    cases found.symm.trans found'
    have hnext := step_answer found d.reply
    rw [← hseen] at hnext
    exact .inl ⟨d, rfl, hasks, hnext⟩
  | none =>
    right
    refine ⟨rfl, ?_⟩
    -- a render that is still announced is another one
    have other {m : Nat} {source : Bytes} {cues : List Cue} {job : Job}
        (there : w.jobs[m]? = some (.announced source cues))
        (jobs : (w.step e).jobs = w.jobs.set m job) :
        (w.step e).jobs[n]? = some (.working run) := by
      rw [jobs, getElem?_set_of_found there, if_neg, found]
      rintro rfl
      cases there.symm.trans found
    cases w.change_step e with
    | quiet _ jobs => rw [jobs, found]
    | forgotten _ _ jobs => rw [jobs, found]
    | accepted source cues total _ _ jobs =>
      rw [jobs, List.getElem?_append_left (List.getElem?_eq_some_iff.mp found).1, found]
    | handedOn m source cues there _ jobs => exact other there jobs
    | dropped m source cues there _ jobs => exact other there jobs
    | answered m run' reply event there _ jobs =>
      rw [jobs, getElem?_set_of_found there]
      split
      · next hmn =>
        subst hmn event
        cases there.symm.trans found
        -- it is answered and has not asked for anything, so it is over
        have hrequest : run.request w.config = none := by
          cases hq : run.request w.config with
          | none => rfl
          | some q => simp [dealing?, exchange?, found, hq] at hdealing
        obtain ⟨outcome, hover⟩ := Run.finished_of_request hrequest
        obtain ⟨source, cues, metrics, point⟩ := run
        cases hover
        cases reply <;> rfl
      · exact found

/-- What a render deals with is its course from where it stands. -/
theorem course_dealings (found : w.jobs[n]? = some (.working run)) (es : List Event) :
    ∃ run', (w.run es).jobs[n]? = some (.working run') ∧
      Course w.config run (w.dealings n es) run' := by
  induction es generalizing w run with
  | nil => exact ⟨run, found, .refl⟩
  | cons e es ih =>
    rcases step_job found e with ⟨d, hdealing, hasks, hnext⟩ | ⟨hdealing, hnext⟩
    · obtain ⟨run', hrun', hcourse⟩ := ih hnext
      rw [config_step] at hcourse
      refine ⟨run', hrun', ?_⟩
      show Course w.config run ((w.dealing? n e).toList ++ (w.step e).dealings n es) run'
      rw [hdealing]
      exact .step hasks hcourse
    · obtain ⟨run', hrun', hcourse⟩ := ih hnext
      rw [config_step] at hcourse
      refine ⟨run', hrun', ?_⟩
      show Course w.config run ((w.dealing? n e).toList ++ (w.step e).dealings n es) run'
      rw [hdealing]
      exact hcourse

end Dealings

/-! ## Renders that have come to a result -/

section Over

variable {w : Workshop} {n : Nat} {e : Event} {es : List Event}

theorem over_iff_of_working {run : Run} (found : w.jobs[n]? = some (.working run)) :
    w.Over n ↔ run.point.isUnderWay = false := by
  have hrun : w.render? n = some run := by rw [render?, found]; rfl
  constructor
  · rintro ⟨run', hrun', hover⟩
    cases hrun.symm.trans hrun'
    exact hover
  · exact fun hover => ⟨run, hrun, hover⟩

/-- A worker has a render that has come to its result. -/
theorem Over.working (h : w.Over n) :
    ∃ run, w.jobs[n]? = some (.working run) ∧ run.point.isUnderWay = false := by
  obtain ⟨run, hrun, hover⟩ := h
  obtain ⟨job, found, hjob⟩ := Option.bind_eq_some_iff.mp hrun
  cases job with
  | announced source cues => cases hjob; cases hover
  | working run' => cases hjob; exact ⟨run, found, hover⟩
  | dropped => cases hjob

theorem Over.step (h : w.Over n) (e : Event) : (w.step e).Over n := by
  obtain ⟨run, found, hover⟩ := h.working
  obtain ⟨job', found', hnext⟩ := next_step found e
  cases hnext with
  | same => exact (over_iff_of_working found').mpr hover
  | answered run o reply =>
    exact (over_iff_of_working found').mpr (Run.resume_concluded w.config o reply hover).1

theorem Over.run (h : w.Over n) (es : List Event) : (w.run es).Over n := by
  induction es generalizing w with
  | nil => exact h
  | cons e es ih => exact ih (h.step e)

/-- A render that has come to its result is over when it has been answered some times more. -/
theorem Over.finishes (h : w.Over n) :
    ∃ k run outcome, (w.run (List.replicate k (.answer n .done))).render? n = some run ∧
      run.outcome? = some outcome := by
  obtain ⟨run, found, hover⟩ := h.working
  induction hdistance : run.point.distance using Nat.strongRecOn generalizing w run with
  | _ distance ih =>
    cases hasks : run.request w.config with
    | none =>
      obtain ⟨outcome, hpoint⟩ := Run.finished_of_request hasks
      refine ⟨0, run, outcome, ?_, ?_⟩
      · show (w.jobs[n]?).bind Job.run? = some run
        rw [found]
        rfl
      · simp only [Run.outcome?, hpoint]
    | some q =>
      have hfits : q.takes .done = true := by
        obtain ⟨source, cues, metrics, point⟩ := run
        cases point with
        | enteringDone | enteringFailed | tellingFailure | recording => cases hasks; rfl
        | finished => cases hasks
        | _ => cases hover
      have hnearer := Render.distance_lt (o := w.orchestrator) hasks hfits rfl
      have hnext := step_answer found .done
      obtain ⟨k, run', outcome, hrun', houtcome⟩ :=
        ih _ (hdistance ▸ hnearer) (h.step _) _ hnext
          (Run.resume_concluded w.config w.orchestrator .done hover).1 rfl
      exact ⟨k + 1, run', outcome, hrun', houtcome⟩

/-- How a render comes to its result. -/
theorem result_of_step (before : ¬ w.Over n) (after : (w.step e).Over n) :
    ∃ run reply result, e = .answer n reply ∧ w.jobs[n]? = some (.working run) ∧
      run.point.isUnderWay = true ∧
      (run.resume w.config w.orchestrator reply).2.1.point = .ofResult result ∧
      (run.resume w.config w.orchestrator reply).1 = w.orchestrator.concluded result ∧
      (w.step e).orchestrator = w.orchestrator.concluded result := by
  obtain ⟨run', found', hover⟩ := after.working
  have stays {run : Run} (found : w.jobs[n]? = some (.working run))
      (hover : run.point.isUnderWay = false) : False :=
    before ((over_iff_of_working found).mpr hover)
  cases w.change_step e with
  | quiet _ jobs => exact (stays (jobs ▸ found') hover).elim
  | forgotten _ _ jobs => exact (stays (jobs ▸ found') hover).elim
  | accepted source cues total _ _ jobs =>
    rw [jobs, List.getElem?_append] at found'
    split at found'
    · exact (stays found' hover).elim
    · cases List.mem_singleton.mp (List.mem_of_getElem? found')
  | handedOn m source cues there _ jobs =>
    rw [jobs, getElem?_set_of_found there] at found'
    split at found'
    · cases found'
      cases hover
    · exact (stays found' hover).elim
  | dropped m source cues there _ jobs =>
    rw [jobs, getElem?_set_of_found there] at found'
    split at found'
    · cases found'
    · exact (stays found' hover).elim
  | answered m run reply event there readable jobs =>
    rw [jobs, getElem?_set_of_found there] at found'
    split at found'
    · next hmn =>
      subst hmn
      cases found'
      cases hway : run.point.isUnderWay with
      | false => exact (stays there hway).elim
      | true =>
        rcases Run.resume_underWay w.config w.orchestrator reply hway with
          ⟨hgoes, -⟩ | ⟨result, hpoint, hresult⟩
        · rw [hover] at hgoes
          cases hgoes
        · exact ⟨run, reply, result, event, there, hway, hpoint, hresult, readable.trans hresult⟩
    · exact (stays found' hover).elim

/-- The history of a render that came to its result, cut where it did. -/
theorem exists_ending (before : ¬ w.Over n) (after : (w.run es).Over n) :
    ∃ fs e gs, es = fs ++ e :: gs ∧ ¬ (w.run fs).Over n ∧ ((w.run fs).step e).Over n ∧
      w.ending n es = some ((w.run fs).step e).orchestrator.shown := by
  induction es generalizing w with
  | nil => exact absurd after before
  | cons e es ih =>
    by_cases hover : (w.step e).Over n
    · exact ⟨[], e, es, rfl, before, hover, if_pos hover⟩
    · obtain ⟨fs, e', gs, rfl, hbefore, hafter, hending⟩ := ih hover after
      exact ⟨e :: fs, e', gs, rfl, hbefore, hafter, (if_neg hover).trans hending⟩

theorem isReport_of_not_over (h : ¬ w.Over n) {d : Dealing} (hd : w.dealing? n e = some d) :
    d.request.isReport = false := by
  obtain ⟨hexchange, -⟩ := dealing?_eq_some hd
  obtain ⟨-, run, found, hasks⟩ := exchange?_eq_some hexchange
  have hway : run.point.isUnderWay = true := by
    rw [← Bool.not_eq_false, ← over_iff_of_working found]
    exact h
  exact Run.isReport_of_underWay hway hasks

/-- On the way to its result, and when it comes to it, a render reports nothing. -/
theorem dealings_of_not_over (h : ¬ (w.run es).Over n) (e : Event) :
    ∀ d ∈ w.dealings n (es ++ [e]), d.request.isReport = false := by
  intro d hd
  induction es generalizing w with
  | nil =>
    rw [List.nil_append, dealings, dealings, List.append_nil] at hd
    exact isReport_of_not_over h (Option.mem_toList.mp hd)
  | cons e' es ih =>
    rcases List.mem_append.mp hd with hd | hd
    · have hbefore : ¬ w.Over n := fun hover => h (hover.run (e' :: es))
      exact isReport_of_not_over hbefore (Option.mem_toList.mp hd)
    · exact ih h hd

end Over

/-! ## Listeners that return, and discreet ones -/

/-- Answers fit what was asked for, and listeners return that are told of a state. Whoever is told
of a failure or of progress may fail. -/
def Returning (w : Workshop) (es : List Event) : Prop :=
  ∀ x ∈ w.trace es, x.2.1.takes x.2.2 = true ∧ (x.2.1.stateTold.isSome → x.2.2 = .done)

instance (w : Workshop) (es : List Event) : Decidable (w.Returning es) :=
  inferInstanceAs (Decidable (∀ x ∈ w.trace es, _))

/-- Listeners of the `n`-th render are being told of its result. -/
def Telling (w : Workshop) (n : Nat) : Prop :=
  (w.render? n).any (·.point.tellsResult) = true

instance (w : Workshop) (n : Nat) : Decidable (w.Telling n) := inferInstanceAs (Decidable (_ = true))

/-- Whether this asks for something that can change a result which is readable. -/
def Event.asks : Event → Bool
  | .reset | .start (some _) _ _ | .command (.upload _) | .command .startRender => true
  | _ => false

/-- Nobody asks for anything while listeners of the `n`-th render are told of its result. -/
def Discreet (n : Nat) : Workshop → List Event → Prop
  | _, [] => True
  | w, e :: es => (w.Telling n → e.asks = false) ∧ (w.step e).Discreet n es

instance Discreet.decidable (n : Nat) : ∀ (w : Workshop) (es : List Event), Decidable (w.Discreet n es)
  | _, [] => .isTrue trivial
  | w, e :: es =>
    have := decidable n (w.step e) es
    inferInstanceAs (Decidable ((w.Telling n → e.asks = false) ∧ (w.step e).Discreet n es))

section Listeners

variable {w : Workshop} {n : Nat} {e : Event} {es fs : List Event}

theorem returning_cons : w.Returning (e :: es) →
    (∀ x, w.exchange? e = some x →
      x.2.1.takes x.2.2 = true ∧ (x.2.1.stateTold.isSome → x.2.2 = .done)) ∧
    (w.step e).Returning es := by
  intro h
  constructor
  · exact fun x hx => h x (List.mem_append_left _ (Option.mem_toList.mpr hx))
  · exact fun x hx => h x (List.mem_append_right _ hx)

theorem Returning.courteous (h : w.Returning es) : w.Courteous es := by
  induction es generalizing w with
  | nil => trivial
  | cons e es ih =>
    obtain ⟨hnow, hlater⟩ := returning_cons h
    refine ⟨?_, ih hlater⟩
    cases e with
    | answer m reply =>
      cases reply with
      | fault f =>
        intro run found hpoint
        have hasks : w.exchange? (.answer m (.fault f)) = some (m, .tellState .done, .fault f) := by
          simp [exchange?, found, Run.request, hpoint]
        have hreturns := (hnow _ hasks).2 rfl
        cases hreturns
      | _ => trivial
    | _ => trivial

theorem Discreet.suffix (h : w.Discreet n (es ++ fs)) : (w.run es).Discreet n fs := by
  induction es generalizing w with
  | nil => exact h
  | cons e es ih => exact ih h.2

/-- While nothing is in flight only who asks for something changes what is readable. -/
theorem orchestrator_step (exclusive : w.Exclusive) (free : ¬ w.InFlight) (spares : w.Spares e)
    (quiet : e.asks = false) : (w.step e).orchestrator = w.orchestrator := by
  cases e with
  | command c =>
    cases c with
    | upload | startRender => cases quiet
    | rendering => rfl
    | _ => exact w.session.orchestrator_after rfl
  | start source cues total =>
    cases source with
    | none => rfl
    | some video => cases quiet
  | reset => cases quiet
  | close => rfl
  | handOn m | abandon m =>
    simp only [step]
    split <;> rfl
  | answer m reply =>
    simp only [step]
    split
    · next run found =>
      cases hway : run.point.isUnderWay with
      | true => exact absurd (exclusive.inFlight m (.inl ⟨_, found, hway⟩)) free
      | false =>
        rcases (Run.resume_concluded w.config w.orchestrator reply hway).2 with
          hsame | ⟨hpoint, f, rfl, -⟩
        · exact hsame
        · exact absurd hpoint (spares run found)
    · rfl

/-- Discreet listeners leave what they were told of. -/
theorem seen_of_discreet (exclusive : w.Exclusive) (free : ¬ w.InFlight) {run : Run}
    (found : w.jobs[n]? = some (.working run)) (tells : run.point.tellsResult = true)
    (polite : w.Courteous es) (discreet : w.Discreet n es) {d : Dealing} {ds : List Dealing}
    (head : w.dealings n es = d :: ds) : d.seen = w.orchestrator := by
  induction es generalizing w with
  | nil => cases head
  | cons e es ih =>
    have htelling : w.Telling n := by
      rw [Telling, render?, found]
      exact tells
    have hsame := orchestrator_step exclusive free polite.1 (discreet.1 htelling)
    have head : (w.dealing? n e).toList ++ (w.step e).dealings n es = d :: ds := head
    rcases step_job found e with ⟨d', hdealing, -, -⟩ | ⟨hdealing, hnext⟩
    · rw [hdealing] at head
      cases head
      exact (dealing?_eq_some hdealing).2
    · rw [hdealing] at head
      rw [← hsame]
      refine ih (exclusive.step polite.1) ?_ hnext polite.2 discreet.2 head
      unfold InFlight
      rwa [hsame]

end Listeners

/-! ## Reports -/

open Render (Blamed)

/-- A result is of the `n`-th render's own making, and nothing else is shown with it. -/
def Own (w : Workshop) (n : Nat) (es : List Event) (cues : List Cue) (result : Except Fault Bytes)
    (shown : State × Option Artifact × Option String) : Prop :=
  match result with
  | .ok data => (n, .read Filter.outputName, .bytes data) ∈ w.trace es ∧
      shown = (.done, some { data }, none)
  | .error _ => ∃ q reply f, (n, q, reply) ∈ w.trace es ∧ Blamed w.config cues q reply f ∧
      shown = (.failed, none, some (Run.failureMessage f))

/-- A render of these cues that is over: what it dealt with up to its result and behind it, and what
was readable when it came to the result. -/
structure Conclusion (w : Workshop) (n : Nat) (es : List Event) (cues : List Cue)
    (result : Except Fault Bytes) (reached : Orchestrator) (front behind : List Dealing)
    (outcome : Outcome) : Prop where
  dealt : w.dealings n es = front ++ behind
  quiet : ∀ d ∈ front, d.request.isReport = false
  aftermath : Aftermath (.ofResult result) behind outcome
  returns : ∀ d ∈ behind, d.request.stateTold.isSome → d.reply = .done
  ending : w.ending n es = some reached.shown
  own : w.Own n es cues result reached.shown
  discreet : w.Discreet n es → ∀ d ds, behind = d :: ds → d.seen = reached

/-- What the `n`-th render reports, which is one of these cues: `left` is what is readable when the
listener returns that was told of the result. -/
inductive Reported (w : Workshop) (n : Nat) (es : List Event) (cues : List Cue)
    (left : Orchestrator) (outcome : Outcome) : Prop
  /-- The render read a video. What it ends with is the video that was left, if there is one, -/
  | video (data : Bytes) (read : (n, .read Filter.outputName, .bytes data) ∈ w.trace es)
      (told : w.ending n es = some (.done, some { data }, none))
      (returned : ⟨left, .tellState .done, .done⟩ ∈ w.dealings n es)
      (quiet : failuresIn (w.dealings n es) = [])
      (ends : outcome = .ok left.artifact ∨ ∃ f, outcome = .error f)
  /-- or it failed by a fault. What is told is the failure that was left, if there is one. -/
  | failure (q : Request) (reply : Reply) (f : Fault) (dealt : (n, q, reply) ∈ w.trace es)
      (blamed : Blamed w.config cues q reply f)
      (told : w.ending n es = some (.failed, none, some (Run.failureMessage f)))
      (returned : ⟨left, .tellState .failed, .done⟩ ∈ w.dealings n es)
      (once : failuresIn (w.dealings n es) = [left.failure])
      (ends : outcome = .ok none ∨ ∃ f, outcome = .error f)

section Reported

variable {w : Workshop} {n : Nat} {es : List Event} {past : List (Nat × Request × Reply)}
  {run : Run} {cues : List Cue} {result : Except Fault Bytes} {reached : Orchestrator}
  {front behind : List Dealing} {outcome : Outcome}

theorem exists_conclusion (exclusive : w.Exclusive) (story : w.Story past) (before : ¬ w.Over n)
    (returning : w.Returning es) (found : (w.run es).render? n = some run)
    (finished : run.point = .finished outcome) :
    ∃ result reached front behind,
      w.Conclusion n es run.cues result reached front behind outcome := by
  have hover : (w.run es).Over n := ⟨run, found, by rw [finished]; rfl⟩
  obtain ⟨fs, e, gs, rfl, hnot, hover, hending⟩ := exists_ending before hover
  obtain ⟨worked, reply, result, rfl, hfound, hway, hpoint, hresume, hreadable⟩ :=
    result_of_step hnot hover
  obtain ⟨hpolite, hspares, hlater⟩ := courteous_append.mp returning.courteous
  have hexclusive := exclusive.run hpolite
  have hnext := step_answer hfound reply
  have hdealt : w.dealings n (fs ++ .answer n reply :: gs) =
      w.dealings n (fs ++ [.answer n reply]) ++
        ((w.run fs).step (.answer n reply)).dealings n gs := by
    rw [List.append_cons, dealings_append, run_append]
    rfl
  have hfits (d : Dealing) (hd : d ∈ ((w.run fs).step (.answer n reply)).dealings n gs) :=
    returning _ (mem_trace_of_dealing (hdealt ▸ List.mem_append_right _ hd))
  obtain ⟨run', hrun', hcourse⟩ := course_dealings hnext gs
  have hsame : run' = run := by
    rw [run_append, run_cons, render?, hrun'] at found
    exact Option.some.inj found
  subst hsame
  refine ⟨result, _, _, _, hdealt, dealings_of_not_over hnot _, ?_, ?_, hreadable ▸ hending, ?_, ?_⟩
  · rw [← hpoint]
    exact hcourse.aftermath (by rw [hpoint, Point.isUnderWay_ofResult]) finished
      fun d hd => (hfits d hd).1
  · exact fun d hd => (hfits d hd).2
  · have hmet {q : Request} (asks : worked.request (w.run fs).config = some q) :
        (n, q, reply) ∈ w.trace (fs ++ .answer n reply :: gs) := by
      apply mem_trace_of_dealing (d := ⟨(w.run fs).orchestrator, q, reply⟩)
      rw [dealings_append]
      refine List.mem_append_right _ (List.mem_append_left _ ?_)
      simp [dealing?, exchange?, hfound, asks]
    -- nothing of an earlier render is left while this one is in flight
    have hflight := hexclusive.inFlight n (.inl ⟨_, hfound, hway⟩)
    have hbare := (story.run exclusive hpolite).coherent.bare_of_inFlight hflight
    have hown := Run.shown_of_result hway hbare.2 hresume hpoint
    cases result with
    | ok data =>
      obtain ⟨rfl, hasks, hshown⟩ := hown
      exact ⟨hmet hasks, hshown⟩
    | error f =>
      obtain ⟨q, g, hasks, hblamed, hshown⟩ := hown
      rw [config_run, ← Run.cues_resume, ← hcourse.cues_eq] at hblamed
      exact ⟨q, reply, g, hmet hasks, hblamed, hshown⟩
  · intro discreet d ds head
    rw [← hreadable]
    refine seen_of_discreet (hexclusive.step hspares) ?_ hnext ?_ hlater discreet.suffix.2 head
    · apply not_inFlight
      rw [hreadable, isInFlight_concluded]
    · rw [hpoint, Point.tellsResult_ofResult]

theorem Conclusion.failuresIn_eq (h : w.Conclusion n es cues result reached front behind outcome) :
    failuresIn (w.dealings n es) = failuresIn behind := by
  rw [h.dealt, Render.failuresIn_behind h.quiet]

theorem Conclusion.error_iff (h : w.Conclusion n es cues result reached front behind outcome) :
    (∃ f, outcome = .error f) ↔ ∃ d ∈ w.dealings n es, d.Escapes := by
  rw [h.aftermath.error_iff_escapes, h.dealt, Render.escapes_behind h.quiet]

/-- Whatever was left by the listener that was told of the result is reported. -/
theorem Conclusion.reported (h : w.Conclusion n es cues result reached front behind outcome) :
    ∃ left, w.Reported n es cues left outcome ∧
      (w.Discreet n es → w.ending n es = some left.shown) := by
  have hown := h.own
  have haftermath := h.aftermath
  have hbehind {d : Dealing} (hd : d ∈ behind) : d ∈ w.dealings n es :=
    h.dealt ▸ List.mem_append_right front hd
  have hdiscreet {left : Dealing} {ds : List Dealing} (head : behind = left :: ds)
      (discreet : w.Discreet n es) : w.ending n es = some left.seen.shown := by
    rw [h.ending, h.discreet discreet _ _ head]
  cases result with
  | ok data =>
    obtain ⟨hread, hshown⟩ := hown
    cases haftermath with
    | done left rest =>
      obtain ⟨hnone, hends⟩ := rest.of_recording
      refine ⟨left, .video data hread (hshown ▸ h.ending) (hbehind List.mem_cons_self) ?_ hends,
        hdiscreet rfl⟩
      exact h.failuresIn_eq.trans hnone
    | undone left f rest => cases h.returns _ List.mem_cons_self rfl
  | error f =>
    obtain ⟨q, reply, g, hmet, hblamed, hshown⟩ := hown
    cases haftermath with
    | failed left rest =>
      obtain ⟨honce, hends⟩ := rest.of_telling
      refine ⟨left, .failure q reply g hmet hblamed (hshown ▸ h.ending)
        (hbehind List.mem_cons_self) ?_ hends, hdiscreet rfl⟩
      exact h.failuresIn_eq.trans honce
    | unfailed left f rest => cases h.returns _ List.mem_cons_self rfl

end Reported

theorem not_over_opened (c : Config) (s : Session) (n : Nat) : ¬ (opened c s).Over n := by
  rintro ⟨run, hrun, -⟩
  cases hrun

/-- Whatever happens, a render that came to its result is over after some answers more; and if
listeners that are told of a state return, then it reports what was left by the listener that was
told of the result. As long as nobody asks for anything while that listener is being told, this is
what the render came to itself. The outcome is a fault exactly if one escaped behind the result. -/
theorem render_reports_what_listener_left (c : Config) (s : Session) (es : List Event) (n : Nat)
    (concluded : ((opened c s).run es).Over n) :
    (∃ k run outcome,
      ((opened c s).run (es ++ List.replicate k (.answer n .done))).render? n = some run ∧
        run.outcome? = some outcome) ∧
    ((opened c s).Returning es → ∀ run outcome,
      ((opened c s).run es).render? n = some run → run.outcome? = some outcome →
        ((∃ f, outcome = .error f) ↔ ∃ d ∈ (opened c s).dealings n es, d.Escapes) ∧
        ∃ left, (opened c s).Reported n es run.cues left outcome ∧
          ((opened c s).Discreet n es → (opened c s).ending n es = some left.shown)) := by
  constructor
  · obtain ⟨k, run, outcome, hrun, houtcome⟩ := concluded.finishes
    exact ⟨k, run, outcome, by rw [run_append, hrun], houtcome⟩
  · intro returning run outcome found ends
    obtain ⟨result, reached, front, behind, hconclusion⟩ :=
      exists_conclusion (exclusive_opened c s) (story_opened c s) (not_over_opened c s n) returning
        found (Run.finished_of_outcome ends)
    exact ⟨hconclusion.error_iff, hconclusion.reported⟩

/-- A font that cannot be read, and listeners that ask for nothing. The failure that is told is the
one that the render came to. -/
theorem discreet_listener_leaves_failure :
    let w : Workshop := opened { font := "Studio.ttf" } { clock := { offset := .zero } }
    let es : List Event :=
      [.start (some [1]) [] .zero, .handOn 0, .answer 0 .done, .answer 0 (.fault ⟨.os, "gone", ""⟩),
        .command (.setDuration .zero), .answer 0 .done, .answer 0 .done, .answer 0 .done]
    (w.run es).Over 0 ∧ w.Returning es ∧ w.Discreet 0 es ∧
      ∃ left, w.Reported 0 es [] left (.ok none) ∧ w.ending 0 es = some left.shown := by
  intro w es
  have concluded : (w.run es).Over 0 := by decide +kernel
  have returning : w.Returning es := by decide +kernel
  have discreet : w.Discreet 0 es := by decide +kernel
  obtain ⟨-, hreports⟩ := render_reports_what_listener_left { font := "Studio.ttf" }
    { clock := { offset := .zero } } es 0 concluded
  obtain ⟨-, left, hreported, hleft⟩ := hreports returning _ _ rfl rfl
  exact ⟨concluded, returning, discreet, left, hreported, hleft discreet⟩

/-- Listeners that ask for something when they are told of a result. One forgets the video, and the
render ends without one; one forgets the failure, and no text is told; and one asks for another
render, which fails before it returns, and the text of that is told. If the row cannot be recorded,
then even a listener that asks for nothing does not help, and a render that read a video ends by a
fault. -/
theorem asking_listener_changes_report :
    let w : Workshop := opened { font := "Studio.ttf" } { clock := { offset := .zero } }
    let gone : Fault := ⟨.os, "gone", ""⟩
    let full : Fault := ⟨.os, "full", ""⟩
    let done : List Event :=
      [.start (some [1]) [] .zero, .handOn 0, .answer 0 .done, .answer 0 (.bytes [2]),
        .answer 0 .done, .answer 0 .done, .answer 0 .done, .answer 0 .done, .answer 0 .done,
        .answer 0 (.bytes [3])]
    let failed : List Event :=
      [.start (some [1]) [] .zero, .handOn 0, .answer 0 .done, .answer 0 (.fault gone)]
    let again : List Event :=
      [.start (some [4]) [] .zero, .handOn 1, .answer 1 .done, .answer 1 (.fault full),
        .answer 1 .done, .answer 1 .done, .answer 1 .done]
    let rest : List Event := [.answer 0 .done, .answer 0 .done, .answer 0 .done]
    let unrecorded : List Event :=
      [.answer 0 .done, .answer 0 (.fault ⟨.value, "embedded null byte", ""⟩)]
    let outcome (es : List Event) : Option (Option (Option Artifact)) :=
      (((w.run es).render? 0).bind Run.outcome?).map Except.toOption
    (w.Returning (done ++ .reset :: rest) ∧
      w.ending 0 (done ++ .reset :: rest) = some (.done, some { data := [3] }, none) ∧
      outcome (done ++ .reset :: rest) = some (some none)) ∧
    (w.Returning (failed ++ .reset :: rest) ∧
      failuresIn (w.dealings 0 (failed ++ .reset :: rest)) = [none]) ∧
    (w.Returning (failed ++ again ++ rest) ∧
      failuresIn (w.dealings 0 (failed ++ again ++ rest)) =
        [some (Run.failureMessage (Run.fontFault full))] ∧
      Run.failureMessage (Run.fontFault full) ≠ Run.failureMessage (Run.fontFault gone)) ∧
    w.Returning (done ++ unrecorded) ∧ w.Discreet 0 (done ++ unrecorded) ∧
      w.ending 0 (done ++ unrecorded) = some (.done, some { data := [3] }, none) ∧
      outcome (done ++ unrecorded) = some none := by
  intro w gone full done failed again rest unrecorded outcome
  refine ⟨⟨?_, ?_, ?_⟩, ⟨?_, ?_⟩, ⟨?_, ?_, ?_⟩, ?_, ?_, ?_, ?_⟩
  all_goals decide +kernel

end Workshop

end TimedText
