import TimedText.Proofs.Session.Command
import TimedText.Proofs.Render.Outcome

/-!
# A session and the renders that it accepted

Rendering goes on beside the editor. Listeners are told of an accepted render first, and behind that
it is handed on to a worker; from then on it goes from one request to the next whenever it is
answered. In between anything may happen: a `Workshop` takes commands of the editor, commands from
inside a listener that is being told, and answers to any render that was handed on, in any order.
Nothing is assumed about how many workers there are, nor about which render has its turn.

`Change` says once what a step can do to what is readable about rendering and to the accepted
renders. What a step preserves is argued by its cases, and what a run preserves by induction.
-/

namespace TimedText

open Render (State Artifact Orchestrator Point Run Request Reply Config)

/-! ## Renders on their way -/

/-- Whether a render has still to come to its result. -/
def Render.Point.isUnderWay : Point → Bool
  | .enteringDone | .enteringFailed | .tellingFailure _ | .recording _ | .finished _ => false
  | _ => true

/-- Where a render stands that has just come to a result. -/
def Render.Point.ofResult : Except Fault Bytes → Point
  | .ok _ => .enteringDone
  | .error _ => .enteringFailed

@[simp] theorem Render.Point.isUnderWay_ofResult (result : Except Fault Bytes) :
    (Point.ofResult result).isUnderWay = false := by
  cases result <;> rfl

section Resume

variable (c : Config) (o : Orchestrator) {r : Run} (reply : Reply)

/-- An answer to a render under way lets it go on, whereby at most another state of a render in
flight is entered, or it brings the render to a result. -/
theorem Render.Run.resume_underWay (h : r.point.isUnderWay = true) :
    ((r.resume c o reply).2.1.point.isUnderWay = true ∧
      ∃ s, (s = o.state ∨ s.isInFlight = true) ∧
        (r.resume c o reply).1 = { o with state := s }) ∨
    ∃ result, (r.resume c o reply).2.1.point = .ofResult result ∧
      (r.resume c o reply).1 = o.concluded result := by
  -- an answer of the wrong kind changes nothing
  have stays (p : Point) (hp : p.isUnderWay = true) : (r.goto p).point.isUnderWay = true ∧
      ∃ s, (s = o.state ∨ s.isInFlight = true) ∧ o = { o with state := s } :=
    ⟨hp, o.state, .inl rfl, rfl⟩
  have fails (r : Run) (f : Fault) : ∃ result, (Run.fail o r f).2.1.point = .ofResult result ∧
      (Run.fail o r f).1 = o.concluded result := ⟨.error f, rfl, rfl⟩
  obtain ⟨source, cues, metrics, point⟩ := r
  cases point with
  | queued => cases reply <;> exact .inl (stays _ rfl)
  | readingFont =>
    cases reply with
    | fault f => exact .inr (fails _ _)
    | _ => exact .inl (stays _ rfl)
  | stagingSource font =>
    cases reply with
    | fault f => exact .inr (fails _ _)
    | _ => exact .inl (stays _ rfl)
  | stagingFont font =>
    cases reply with
    | done => exact .inl ⟨rfl, .compiling, .inr rfl, rfl⟩
    | fault f => exact .inr (fails _ _)
    | _ => exact .inl (stays _ rfl)
  | enteringCompiling =>
    cases reply with
    | done =>
      simp only [Run.resume]
      rcases Render.compile_cases c o ⟨source, cues, metrics, .enteringCompiling⟩ with
        ⟨-, hcompiled⟩ | ⟨-, hcompiled⟩
      · rw [hcompiled]
        exact .inl ⟨rfl, .encoding, .inr rfl, rfl⟩
      · rw [hcompiled]
        exact .inr (fails _ _)
    | fault f => exact .inr (fails _ _)
    | _ => exact .inl (stays _ rfl)
  | enteringEncoding graph =>
    cases reply with
    | fault f => exact .inr (fails _ _)
    | _ => exact .inl (stays _ rfl)
  | encoding graph =>
    cases reply with
    | line kind message =>
      left
      show (Run.hear c o _ graph kind message).2.1.point.isUnderWay = true ∧ ∃ s, _ ∧
        (Run.hear c o _ graph kind message).1 = _
      unfold Run.hear
      split <;> exact stays _ rfl
    | fault f => exact .inr (fails _ _)
    | _ => exact .inl (stays _ rfl)
  | reporting graph percent => cases reply <;> exact .inl (stays _ rfl)
  | reading =>
    cases reply with
    | bytes data => exact .inr ⟨.ok data, rfl, rfl⟩
    | fault f => exact .inr (fails _ _)
    | _ => exact .inl (stays _ rfl)
  | _ => cases h

/-- An answer to a render that came to its result changes nothing that is readable, unless it is a
fault of a listener that is told of the video. -/
theorem Render.Run.resume_concluded (h : r.point.isUnderWay = false) :
    (r.resume c o reply).2.1.point.isUnderWay = false ∧
      ((r.resume c o reply).1 = o ∨ r.point = .enteringDone ∧ ∃ f, reply = .fault f ∧
        (r.resume c o reply).1 = o.concluded (.error f)) := by
  obtain ⟨source, cues, metrics, point⟩ := r
  cases point with
  | enteringDone =>
    cases reply with
    | fault f => exact ⟨rfl, .inr ⟨rfl, f, rfl, rfl⟩⟩
    | _ => exact ⟨rfl, .inl rfl⟩
  | enteringFailed => cases reply <;> exact ⟨rfl, .inl rfl⟩
  | tellingFailure message => cases reply <;> exact ⟨rfl, .inl rfl⟩
  | recording outcome => cases reply <;> exact ⟨rfl, .inl rfl⟩
  | finished outcome => cases reply <;> exact ⟨rfl, .inl rfl⟩
  | _ => cases h

end Resume

/-! ## Workshops -/

/-- Where an accepted render is. -/
inductive Workshop.Job where
  /-- Listeners are told that it is staging. The video and the cues are still to be handed on. -/
  | announced (source : Bytes) (cues : List Cue)
  /-- A worker has it. -/
  | working (run : Run)
  /-- The request to render ended with a fault, and no worker ever has it. -/
  | dropped

/-- A session, and the renders that it accepted in the order in which it did. -/
structure Workshop where
  session : Session
  config : Config
  jobs : List Workshop.Job := []
  /-- Whether workers still take renders. -/
  isOpen : Bool := true

namespace Workshop

/-- A workshop that has rendered nothing. -/
def opened (c : Config) (s : Session) : Workshop where
  session := { s with orchestrator := {} }
  config := c

/-- What is readable about rendering. -/
def orchestrator (w : Workshop) : Orchestrator := w.session.orchestrator

/-- What can happen. Commands may come from the editor or from inside a listener. -/
inductive Event where
  /-- A command of the editor. Steps of a render come as answers only. -/
  | command (c : Session.Command)
  /-- A request to render any cues and any video. -/
  | start (source : Option Bytes) (cues : List Cue) (total : Double)
  | reset
  /-- The workers are sent away; what they have they finish. -/
  | close
  /-- The listener that was told that a render is staging returns, and the render is handed on. -/
  | handOn (n : Nat)
  /-- The listener that was told that a render is staging fails. -/
  | abandon (n : Nat)
  /-- A render that a worker has is answered. -/
  | answer (n : Nat) (reply : Reply)

/-- What a request to render comes to. -/
def accept (w : Workshop) : Session.Start → Workshop
  | .refused | .ignored _ => w
  | .accepted change =>
    match change.pending with
    | .submit run =>
      { w with session := change.session, jobs := w.jobs ++ [.announced run.source run.cues] }
    | .return | .loaded _ => { w with session := change.session }

/-- What happens next. What cannot happen does nothing. -/
def step (w : Workshop) : Event → Workshop
  | .command .startRender => w.accept w.session.startRender
  | .command (.rendering _) => w
  | .command c => { w with session := w.session.after c }
  | .start source cues total => w.accept (w.session.start source cues total)
  | .reset => { w with session := (w.session.reset .return).session }
  | .close => { w with isOpen := false }
  | .handOn n =>
    match w.jobs[n]? with
    | some (.announced source cues) =>
      -- workers that were sent away take nothing, and the request fails
      { w with jobs := w.jobs.set n (if w.isOpen then .working (.queue source cues) else .dropped) }
    | _ => w
  | .abandon n =>
    match w.jobs[n]? with
    | some (.announced _ _) => { w with jobs := w.jobs.set n .dropped }
    | _ => w
  | .answer n reply =>
    match w.jobs[n]? with
    | some (.working run) =>
      let (orchestrator, run, _) := run.resume w.config w.session.orchestrator reply
      { w with
        session := { w.session with orchestrator }
        jobs := w.jobs.set n (.working run) }
    | _ => w

/-- What happens one after another. -/
def run (w : Workshop) (es : List Event) : Workshop := es.foldl step w

@[simp] theorem run_nil (w : Workshop) : w.run [] = w := rfl

@[simp] theorem run_cons (w : Workshop) (e : Event) (es : List Event) :
    w.run (e :: es) = (w.step e).run es := rfl

theorem run_append (w : Workshop) (es fs : List Event) : w.run (es ++ fs) = (w.run es).run fs :=
  List.foldl_append

/-- Whether a render has been accepted and has still to come to its result. -/
def Job.isActive : Job → Bool
  | .announced _ _ => true
  | .working run => run.point.isUnderWay
  | .dropped => false

/-- The `n`-th accepted render is between staging and its result. -/
def Active (w : Workshop) (n : Nat) : Prop := ∃ job, w.jobs[n]? = some job ∧ job.isActive = true

instance (w : Workshop) (n : Nat) : Decidable (w.Active n) :=
  decidable_of_iff ((w.jobs[n]?).any Job.isActive = true) (by simp [Active, Option.any_eq_true])

/-- The request for the `n`-th accepted render failed after it had been accepted. -/
def Dropped (w : Workshop) (n : Nat) : Prop := w.jobs[n]? = some .dropped

/-! ## What a step can do -/

/-- What is readable about rendering behind a reset. -/
theorem orchestrator_reset (s : Session) (p : Session.Pending) :
    (s.reset p).session.orchestrator =
      if s.orchestrator.isInFlight then s.orchestrator
      else { s.orchestrator with state := .idle, artifact := none, failure := none } := by
  obtain ⟨timeline, clock, source, state, artifact, failure, total⟩ := s
  cases state <;> rfl

/-- What becomes of a step: `w'` is behind `e`. -/
inductive Change (w : Workshop) (e : Event) (w' : Workshop) : Prop
  | quiet (readable : w'.orchestrator = w.orchestrator) (jobs : w'.jobs = w.jobs)
  /-- The last result is forgotten. -/
  | forgotten (free : w.orchestrator.isInFlight = false)
      (readable : w'.orchestrator =
        { w.orchestrator with state := .idle, artifact := none, failure := none })
      (jobs : w'.jobs = w.jobs)
  /-- A render is accepted. -/
  | accepted (source : Bytes) (cues : List Cue) (total : Double)
      (free : w.orchestrator.isInFlight = false)
      (readable : w'.orchestrator = { state := .staging, total })
      (jobs : w'.jobs = w.jobs ++ [.announced source cues])
  | handedOn (n : Nat) (source : Bytes) (cues : List Cue)
      (found : w.jobs[n]? = some (.announced source cues))
      (readable : w'.orchestrator = w.orchestrator)
      (jobs : w'.jobs = w.jobs.set n (.working (.queue source cues)))
  | dropped (n : Nat) (source : Bytes) (cues : List Cue)
      (found : w.jobs[n]? = some (.announced source cues))
      (readable : w'.orchestrator = w.orchestrator) (jobs : w'.jobs = w.jobs.set n .dropped)
  | answered (n : Nat) (run : Run) (reply : Reply) (event : e = .answer n reply)
      (found : w.jobs[n]? = some (.working run))
      (readable : w'.orchestrator = (run.resume w.config w.orchestrator reply).1)
      (jobs : w'.jobs = w.jobs.set n (.working (run.resume w.config w.orchestrator reply).2.1))

section Step

variable (w : Workshop)

/-- A request with a video is accepted while nothing is in flight. -/
theorem accept_start (free : w.orchestrator.isInFlight = false) (video : Bytes) (cues : List Cue)
    (total : Double) :
    (w.accept (w.session.start (some video) cues total)).orchestrator =
        { state := .staging, total } ∧
      (w.accept (w.session.start (some video) cues total)).jobs =
        w.jobs ++ [.announced video cues] := by
  have haccepted : ∃ change, w.session.start (some video) cues total = .accepted change := by
    simp only [orchestrator] at free
    simp [Session.start, Orchestrator.start, free]
  obtain ⟨change, haccepted⟩ := haccepted
  obtain ⟨horchestrator, -, hpending⟩ := Render.start_eq_accepted haccepted
  rw [haccepted]
  unfold accept
  simp only [hpending]
  exact ⟨horchestrator, rfl⟩

theorem change_start (source : Option Bytes) (cues : List Cue) (total : Double) (e : Event) :
    Change w e (w.accept (w.session.start source cues total)) := by
  cases source with
  | none => exact .quiet rfl rfl
  | some video =>
    cases hflight : w.session.orchestrator.isInFlight with
    | true =>
      have hignored : ∃ records, w.session.start (some video) cues total = .ignored records := by
        simp [Session.start, Orchestrator.start, hflight]
      obtain ⟨records, hignored⟩ := hignored
      rw [hignored]
      exact .quiet rfl rfl
    | false =>
      obtain ⟨hreadable, hjobs⟩ := w.accept_start hflight video cues total
      exact .accepted video cues total hflight hreadable hjobs

theorem change_reset (s : Session) (same : s.orchestrator = w.session.orchestrator)
    (p : Session.Pending) (e : Event) : Change w e { w with session := (s.reset p).session } := by
  have hreset := orchestrator_reset s p
  rw [same] at hreset
  cases hflight : w.session.orchestrator.isInFlight with
  | true =>
    rw [hflight, if_pos rfl] at hreset
    exact .quiet hreset rfl
  | false =>
    rw [hflight, if_neg Bool.false_ne_true] at hreset
    exact .forgotten hflight hreset rfl

/-- Commands of the editor change nothing that is readable about rendering, but that loading a video
resets it and that a render may be accepted. -/
theorem change_command (c : Session.Command) : Change w (.command c) (w.step (.command c)) := by
  cases c with
  | upload data =>
    exact w.change_reset { w.session with source := some data, clock := w.session.clock.reset } rfl
      (.loaded data.length) _
  | startRender => exact w.change_start _ _ _ _
  | rendering o => exact .quiet rfl rfl
  | _ => exact .quiet (w.session.orchestrator_after rfl) rfl

/-- Whatever happens, it is one of these changes. -/
theorem change_step (e : Event) : Change w e (w.step e) := by
  cases e with
  | command c => exact w.change_command c
  | start source cues total => exact w.change_start source cues total _
  | reset => exact w.change_reset w.session rfl .return _
  | close => exact .quiet rfl rfl
  | handOn n =>
    simp only [step]
    split
    · next source cues found =>
      cases w.isOpen with
      | true => exact .handedOn n source cues found rfl rfl
      | false => exact .dropped n source cues found rfl rfl
    · exact .quiet rfl rfl
  | abandon n =>
    simp only [step]
    split
    · next source cues found => exact .dropped n source cues found rfl rfl
    · exact .quiet rfl rfl
  | answer n reply =>
    simp only [step]
    split
    · next run found => exact .answered n run reply rfl found rfl rfl
    · exact .quiet rfl rfl

end Step

theorem config_step (w : Workshop) (e : Event) : (w.step e).config = w.config := by
  have haccept (start : Session.Start) : (w.accept start).config = w.config := by
    unfold accept
    split
    · rfl
    · rfl
    · split <;> rfl
  cases e with
  | command c =>
    cases c with
    | startRender => exact haccept _
    | _ => rfl
  | start source cues total => exact haccept _
  | handOn n | abandon n | answer n reply =>
    simp only [step]
    split <;> rfl
  | _ => rfl

theorem config_run (w : Workshop) (es : List Event) : (w.run es).config = w.config := by
  induction es generalizing w with
  | nil => rfl
  | cons e es ih => exact (ih (w.step e)).trans (w.config_step e)

/-! ## Accepted renders keep their numbers -/

/-- What a step can make of one accepted render. -/
inductive Job.Next (c : Config) : Job → Job → Prop
  | same (job : Job) : Next c job job
  | handedOn (source : Bytes) (cues : List Cue) :
      Next c (.announced source cues) (.working (.queue source cues))
  | dropped (source : Bytes) (cues : List Cue) : Next c (.announced source cues) .dropped
  | answered (run : Run) (o : Orchestrator) (reply : Reply) :
      Next c (.working run) (.working (run.resume c o reply).2.1)

/-- A render that is not active any more never is again. -/
theorem Job.Next.isActive {c : Config} {job job' : Job} (h : Job.Next c job job')
    (active : job'.isActive = true) : job.isActive = true := by
  cases h with
  | same => exact active
  | handedOn source cues => rfl
  | dropped source cues => rfl
  | answered run o reply =>
    cases hway : run.point.isUnderWay with
    | true => exact hway
    | false =>
      have hstays := (Run.resume_concluded c o reply hway).1
      exact absurd active (by rw [Job.isActive, hstays]; exact Bool.false_ne_true)

section Jobs

variable {w : Workshop} {n : Nat}

theorem getElem?_set_of_found {jobs : List Job} {m : Nat} {job : Job}
    (found : jobs[m]? = some job) (job' : Job) :
    (jobs.set m job')[n]? = if m = n then some job' else jobs[n]? := by
  obtain ⟨hm, -⟩ := List.getElem?_eq_some_iff.mp found
  rw [List.getElem?_set, if_pos hm]

theorem Active.lt_length (h : w.Active n) : n < w.jobs.length := by
  obtain ⟨job, hjob, -⟩ := h
  exact (List.getElem?_eq_some_iff.mp hjob).1

theorem length_jobs_step (w : Workshop) (e : Event) :
    w.jobs.length ≤ (w.step e).jobs.length := by
  cases w.change_step e with
  | quiet _ jobs => simp [jobs]
  | forgotten _ _ jobs => simp [jobs]
  | accepted source cues total _ _ jobs => simp [jobs]
  | handedOn m source cues _ _ jobs => simp [jobs]
  | dropped m source cues _ _ jobs => simp [jobs]
  | answered m run reply _ _ _ jobs => simp [jobs]

theorem next_step {job : Job} (found : w.jobs[n]? = some job) (e : Event) :
    ∃ job', (w.step e).jobs[n]? = some job' ∧ Job.Next w.config job job' := by
  have hn := (List.getElem?_eq_some_iff.mp found).1
  -- where the step changes the job at `m`, that job is `n` or `n` stays
  have changed {m : Nat} {old new : Job} (there : w.jobs[m]? = some old)
      (next : Job.Next w.config old new) (jobs : (w.step e).jobs = w.jobs.set m new) :
      ∃ job', (w.step e).jobs[n]? = some job' ∧ Job.Next w.config job job' := by
    rw [jobs, getElem?_set_of_found there]
    by_cases hmn : m = n
    · subst hmn
      cases there.symm.trans found
      exact ⟨new, if_pos rfl, next⟩
    · exact ⟨job, by rw [if_neg hmn, found], .same job⟩
  cases w.change_step e with
  | quiet _ jobs => exact ⟨job, by rw [jobs, found], .same job⟩
  | forgotten _ _ jobs => exact ⟨job, by rw [jobs, found], .same job⟩
  | accepted source cues total _ _ jobs =>
    exact ⟨job, by rw [jobs, List.getElem?_append_left hn, found], .same job⟩
  | handedOn m source cues there _ jobs => exact changed there (.handedOn source cues) jobs
  | dropped m source cues there _ jobs => exact changed there (.dropped source cues) jobs
  | answered m run reply _ there _ jobs => exact changed there (.answered run _ reply) jobs

theorem not_active_step (hn : n < w.jobs.length) (h : ¬ w.Active n) (e : Event) :
    ¬ (w.step e).Active n := by
  rintro ⟨job', hjob', hactive⟩
  have hfound := List.getElem?_eq_getElem hn
  obtain ⟨_, hsome, hnext⟩ := next_step hfound e
  cases hsome.symm.trans hjob'
  exact h ⟨_, hfound, hnext.isActive hactive⟩

end Jobs

/-! ## Listeners that return, and what is said -/

/-- The event is not that a listener fails which is told of a video. -/
def Spares (w : Workshop) : Event → Prop
  | .answer n (.fault _) => ∀ run, w.jobs[n]? = some (.working run) → run.point ≠ .enteringDone
  | _ => True

/-- No listener fails while it is told of a video. Listeners may fail at any other time. -/
def Courteous : Workshop → List Event → Prop
  | _, [] => True
  | w, e :: es => w.Spares e ∧ (w.step e).Courteous es

instance (p : Point) : Decidable (p = .enteringDone) :=
  decidable_of_iff ((match p with | .enteringDone => true | _ => false) = true) (by
    cases p <;> simp)

instance (w : Workshop) : ∀ e, Decidable (w.Spares e)
  | .answer n (.fault _) =>
    match found : w.jobs[n]? with
    | some (.working run) =>
      decidable_of_iff (run.point ≠ .enteringDone) (by simp [Spares, found])
    | some (.announced _ _) | some .dropped | none => .isTrue (by simp [Spares, found])
  | .answer _ .done | .answer _ (.bytes _) | .answer _ (.line _ _) | .command _ | .start _ _ _
  | .reset | .close | .handOn _ | .abandon _ => .isTrue trivial

instance Courteous.decidable : ∀ (w : Workshop) (es : List Event), Decidable (w.Courteous es)
  | _, [] => .isTrue trivial
  | w, e :: es =>
    have := decidable (w.step e) es
    inferInstanceAs (Decidable (w.Spares e ∧ (w.step e).Courteous es))

theorem courteous_append {w : Workshop} {es fs : List Event} :
    w.Courteous (es ++ fs) ↔ w.Courteous es ∧ (w.run es).Courteous fs := by
  induction es generalizing w with
  | nil => simp [Courteous]
  | cons e es ih => simp [Courteous, ih, and_assoc]

/-- The number of the render that is answered, what it asked for, and the answer. -/
def exchange? (w : Workshop) : Event → Option (Nat × Request × Reply)
  | .answer n reply =>
    match w.jobs[n]? with
    | some (.working run) => (run.request w.config).map fun q => (n, q, reply)
    | _ => none
  | _ => none

/-- All that renders asked for and were answered. -/
def trace : Workshop → List Event → List (Nat × Request × Reply)
  | _, [] => []
  | w, e :: es => (w.exchange? e).toList ++ (w.step e).trace es

theorem trace_cons (w : Workshop) (e : Event) (es : List Event) :
    w.trace (e :: es) = (w.exchange? e).toList ++ (w.step e).trace es := rfl

end Workshop

end TimedText
