import Mathlib.Logic.Function.Iterate
import TimedText.Proofs.Render.Flight

/-!
# A render sees only its snapshot

What a render works on was captured when it was accepted. Beside it stands the same render by
itself: there is no editor and nobody to tell of progress, only the video, the cues, and answers
that depend on nothing but what the render asked for and was answered so far. A render in a workshop
that is met in this way takes the same steps, whatever else happens in between, so two of them with
the same snapshot cannot differ.
-/

namespace TimedText

open Render (State Artifact Orchestrator Point Run Request Reply Config)

/-! ## A render by itself -/

/-- How a render is met from outside: an answer to each request, by what it asked for and was
answered before. -/
abbrev Render.Conduct := List (Request × Reply) → Request → Reply

/-- From here the answers are those of the conduct. -/
inductive Render.Conduct.Gives (x : Render.Conduct) :
    List (Request × Reply) → List (Request × Reply) → Prop
  | nothing (past : List (Request × Reply)) : x.Gives past []
  | answer {past rest : List (Request × Reply)} {q : Request} {reply : Reply}
      (same : reply = x past q) (more : x.Gives (past ++ [(q, reply)]) rest) :
      x.Gives past ((q, reply) :: rest)

instance Render.Conduct.decidableGives (x : Render.Conduct) :
    ∀ past exchanges, Decidable (x.Gives past exchanges)
  | past, [] => .isTrue (.nothing past)
  | past, (q, reply) :: rest =>
    have := decidableGives x (past ++ [(q, reply)]) rest
    decidable_of_iff (reply = x past q ∧ x.Gives (past ++ [(q, reply)]) rest)
      ⟨fun ⟨same, more⟩ => .answer same more, fun (.answer same more) => ⟨same, more⟩⟩

/-- What is readable of a render, the duration that progress is measured against apart. -/
def Render.Orchestrator.shown (o : Orchestrator) : State × Option Artifact × Option String :=
  (o.state, o.artifact, o.failure)

namespace Render

/-- A render by itself: what it asked for and was answered, what is readable, and where it
stands. -/
structure Solo where
  past : List (Request × Reply) := []
  orchestrator : Orchestrator := { state := .staging }
  run : Run

namespace Solo

/-- One answer further, until there is a result. Nobody is told of progress. -/
def next (c : Config) (x : Conduct) (s : Solo) : Solo :=
  if s.run.point.isUnderWay then
    match s.run.request c with
    | some q =>
      let reply := x s.past q
      let (orchestrator, run, _) :=
        s.run.resume { c with reportsProgress := false } s.orchestrator reply
      { past := s.past ++ [(q, reply)], orchestrator, run }
    | none => s
  else s

/-- Some answers further. -/
def after (c : Config) (x : Conduct) (k : Nat) (s : Solo) : Solo := (next c x)^[k] s

variable (c : Config) (x : Conduct) (s : Solo)

theorem after_add (k l : Nat) : s.after c x (k + l) = (s.after c x k).after c x l := by
  unfold after
  rw [Nat.add_comm, Function.iterate_add_apply]

theorem past_next : s.past <+: (s.next c x).past := by
  unfold next
  split
  · split
    · exact List.prefix_append _ _
    · exact List.prefix_rfl
  · exact List.prefix_rfl

theorem past_after (k : Nat) : s.past <+: (s.after c x k).past := by
  induction k generalizing s with
  | zero => exact List.prefix_rfl
  | succ k ih => exact (s.past_next c x).trans (ih (s.next c x))

theorem after_of_concluded (h : s.run.point.isUnderWay = false) (k : Nat) : s.after c x k = s := by
  have hfixed : s.next c x = s := by
    unfold next
    rw [h]
    exact if_neg Bool.false_ne_true
  exact Function.iterate_fixed hfixed k

variable {c x s} {k l : Nat}

theorem past_prefix (hkl : k ≤ l) : (s.after c x k).past <+: (s.after c x l).past := by
  obtain ⟨m, rfl⟩ := Nat.exists_eq_add_of_le hkl
  rw [after_add]
  exact past_after c x _ m

/-- Behind its result a render by itself goes no further. -/
theorem after_eq (concluded : (s.after c x k).run.point.isUnderWay = false) (hkl : k ≤ l) :
    s.after c x l = s.after c x k := by
  obtain ⟨m, rfl⟩ := Nat.exists_eq_add_of_le hkl
  rw [after_add, after_of_concluded c x _ concluded]

/-- The render by itself is on its way, or has ended with what is shown. -/
def EndsAs (s : Solo) : Option (State × Option Artifact × Option String) → Prop
  | none => s.run.point.isUnderWay = true
  | some shown => s.run.point.isUnderWay = false ∧ s.orchestrator.shown = shown

end Solo

/-! ## In step with the render by itself -/

/-- Where a render stands, progress apart. -/
def Point.settled : Point → Point
  | .reporting graph _ => .encoding graph
  | p => p

theorem Point.isUnderWay_settled (p : Point) : p.settled.isUnderWay = p.isUnderWay := by
  cases p <;> rfl

/-- The same render, at the same point. What it notes down may differ. -/
structure Run.Alike (r s : Run) : Prop where
  source : r.source = s.source
  cues : r.cues = s.cues
  point : r.point.settled = s.point

section Alike

variable {c : Config} {o o' : Orchestrator} {r s : Run}

theorem Run.Alike.isUnderWay (h : r.Alike s) : s.point.isUnderWay = r.point.isUnderWay := by
  rw [← h.point, Point.isUnderWay_settled]

theorem request_of_alike (h : r.Alike s) {q : Request} (asks : r.request c = some q)
    (work : q.isWork = true) : s.request c = some q := by
  obtain ⟨source, cues, metrics, point⟩ := r
  obtain ⟨source', cues', metrics', point'⟩ := s
  obtain ⟨rfl, rfl, rfl⟩ := h
  cases point <;> first | exact asks | (cases asks; cases work)

/-- The same answer leads both on to the same point. -/
theorem resume_alike (h : r.Alike s) (same : o.shown = o'.shown)
    (way : r.point.isUnderWay = true) {q : Request} (asks : r.request c = some q)
    (work : q.isWork = true) (reply : Reply) :
    (r.resume c o reply).2.1.Alike
        (s.resume { c with reportsProgress := false } o' reply).2.1 ∧
      (r.resume c o reply).1.shown =
        (s.resume { c with reportsProgress := false } o' reply).1.shown := by
  obtain ⟨source, cues, metrics, point⟩ := r
  obtain ⟨source', cues', metrics', point'⟩ := s
  obtain ⟨rfl, rfl, rfl⟩ := h
  obtain ⟨state, artifact, failure, total⟩ := o
  obtain ⟨state', artifact', failure', total'⟩ := o'
  cases same
  cases point with
  | encoding graph =>
    cases reply with
    | line kind message =>
      -- where progress is told, the render comes back here with the next answer
      simp only [Run.resume, Run.hear]
      split <;> exact ⟨⟨rfl, rfl, rfl⟩, rfl⟩
    | _ => exact ⟨⟨rfl, rfl, rfl⟩, rfl⟩
  | enteringCompiling =>
    cases reply with
    | done =>
      -- both compile the same cues
      have hcompiled : Run.compiled { c with reportsProgress := false } cues =
          Run.compiled c cues := rfl
      simp only [Run.resume, Run.compile, hcompiled]
      cases Run.compiled c cues <;> exact ⟨⟨rfl, rfl, rfl⟩, rfl⟩
    | _ => exact ⟨⟨rfl, rfl, rfl⟩, rfl⟩
  | reporting graph percent => cases asks; cases work
  | enteringDone | enteringFailed | tellingFailure | recording | finished => cases way
  | _ => cases reply <;> exact ⟨⟨rfl, rfl, rfl⟩, rfl⟩

/-- Whatever comes of telling progress, the render stays where it is. -/
theorem resume_reporting (h : r.Alike s) (way : r.point.isUnderWay = true) {q : Request}
    (asks : r.request c = some q) (idle : q.isWork = false) (reply : Reply) :
    (r.resume c o reply).2.1.Alike s ∧ (r.resume c o reply).1 = o := by
  obtain ⟨source, cues, metrics, point⟩ := r
  obtain ⟨source', cues', metrics', point'⟩ := s
  obtain ⟨rfl, rfl, rfl⟩ := h
  cases point with
  | reporting graph percent => cases reply <;> exact ⟨⟨rfl, rfl, rfl⟩, rfl⟩
  | enteringDone | enteringFailed | tellingFailure | recording | finished => cases way
  | _ => cases asks; cases idle

end Alike

end Render

namespace Workshop

open Render (Conduct Solo)

/-! ## The work of one render -/

/-- The accepted render. One that is still to be handed on stands at its beginning. -/
def Job.run? : Job → Option Run
  | .announced source cues => some (.queue source cues)
  | .working run => some run
  | .dropped => none

/-- The `n`-th accepted render. -/
def render? (w : Workshop) (n : Nat) : Option Run := (w.jobs[n]?).bind Job.run?

/-- The `n`-th accepted render has come to its result. -/
def Over (w : Workshop) (n : Nat) : Prop :=
  ∃ run, w.render? n = some run ∧ run.point.isUnderWay = false

instance (w : Workshop) (n : Nat) : Decidable (w.Over n) :=
  decidable_of_iff ((w.render? n).any (!·.point.isUnderWay) = true) (by
    simp [Over, Option.any_eq_true])

/-- What the `n`-th render asked for on its way to the result, and the answers. -/
def work (n : Nat) (w : Workshop) (es : List Event) : List (Request × Reply) :=
  (w.trace es).filterMap fun exchange =>
    if exchange.1 = n ∧ exchange.2.1.isWork = true then some exchange.2 else none

/-- What is readable right when the `n`-th render has come to its result. -/
def ending (n : Nat) : Workshop → List Event → Option (State × Option Artifact × Option String)
  | _, [] => none
  | w, e :: es =>
    if (w.step e).Over n then some (w.step e).orchestrator.shown else (w.step e).ending n es

section Work

variable {w : Workshop} {n : Nat} {e : Event} {es : List Event}

theorem work_cons_own {q : Request} {reply : Reply} (h : w.exchange? e = some (n, q, reply))
    (work : q.isWork = true) : w.work n (e :: es) = (q, reply) :: (w.step e).work n es := by
  unfold Workshop.work
  rw [trace_cons, h]
  simp [work]

theorem work_cons_other
    (h : ∀ q reply, w.exchange? e = some (n, q, reply) → q.isWork = false) :
    w.work n (e :: es) = (w.step e).work n es := by
  unfold Workshop.work
  rw [trace_cons, List.filterMap_append]
  cases hexchange : w.exchange? e with
  | none => rfl
  | some exchange =>
    obtain ⟨m, q, reply⟩ := exchange
    have hother : ¬ (m = n ∧ q.isWork = true) := by
      rintro ⟨rfl, hwork⟩
      rw [h q reply hexchange] at hwork
      cases hwork
    simp [hother]

theorem work_of_not_active (hn : n < w.jobs.length) (h : ¬ w.Active n) : w.work n es = [] := by
  induction es generalizing w with
  | nil => rfl
  | cons e es ih =>
    rw [work_cons_other]
    · exact ih (Nat.lt_of_lt_of_le hn (w.length_jobs_step e)) (not_active_step hn h e)
    · intro q reply hexchange
      rw [Bool.eq_false_iff]
      exact fun hwork => h (active_of_work hexchange hwork)

theorem not_over_of_dropped (h : w.Dropped n) : ¬ w.Over n := by
  rintro ⟨run, hrun, -⟩
  rw [render?, h] at hrun
  cases hrun

theorem ending_of_dropped (h : w.Dropped n) : w.ending n es = none := by
  induction es generalizing w with
  | nil => rfl
  | cons e es ih =>
    have hdropped : (w.step e).Dropped n := h.run [e]
    rw [ending, if_neg (not_over_of_dropped hdropped)]
    exact ih hdropped

theorem active_iff :
    w.Active n ↔ ∃ run, w.render? n = some run ∧ run.point.isUnderWay = true := by
  unfold Active render?
  cases w.jobs[n]? with
  | none => simp
  | some job => cases job <;> simp [Job.isActive, Job.run?, Run.queue, Point.isUnderWay]

theorem work_of_over (h : w.Over n) : w.work n es = [] := by
  obtain ⟨run, hrun, hover⟩ := h
  have hn : n < w.jobs.length := by
    obtain ⟨job, hjob, -⟩ := Option.bind_eq_some_iff.mp hrun
    exact (List.getElem?_eq_some_iff.mp hjob).1
  refine work_of_not_active hn fun hactive => ?_
  obtain ⟨run', hrun', hway⟩ := active_iff.mp hactive
  cases hrun.symm.trans hrun'
  rw [hover] at hway
  cases hway

theorem work_of_dropped (h : w.Dropped n) : w.work n es = [] := by
  obtain ⟨hn, -⟩ := List.getElem?_eq_some_iff.mp h
  refine work_of_not_active hn ?_
  rintro ⟨job, hjob, hactive⟩
  cases h.symm.trans hjob
  cases hactive

/-- What is not an answer to the `n`-th render leaves it alone, and what is readable of it, but that
its request may fail. -/
theorem step_elsewhere (h : w.Exclusive) (spares : w.Spares e) (active : w.Active n)
    (elsewhere : ∀ q reply, w.exchange? e ≠ some (n, q, reply)) :
    (w.step e).Dropped n ∨
      (w.step e).orchestrator = w.orchestrator ∧ (w.step e).render? n = w.render? n := by
  have hflight := h.inFlight n (.inl active)
  cases w.change_step e with
  | quiet readable jobs => exact .inr ⟨readable, by rw [render?, jobs, render?]⟩
  | forgotten free _ _ => exact absurd hflight (not_inFlight free)
  | accepted source cues total free _ _ => exact absurd hflight (not_inFlight free)
  | handedOn m source cues found readable jobs =>
    refine .inr ⟨readable, ?_⟩
    rw [render?, jobs, getElem?_set_of_found found, render?]
    split
    · next hmn => subst hmn; rw [found]; rfl
    · rfl
  | dropped m source cues found readable jobs =>
    by_cases hmn : m = n
    · refine .inl ?_
      rw [Dropped, jobs, getElem?_set_of_found found, if_pos hmn]
    · refine .inr ⟨readable, ?_⟩
      rw [render?, jobs, getElem?_set_of_found found, if_neg hmn, render?]
  | answered m run reply event found readable jobs =>
    subst event
    cases hway : run.point.isUnderWay with
    | true =>
      -- only one render is under way, and it is the one that is answered
      have hm := h.last m (.inl ⟨_, found, hway⟩)
      obtain rfl : m = n := by have := h.last n (.inl active); omega
      obtain ⟨q, hq⟩ : ∃ q, run.request w.config = some q := by
        obtain ⟨source, cues, metrics, point⟩ := run
        cases point <;> first | exact ⟨_, rfl⟩ | cases hway
      exact absurd (by simp [exchange?, found, hq]) (elsewhere q reply)
    | false =>
      have hne : m ≠ n := by
        rintro rfl
        obtain ⟨job, hjob, hactive⟩ := active
        cases found.symm.trans hjob
        rw [Job.isActive, hway] at hactive
        cases hactive
      refine .inr ⟨?_, by rw [render?, jobs, getElem?_set_of_found found, if_neg hne, render?]⟩
      rcases (Run.resume_concluded w.config w.orchestrator reply hway).2 with
        hsame | ⟨hpoint, f, rfl, -⟩
      · rw [readable, hsame]
      · exact absurd hpoint (spares run found)

end Work

/-! ## A render in a workshop, and by itself -/

/-- The `n`-th render is on its way, and has come as far as a render by itself. -/
structure Keeps (w : Workshop) (n : Nat) (s : Solo) : Prop where
  shown : w.orchestrator.shown = s.orchestrator.shown
  render : ∃ run, w.render? n = some run ∧ run.Alike s.run
  underWay : s.run.point.isUnderWay = true

section Keeps

variable {w : Workshop} {n : Nat} {s : Solo} {x : Conduct}

theorem Keeps.active (h : w.Keeps n s) : w.Active n := by
  obtain ⟨run, hrun, halike⟩ := h.render
  exact active_iff.mpr ⟨run, hrun, by rw [← halike.isUnderWay]; exact h.underWay⟩

/-- An answer to the render's work leads both on. -/
theorem Keeps.step_own (h : w.Keeps n s) {e : Event} {q : Request} {reply : Reply}
    (own : w.exchange? e = some (n, q, reply)) (work : q.isWork = true)
    (gives : reply = x s.past q) :
    (s.next w.config x).past = s.past ++ [(q, reply)] ∧
      (w.step e).orchestrator.shown = (s.next w.config x).orchestrator.shown ∧
      ∃ run, (w.step e).render? n = some run ∧ run.Alike (s.next w.config x).run := by
  obtain ⟨rfl, run, found, hq⟩ := exchange?_eq_some own
  obtain ⟨run', hrun', halike⟩ := h.render
  have hrun : w.render? n = some run := by rw [render?, found]; rfl
  cases hrun.symm.trans hrun'
  have hnext : s.next w.config x =
      { past := s.past ++ [(q, reply)]
        orchestrator := (s.run.resume { w.config with reportsProgress := false }
          s.orchestrator reply).1
        run := (s.run.resume { w.config with reportsProgress := false }
          s.orchestrator reply).2.1 } := by
    rw [Solo.next, if_pos h.underWay, Render.request_of_alike halike hq work, gives]
  have hway : run.point.isUnderWay = true := by rw [← halike.isUnderWay]; exact h.underWay
  obtain ⟨hrun, hshown⟩ := Render.resume_alike halike h.shown hway hq work reply
  obtain ⟨hn, -⟩ := List.getElem?_eq_some_iff.mp found
  rw [hnext]
  refine ⟨rfl, ?_, _, ?_, hrun⟩
  · simp only [step, found, orchestrator]
    exact hshown
  · simp only [step, found, render?, List.getElem?_set_self hn]
    rfl

/-- Whatever else happens, the render stays where it is, or its request fails. -/
theorem Keeps.step_other (exclusive : w.Exclusive) (h : w.Keeps n s) {e : Event}
    (spares : w.Spares e)
    (other : ∀ q reply, w.exchange? e = some (n, q, reply) → q.isWork = false) :
    (w.step e).Dropped n ∨ (w.step e).Keeps n s := by
  obtain ⟨run, hrun, halike⟩ := h.render
  by_cases hown : ∃ q reply, w.exchange? e = some (n, q, reply)
  · -- progress was told
    obtain ⟨q, reply, hexchange⟩ := hown
    obtain ⟨rfl, run', found, hq⟩ := exchange?_eq_some hexchange
    have hrun' : w.render? n = some run' := by rw [render?, found]; rfl
    cases hrun'.symm.trans hrun
    have hway : run.point.isUnderWay = true := by rw [← halike.isUnderWay]; exact h.underWay
    obtain ⟨hstays, hsame⟩ := Render.resume_reporting (o := w.orchestrator) halike hway hq
      (other q reply hexchange) reply
    obtain ⟨hn, -⟩ := List.getElem?_eq_some_iff.mp found
    refine .inr ⟨?_, ⟨_, ?_, hstays⟩, h.underWay⟩
    · rw [← h.shown, ← hsame]
      simp only [step, found, orchestrator]
    · simp only [step, found, render?, List.getElem?_set_self hn]
      rfl
  · rcases step_elsewhere exclusive spares h.active
      (fun q reply hexchange => hown ⟨q, reply, hexchange⟩) with hdropped | ⟨hreadable, hrender⟩
    · exact .inl hdropped
    · exact .inr ⟨by rw [hreadable, h.shown], ⟨run, by rw [hrender, hrun], halike⟩, h.underWay⟩

theorem Keeps.not_over (h : w.Keeps n s) : ¬ w.Over n := by
  rintro ⟨run', hrun', hover⟩
  obtain ⟨run, hrun, halike⟩ := h.render
  cases hrun.symm.trans hrun'
  rw [← halike.isUnderWay, h.underWay] at hover
  cases hover

/-- A render takes the steps of the render by itself, and ends when that does. -/
theorem Keeps.run {es : List Event} (exclusive : w.Exclusive) (polite : w.Courteous es)
    (h : w.Keeps n s) (gives : x.Gives s.past (w.work n es)) :
    (s.after w.config x (w.work n es).length).past = s.past ++ w.work n es ∧
      (s.after w.config x (w.work n es).length).EndsAs (w.ending n es) := by
  induction es generalizing w s with
  | nil => exact ⟨(List.append_nil _).symm, h.underWay⟩
  | cons e es ih =>
    have hexclusive := exclusive.step polite.1
    by_cases hown : ∃ q reply, w.exchange? e = some (n, q, reply) ∧ q.isWork = true
    · obtain ⟨q, reply, hexchange, hwork⟩ := hown
      rw [work_cons_own hexchange hwork] at gives ⊢
      obtain _ | ⟨same, more⟩ := gives
      obtain ⟨hpast, hshown, run, hrun, halike⟩ := h.step_own hexchange hwork same
      have hgoes (rest : List (Request × Reply)) :
          s.past ++ (q, reply) :: rest = (s.next w.config x).past ++ rest := by
        rw [hpast, List.append_assoc, List.singleton_append]
      rw [hgoes]
      cases hway : (s.next w.config x).run.point.isUnderWay with
      | true =>
        have hkeeps : (w.step e).Keeps n (s.next w.config x) := ⟨hshown, ⟨run, hrun, halike⟩, hway⟩
        have hrest := ih hexclusive polite.2 hkeeps (hpast ▸ more)
        rw [config_step] at hrest
        rw [ending, if_neg hkeeps.not_over]
        exact hrest
      | false =>
        -- the result is there, and nothing more is asked for on the way to it
        have hover : (w.step e).Over n := ⟨run, hrun, by rw [← halike.isUnderWay, hway]⟩
        rw [work_of_over hover, ending, if_pos hover]
        exact ⟨(List.append_nil _).symm, hway, hshown.symm⟩
    · have hother (q : Request) (reply : Reply) (hexchange : w.exchange? e = some (n, q, reply)) :
          q.isWork = false := by
        rw [Bool.eq_false_iff]
        exact fun hwork => hown ⟨q, reply, hexchange, hwork⟩
      rw [work_cons_other hother] at gives ⊢
      rcases h.step_other exclusive polite.1 hother with hdropped | hkeeps
      · rw [work_of_dropped hdropped, ending, if_neg (not_over_of_dropped hdropped),
          ending_of_dropped hdropped]
        exact ⟨(List.append_nil _).symm, h.underWay⟩
      · have hrest := ih hexclusive polite.2 hkeeps gives
        rw [config_step] at hrest
        rw [ending, if_neg hkeeps.not_over]
        exact hrest

end Keeps

/-! ## Histories -/

/-- A session up to a request to render that is accepted, and what happens from then on. -/
structure History (c : Config) where
  session : Session
  before : List Event
  after : List Event
  /-- The video that is loaded when the request is made. -/
  source : Bytes
  polite : (opened c session).Courteous (before ++ .command .startRender :: after)
  free : ¬ ((opened c session).run before).InFlight
  loaded : ((opened c session).run before).session.source = some source

namespace History

variable {c : Config} (h : History c)

/-- The workshop that the request is made in. -/
def asked : Workshop := (opened c h.session).run h.before

/-- The workshop right behind the request. -/
def accepted : Workshop := h.asked.step (.command .startRender)

/-- The number of the render. -/
def number : Nat := h.asked.jobs.length

/-- The cues that are committed when the request is made. -/
def cues : List Cue := h.asked.session.timeline.cues

/-- What the render asks for on its way to the result, and the answers. -/
def work : List (Request × Reply) := h.accepted.work h.number h.after

/-- The calls that the render makes to the encoder, and the answers. -/
def calls : List (Request × Reply) :=
  ((h.accepted.calls h.after).filter (·.1 = h.number)).map (·.2)

/-- What is readable when the render has come to its result. -/
def ending : Option (State × Option Artifact × Option String) :=
  h.accepted.ending h.number h.after

theorem calls_eq : h.calls = h.work.filter (·.1.isCall) := by
  unfold calls work Workshop.calls Workshop.work
  rw [List.filter_filter]
  induction h.accepted.trace h.after with
  | nil => rfl
  | cons exchange rest ih =>
    obtain ⟨m, q, reply⟩ := exchange
    by_cases hm : m = h.number
    · cases hcall : q.isCall with
      | true => simp [hm, hcall, Request.isWork_of_isCall hcall, ih]
      | false => cases hwork : q.isWork <;> simp [hm, hcall, hwork, ih]
    · cases hcall : q.isCall <;> simp [hm, hcall, ih]

theorem exclusive : h.accepted.Exclusive := by
  obtain ⟨hbefore, hrequest, -⟩ := courteous_append.mp h.polite
  exact ((exclusive_opened c h.session).run hbefore).step hrequest

/-- Behind the request the render has all that it ever takes from the session. -/
theorem keeps : h.accepted.Keeps h.number { run := .queue h.source h.cues } := by
  have hfree : h.asked.orchestrator.isInFlight = false := Bool.eq_false_iff.mpr h.free
  have haccepted : h.accepted =
      h.asked.accept (h.asked.session.start (some h.source) h.cues
        h.asked.session.clock.duration) := by
    rw [← h.loaded]
    rfl
  obtain ⟨hreadable, hjobs⟩ :=
    h.asked.accept_start hfree h.source h.cues h.asked.session.clock.duration
  refine ⟨?_, ⟨.queue h.source h.cues, ?_, ⟨rfl, rfl, rfl⟩⟩, rfl⟩
  · rw [haccepted, hreadable]
    rfl
  · rw [haccepted, render?, hjobs, number, List.getElem?_append_right (Nat.le_refl _), Nat.sub_self]
    rfl

/-- The render is the one by itself, as far as it went. -/
theorem as_by_itself (x : Conduct) (gives : x.Gives [] h.work) :
    (Solo.after c x h.work.length { run := .queue h.source h.cues }).past = h.work ∧
      (Solo.after c x h.work.length { run := .queue h.source h.cues }).EndsAs h.ending := by
  obtain ⟨-, -, hafter⟩ := courteous_append.mp h.polite
  have hrun := h.keeps.run h.exclusive hafter gives
  have hconfig : h.accepted.config = c := by
    rw [accepted, config_step, asked, config_run]
    rfl
  rw [hconfig] at hrun
  exact hrun

end History

/-- Two renders of the same video and the same cues that are met in the same way make the same
calls, as far as both go; and where one has come to its result, the other does with the same calls
and the same result, whatever happened before the requests and happens in between. -/
theorem render_sees_only_its_snapshot (c : Config) (x : Conduct) (h₁ h₂ : History c)
    (source : h₁.source = h₂.source) (cues : h₁.cues = h₂.cues)
    (gives₁ : x.Gives [] h₁.work) (gives₂ : x.Gives [] h₂.work) :
    (h₁.calls <+: h₂.calls ∨ h₂.calls <+: h₁.calls) ∧
      ∀ shown, h₁.ending = some shown →
        h₂.calls <+: h₁.calls ∧
          (h₂.work.length = h₁.work.length → h₂.ending = some shown) ∧
          ∀ shown', h₂.ending = some shown' → h₂.calls = h₁.calls ∧ shown' = shown := by
  obtain ⟨hpast₁, hends₁⟩ := h₁.as_by_itself x gives₁
  obtain ⟨hpast₂, hends₂⟩ := h₂.as_by_itself x gives₂
  rw [source, cues] at hpast₁ hends₁
  -- a render that has ended stays where it is, so the other one is no longer
  have hshort {k l : Nat} {s : Solo} (hk : (s.after c x k).past.length = k)
      (hl : (s.after c x l).past.length = l)
      (concluded : (s.after c x k).run.point.isUnderWay = false) : l ≤ k := by
    by_contra hlt
    rw [Solo.after_eq concluded (Nat.le_of_not_le hlt), hk] at hl
    omega
  have hk₁ := congrArg List.length hpast₁
  have hk₂ := congrArg List.length hpast₂
  simp only [History.calls_eq]
  constructor
  · rcases Nat.le_total h₁.work.length h₂.work.length with hle | hle
    · left
      rw [← hpast₁, ← hpast₂]
      exact (Solo.past_prefix hle).filter _
    · right
      rw [← hpast₁, ← hpast₂]
      exact (Solo.past_prefix hle).filter _
  · intro shown hshown
    rw [hshown] at hends₁
    have hle := hshort hk₁ hk₂ hends₁.1
    have hsame (hlength : h₂.work.length = h₁.work.length) : h₂.work = h₁.work := by
      rw [← hpast₁, ← hpast₂, hlength]
    refine ⟨?_, ?_, ?_⟩
    · have hprefix : h₂.work <+: h₁.work := by
        rw [← hpast₁, ← hpast₂]
        exact Solo.past_prefix hle
      exact hprefix.filter _
    · intro hlength
      rw [hlength] at hends₂
      cases hend : h₂.ending with
      | none =>
        rw [hend] at hends₂
        exact absurd hends₂ (by rw [Solo.EndsAs, hends₁.1]; exact Bool.false_ne_true)
      | some shown' =>
        rw [hend] at hends₂
        rw [← hends₁.2, ← hends₂.2]
    · intro shown' hshown'
      rw [hshown'] at hends₂
      have hlength := Nat.le_antisymm hle (hshort hk₂ hk₁ hends₂.1)
      refine ⟨by rw [hsame hlength], ?_⟩
      rw [← hends₁.2, ← hends₂.2, hlength]

/-- A video is rendered, and nothing else happens. -/
def History.undisturbed : History { font := "Studio.ttf" } where
  session := { clock := { offset := .zero } }
  before := [.command (.upload [1])]
  after := [.handOn 0, .answer 0 .done, .answer 0 (.bytes [7]), .answer 0 .done, .answer 0 .done,
    .answer 0 .done, .answer 0 .done, .answer 0 (.line "status" "time=00:00:01.00"),
    .answer 0 .done, .answer 0 (.bytes [3])]
  source := [1]
  polite := by decide +kernel
  free := by decide +kernel
  loaded := rfl

/-- The same video is rendered behind another one that failed. The duration is known and progress is
told, a cue is committed and other videos are loaded meanwhile, and the listener of the first render
returns late. -/
def History.disturbed : History { font := "Studio.ttf" } where
  session := { clock := { offset := .zero } }
  before := [.command (.upload [9]), .command .startRender, .handOn 0, .answer 0 .done,
    .answer 0 (.fault ⟨.notFound, "gone", ""⟩), .command (.upload [1]),
    .command (.setDuration (.ofNat 2)), .command (.updateDraft [("text", .text "later")])]
  after := [.answer 0 .done, .handOn 1, .command .commitDraft, .answer 1 .done,
    .answer 1 (.bytes [7]), .command (.upload [8]), .answer 1 .done, .command .startRender,
    .answer 1 .done, .answer 1 .done, .answer 0 .done, .answer 1 .done,
    .answer 1 (.line "status" "time=00:00:01.00"), .reset, .answer 1 (.fault ⟨.encode, "", ""⟩),
    .answer 1 .done, .answer 1 (.bytes [3])]
  source := [1]
  polite := by decide +kernel
  free := by decide +kernel
  loaded := by decide +kernel

/-- How both renders are met. The listener of progress fails, but the encoder does not mind. -/
def History.steady : Conduct := fun past q =>
  match q with
  | .readFont => .bytes [7]
  | .encode _ => if past.length = 6 then .line "status" "time=00:00:01.00" else .done
  | .read _ => .bytes [3]
  | _ => .done

open History in
theorem disturbed_render_makes_same_video :
    undisturbed.source = disturbed.source ∧ undisturbed.cues = disturbed.cues ∧
      steady.Gives [] undisturbed.work ∧ steady.Gives [] disturbed.work ∧
      disturbed.ending = some (.done, some { data := [3] }, none) ∧
      (undisturbed.calls <+: disturbed.calls ∨ disturbed.calls <+: undisturbed.calls) ∧
      ∀ shown, undisturbed.ending = some shown →
        disturbed.calls <+: undisturbed.calls ∧
          (disturbed.work.length = undisturbed.work.length → disturbed.ending = some shown) ∧
          ∀ shown', disturbed.ending = some shown' →
            disturbed.calls = undisturbed.calls ∧ shown' = shown := by
  have cues : undisturbed.cues = disturbed.cues := by decide +kernel
  have gives₁ : steady.Gives [] undisturbed.work := by decide +kernel
  have gives₂ : steady.Gives [] disturbed.work := by decide +kernel
  have ends : disturbed.ending = some (.done, some { data := [3] }, none) := by decide +kernel
  refine ⟨rfl, cues, gives₁, gives₂, ends, ?_⟩
  exact render_sees_only_its_snapshot _ steady undisturbed disturbed rfl cues gives₁ gives₂

end Workshop

end TimedText
