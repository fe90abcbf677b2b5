import TimedText.Proofs.Render.Flight

/-!
# What is readable tells one story

The state, the video and the failure are three fields that commands and workers change one after the
other. Whenever something outside can look at them they fit together: there is a video exactly if
the state is done, and a failure exactly if it is failed. The video is the one that the render
accepted last has read itself.

What makes this true is that only a render in flight moves the fields on, and that nothing is left
in them when it begins. So the step lemma needs to know who is in flight (`Exclusive`).
-/

namespace TimedText

open Render (State Artifact Orchestrator Point Run Request Reply Config)

/-- There is a video exactly if the state is done, and a failure exactly if it is failed. -/
structure Render.Orchestrator.Coherent (o : Orchestrator) : Prop where
  artifact : o.artifact.isSome ↔ o.state = .done
  failure : o.failure.isSome ↔ o.state = .failed

namespace Render

section Coherent

variable {o : Orchestrator}

theorem Orchestrator.coherent_bare (s : State) (total : Double) (done : s ≠ .done)
    (failed : s ≠ .failed) : Orchestrator.Coherent { state := s, total } := by
  constructor
  · simp [done]
  · simp [failed]

/-- While a render is in flight nothing of an earlier one is left. -/
theorem Orchestrator.Coherent.bare (h : o.Coherent) (busy : o.state ≠ .done ∧ o.state ≠ .failed) :
    o.artifact = none ∧ o.failure = none := by
  rw [← Option.not_isSome_iff_eq_none, ← Option.not_isSome_iff_eq_none, h.artifact, h.failure]
  exact busy

theorem Orchestrator.Coherent.bare_of_inFlight (h : o.Coherent) (flight : o.isInFlight = true) :
    o.artifact = none ∧ o.failure = none := by
  apply h.bare
  constructor <;> intro hstate <;> rw [isInFlight, hstate] at flight <;> cases flight

theorem Orchestrator.Coherent.move (h : o.Coherent) (flight : o.isInFlight = true) {s : State}
    (more : s.isInFlight = true) : Orchestrator.Coherent { o with state := s } := by
  obtain ⟨hartifact, hfailure⟩ := h.bare_of_inFlight flight
  constructor
  · simp only [hartifact, Option.isSome_none, Bool.false_eq_true, false_iff]
    rintro rfl
    cases more
  · simp only [hfailure, Option.isSome_none, Bool.false_eq_true, false_iff]
    rintro rfl
    cases more

theorem Orchestrator.Coherent.concluded (h : o.Coherent) (flight : o.isInFlight = true)
    (result : Except Fault Bytes) : (o.concluded result).Coherent := by
  obtain ⟨-, hfailure⟩ := h.bare_of_inFlight flight
  cases result with
  | ok data => exact ⟨by simp [Orchestrator.concluded], by simp [Orchestrator.concluded, hfailure]⟩
  | error f => exact ⟨by simp [Orchestrator.concluded], by simp [Orchestrator.concluded]⟩

end Coherent

/-- A render comes to a video only by reading it. -/
theorem Run.reading_of_done {c : Config} {o : Orchestrator} {r : Run} {reply : Reply}
    {data : Bytes} (way : r.point.isUnderWay = true)
    (done : (r.resume c o reply).1 = o.concluded (.ok data))
    (entered : (r.resume c o reply).2.1.point = .enteringDone) :
    reply = .bytes data ∧ r.request c = some (.read Filter.outputName) := by
  obtain ⟨source, cues, metrics, point⟩ := r
  cases point with
  | enteringCompiling =>
    cases reply with
    | done =>
      simp only [Run.resume, Run.compile] at entered
      split at entered <;> cases entered
    | _ => cases entered
  | reading =>
    cases reply with
    | bytes bytes =>
      have hartifact := congrArg Orchestrator.artifact done
      cases hartifact
      exact ⟨rfl, rfl⟩
    | _ => cases entered
  | encoding graph =>
    cases reply with
    | line kind message =>
      simp only [Run.resume, Run.hear] at entered
      split at entered <;> cases entered
    | _ => cases entered
  | enteringDone | enteringFailed | tellingFailure | recording | finished => cases way
  | _ => cases reply <;> cases entered

end Render

namespace Workshop

/-- What is readable fits together, and the video was read by the render that was accepted last. -/
structure Story (w : Workshop) (past : List (Nat × Request × Reply)) : Prop where
  coherent : w.orchestrator.Coherent
  own : ∀ a, w.orchestrator.artifact = some a →
    ∃ n, n + 1 = w.jobs.length ∧ (n, .read Filter.outputName, .bytes a.data) ∈ past

section Story

variable {w : Workshop} {past : List (Nat × Request × Reply)}

theorem story_opened (c : Config) (s : Session) : (opened c s).Story [] :=
  ⟨Orchestrator.coherent_bare .idle .zero State.noConfusion State.noConfusion, fun _ h => nomatch h⟩

/-- A step keeps the story, unless a listener fails which is told of a video. -/
theorem Story.step (h : w.Story past) (exclusive : w.Exclusive) {e : Event} (spares : w.Spares e) :
    (w.step e).Story (past ++ (w.exchange? e).toList) := by
  -- where the video stays and no render is accepted, it has been read by the same render
  have kept (same : (w.step e).orchestrator.artifact = w.orchestrator.artifact)
      (length : (w.step e).jobs.length = w.jobs.length) (a : Artifact)
      (ha : (w.step e).orchestrator.artifact = some a) : ∃ n, n + 1 = (w.step e).jobs.length ∧
        (n, .read Filter.outputName, .bytes a.data) ∈ past ++ (w.exchange? e).toList := by
    rw [same] at ha
    rw [length]
    obtain ⟨n, hn, hread⟩ := h.own a ha
    exact ⟨n, hn, List.mem_append_left _ hread⟩
  have none_own (none : (w.step e).orchestrator.artifact = none) (a : Artifact)
      (ha : (w.step e).orchestrator.artifact = some a) : ∃ n, n + 1 = (w.step e).jobs.length ∧
        (n, .read Filter.outputName, .bytes a.data) ∈ past ++ (w.exchange? e).toList := by
    rw [none] at ha
    cases ha
  cases w.change_step e with
  | quiet readable jobs =>
    exact ⟨readable ▸ h.coherent, kept (by rw [readable]) (by rw [jobs])⟩
  | forgotten free readable jobs =>
    refine ⟨?_, none_own (by rw [readable])⟩
    rw [readable]
    exact Orchestrator.coherent_bare .idle _ State.noConfusion State.noConfusion
  | accepted source cues total free readable jobs =>
    refine ⟨?_, none_own (by rw [readable])⟩
    rw [readable]
    exact Orchestrator.coherent_bare .staging _ State.noConfusion State.noConfusion
  | handedOn m source cues found readable jobs =>
    exact ⟨readable ▸ h.coherent, kept (by rw [readable]) (by rw [jobs, List.length_set])⟩
  | dropped m source cues found readable jobs =>
    exact ⟨readable ▸ h.coherent, kept (by rw [readable]) (by rw [jobs, List.length_set])⟩
  | answered m run reply event found readable jobs =>
    have hlength : (w.step e).jobs.length = w.jobs.length := by rw [jobs, List.length_set]
    cases hway : run.point.isUnderWay with
    | true =>
      have hactive : w.Active m := ⟨_, found, hway⟩
      have hflight := exclusive.inFlight m (.inl hactive)
      rcases Run.resume_underWay w.config w.orchestrator reply hway with
        ⟨-, s, hs, hgoes⟩ | ⟨result, hpoint, hresult⟩
      · rw [hgoes] at readable
        refine ⟨?_, kept (by rw [readable]) hlength⟩
        rw [readable]
        rcases hs with rfl | hs
        · exact h.coherent
        · exact h.coherent.move hflight hs
      · refine ⟨?_, ?_⟩
        · rw [readable, hresult]
          exact h.coherent.concluded hflight result
        · cases result with
          | error f => exact none_own (by rw [readable, hresult]; rfl)
          | ok data =>
            obtain ⟨rfl, hasks⟩ := Run.reading_of_done hway hresult hpoint
            intro a ha
            rw [readable, hresult] at ha
            cases ha
            refine ⟨m, ?_, List.mem_append_right _ ?_⟩
            · rw [hlength]
              exact exclusive.last m (.inl hactive)
            · subst event
              simp [exchange?, found, hasks]
    | false =>
      rcases (Run.resume_concluded w.config w.orchestrator reply hway).2 with
        hsame | ⟨hpoint, f, rfl, -⟩
      · rw [hsame] at readable
        exact ⟨readable ▸ h.coherent, kept (by rw [readable]) hlength⟩
      · subst event
        exact absurd hpoint (spares run found)

theorem Story.run (h : w.Story past) (exclusive : w.Exclusive) {es : List Event}
    (polite : w.Courteous es) : (w.run es).Story (past ++ w.trace es) := by
  induction es generalizing w past with
  | nil => rwa [trace, List.append_nil]
  | cons e es ih =>
    rw [trace_cons, ← List.append_assoc]
    exact ih (h.step exclusive polite.1) (exclusive.step polite.1) polite.2

end Story

/-- Whatever commands come in, from the editor or from inside listeners, and whenever workers go on:
if listeners that are told of a video return, then at every moment there is a video exactly if the
state is done and a failure exactly if it is failed, neither is there while nothing was rendered or
a render is in flight, and a video is what the render that was accepted last has read. -/
theorem state_video_and_failure_agree (c : Config) (s : Session) (es : List Event)
    (polite : (opened c s).Courteous es) :
    let w := (opened c s).run es
    let o := w.orchestrator
    (o.artifact.isSome ↔ o.state = .done) ∧ (o.failure.isSome ↔ o.state = .failed) ∧
      (o.state = .idle ∨ w.InFlight → o.artifact = none ∧ o.failure = none) ∧
      ∀ a, o.artifact = some a → ∃ n, n + 1 = w.jobs.length ∧
        (n, .read Filter.outputName, .bytes a.data) ∈ (opened c s).trace es := by
  intro w o
  have hstory := (story_opened c s).run (exclusive_opened c s) polite
  refine ⟨hstory.coherent.artifact, hstory.coherent.failure, ?_, hstory.own⟩
  rintro (hidle | hflight)
  · apply hstory.coherent.bare
    rw [show ((opened c s).run es).orchestrator.state = .idle from hidle]
    exact ⟨State.noConfusion, State.noConfusion⟩
  · exact hstory.coherent.bare_of_inFlight hflight

/-- A render fails, and the listener that is told of it loads another video and asks for the next
render. That is done before the listener returns. -/
theorem video_of_second_render_is_readable :
    let w : Workshop := opened { font := "Studio.ttf" } { clock := { offset := .zero } }
    let es : List Event :=
      [.start (some [1]) [] .zero, .handOn 0, .answer 0 .done,
        .answer 0 (.fault ⟨.os, "unreadable", ""⟩), .command (.upload [4]), .command .startRender,
        .handOn 1, .answer 1 .done, .answer 1 (.bytes [2]), .answer 1 .done, .answer 1 .done,
        .answer 1 .done, .answer 1 .done, .answer 1 .done, .answer 1 (.bytes [3])]
    w.Courteous es ∧ (w.run es).orchestrator.artifact = some { data := [3] } ∧
      (w.run es).orchestrator.state = .done ∧ (w.run es).orchestrator.failure = none ∧
      ∃ n, n + 1 = 2 ∧ (n, .read Filter.outputName, .bytes [3]) ∈ w.trace es := by
  intro w es
  have polite : w.Courteous es := by decide +kernel
  have hread : (w.run es).orchestrator.artifact = some { data := [3] } := by decide +kernel
  obtain ⟨hartifact, hfailure, -, hown⟩ := state_video_and_failure_agree { font := "Studio.ttf" }
    { clock := { offset := .zero } } es polite
  have hdone : (w.run es).orchestrator.state = .done := hartifact.mp (by rw [hread]; rfl)
  refine ⟨polite, hread, hdone, ?_, hown _ hread⟩
  rw [← Option.not_isSome_iff_eq_none, hfailure, hdone]
  exact State.noConfusion

end Workshop

end TimedText
