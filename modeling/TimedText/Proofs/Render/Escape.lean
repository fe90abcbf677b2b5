import TimedText.Proofs.Render.Snapshot
import TimedText.Proofs.Render.Course

/-!
# Faults that escape

A render takes care of every fault on the way to its result, and of a listener that fails when it is
told of a state in flight or of the video: it fails then, and says so. Of a fault while the failure
itself is told nobody takes care, nor of one of whoever keeps the metrics. It is the outcome, and a
listener that failed when it was told of the state is why nobody is told what went wrong.

Main statement: every render that is accepted comes to its end, whatever the outside does, and the
outcome is a fault exactly if one escaped.
-/

namespace TimedText.Render

/-! ## Every render comes to its end -/

/-- Whether the reply is a line of the encoder. -/
def Reply.isLine : Reply → Bool
  | .line _ _ => true
  | _ => false

/-- The lines among the answers. -/
def linesIn (es : List (Request × Reply)) : Nat := es.countP (·.2.isLine)

/-- Every answer is one that the request can get. -/
def Conduct.Fits (x : Conduct) : Prop :=
  ∀ (past : List (Request × Reply)) (q : Request), q.takes (x past q) = true

/-- The encoder tells no more lines than these. -/
def Conduct.TellsAtMost (x : Conduct) (lines : Nat) : Prop :=
  ∀ past q, (x past q).isLine = true → linesIn past < lines

/-- How far it is to the end, lines apart. -/
def Point.distance : Point → Nat
  | .finished _ => 0
  | .recording _ => 1
  | .tellingFailure _ => 2
  | .enteringFailed => 3
  | .enteringDone => 4
  | .reading => 5
  | .encoding _ => 6
  | .reporting _ _ | .enteringEncoding _ => 7
  | .enteringCompiling => 8
  | .stagingFont _ => 9
  | .stagingSource _ => 10
  | .readingFont => 11
  | .queued => 12

section Distance

variable {c : Config} {o : Orchestrator} {r : Run} {q : Request} {reply : Reply}

theorem distance_of_line (asks : r.request c = some q) (fits : q.takes reply = true)
    (line : reply.isLine = true) :
    r.point.distance = 6 ∧ (r.resume c o reply).2.1.point.distance ≤ 7 := by
  obtain ⟨source, cues, metrics, point⟩ := r
  cases reply with
  | line kind message =>
    cases point with
    | encoding graph =>
      refine ⟨rfl, ?_⟩
      simp only [Run.resume, Run.hear]
      split
      · exact Nat.le_refl 7
      · exact Nat.le_succ 6
    | _ => cases asks <;> cases fits
  | _ => cases line

theorem distance_compile (c : Config) (o : Orchestrator) (r : Run) :
    (Run.compile c o r).2.1.point.distance < Point.enteringCompiling.distance := by
  rcases compile_cases c o r with ⟨-, heq⟩ | ⟨-, heq⟩
  · rw [heq]
    exact Nat.lt_succ_self 7
  · rw [heq]
    exact Nat.le_of_ble_eq_true rfl

/-- An answer that is no line brings a render nearer to its end. -/
theorem distance_lt (asks : r.request c = some q) (fits : q.takes reply = true)
    (line : reply.isLine = false) :
    (r.resume c o reply).2.1.point.distance < r.point.distance := by
  obtain ⟨source, cues, metrics, point⟩ := r
  cases reply with
  | line kind message => cases line
  | _ =>
    cases point <;> cases asks <;>
      first
        | exact distance_compile c o _
        | exact Nat.le_of_ble_eq_true rfl
        | exact absurd fits Bool.false_ne_true

end Distance

/-- With every conduct a render comes to its end. -/
theorem exists_exchange (c : Config) {x : Conduct} (fits : x.Fits) {lines : Nat}
    (terse : x.TellsAtMost lines) (past : List (Request × Reply)) (o : Orchestrator) (r : Run) :
    ∃ es o' r' outcome, Exchange c o r es o' r' ∧ x.Gives past es ∧
      r'.point = .finished outcome := by
  -- each line costs one that is left, and takes the render back by less than two
  induction hleft : 2 * (lines - linesIn past) + r.point.distance using Nat.strongRecOn
    generalizing past o r with
  | _ left ih =>
    cases hasks : r.request c with
    | none =>
      obtain ⟨outcome, hover⟩ := Run.finished_of_request hasks
      exact ⟨[], o, r, outcome, .refl, .nothing past, hover⟩
    | some q =>
      have hfits := fits past q
      have hcount : linesIn (past ++ [(q, x past q)]) =
          linesIn past + if (x past q).isLine = true then 1 else 0 := by
        unfold linesIn
        rw [List.countP_append, List.countP_singleton]
      have hless : 2 * (lines - linesIn (past ++ [(q, x past q)])) +
          (r.resume c o (x past q)).2.1.point.distance < left := by
        cases hline : (x past q).isLine with
        | true =>
          have hroom := terse past q hline
          have hdistance := distance_of_line (o := o) hasks hfits hline
          rw [hline, if_pos rfl] at hcount
          omega
        | false =>
          have hnearer := distance_lt (o := o) hasks hfits hline
          rw [hline, if_neg Bool.false_ne_true] at hcount
          omega
      obtain ⟨es, o', r', outcome, hrest, hgives, hover⟩ :=
        ih _ hless (past ++ [(q, x past q)]) _ _ rfl
      exact ⟨(q, x past q) :: es, o', r', outcome, .step hasks hrest, .answer rfl hgives, hover⟩

/-! ## A render that is left alone -/

/-- What is readable where listeners are told of a result. -/
def Run.Announces (r : Run) (o : Orchestrator) : Prop :=
  match r.point with
  | .enteringDone => o.state = .done ∧ o.artifact.isSome
  | .enteringFailed => o.state = .failed ∧ o.artifact = none
  | _ => True

theorem Run.announces_resume (c : Config) {o : Orchestrator} {r : Run} (h : r.Announces o)
    (reply : Reply) : (r.resume c o reply).2.1.Announces (r.resume c o reply).1 := by
  obtain ⟨source, cues, metrics, point⟩ := r
  cases point with
  | encoding graph =>
    cases reply with
    | line kind message =>
      simp only [Run.resume, Run.hear]
      split <;> trivial
    | fault f => exact ⟨rfl, rfl⟩
    | _ => trivial
  | enteringCompiling =>
    cases reply with
    | done =>
      rcases compile_cases c o ⟨source, cues, metrics, .enteringCompiling⟩ with ⟨-, heq⟩ | ⟨-, heq⟩
      · simp only [Run.resume, heq]
        trivial
      · simp only [Run.resume, heq]
        exact ⟨rfl, rfl⟩
    | fault f => exact ⟨rfl, rfl⟩
    | _ => trivial
  | _ => cases reply <;> trivial

/-- From a result on nothing that is readable changes, unless a listener fails which is told of a
video. -/
theorem Exchange.same {c : Config} {o o' : Orchestrator} {r r' : Run} {es : List (Request × Reply)}
    (h : Exchange c o r es o' r') (way : r.point.isUnderWay = false)
    (point : r.point ≠ .enteringDone) : o' = o := by
  induction h with
  | refl => rfl
  | @step o o' r r' q reply es asks rest ih =>
    obtain ⟨hway, hsame⟩ := Run.resume_concluded c o reply way
    have hsame := hsame.resolve_right fun h => point h.1
    rw [hsame] at ih
    refine ih hway ?_
    obtain ⟨source, cues, metrics, p⟩ := r
    cases p with
    | enteringDone => exact absurd rfl point
    | enteringFailed | tellingFailure | recording | finished =>
      cases reply <;> exact Point.noConfusion
    | _ => cases way

/-- The course of a render that is left alone. What listeners of a result see is what is readable at
the end, unless it is a video and one of them fails. -/
theorem Exchange.course {c : Config} {o o' : Orchestrator} {r r' : Run}
    {es : List (Request × Reply)} (h : Exchange c o r es o' r') (announces : r.Announces o) :
    ∃ ds, Course c r ds r' ∧ es = ds.map (fun d => (d.request, d.reply)) ∧
      (∀ d ∈ ds, d.request = .tellState .done → d.reply = .done →
        d.seen = o' ∧ o'.state = .done ∧ o'.artifact.isSome) ∧
      ∀ d ∈ ds, d.request = .tellState .failed →
        d.seen = o' ∧ o'.state = .failed ∧ o'.artifact = none := by
  induction h with
  | refl => exact ⟨[], .refl, rfl, List.forall_mem_nil _, List.forall_mem_nil _⟩
  | @step o o' r r' q reply es asks rest ih =>
    obtain ⟨ds, hcourse, rfl, hdone, hfailed⟩ := ih (r.announces_resume c announces reply)
    refine ⟨⟨o, q, reply⟩ :: ds, .step asks hcourse, rfl, ?_, ?_⟩
    · intro d hd hq hreply
      rcases List.mem_cons.mp hd with rfl | hd
      · obtain ⟨source, cues, metrics, point⟩ := r
        cases hq
        cases hreply
        cases point <;> cases asks
        have hsame : o' = o := rest.same rfl Point.noConfusion
        exact ⟨hsame.symm, hsame ▸ announces⟩
      · exact hdone d hd hq hreply
    · intro d hd hq
      rcases List.mem_cons.mp hd with rfl | hd
      · obtain ⟨source, cues, metrics, point⟩ := r
        cases hq
        cases point <;> cases asks
        have hsame : o' = o := by
          cases reply <;> exact rest.same rfl Point.noConfusion
        exact ⟨hsame.symm, hsame ▸ announces⟩
      · exact hfailed d hd hq

/-! ## What escapes -/

/-- How a render ends that is left alone: what listeners were told, what is readable then, and the
outcome. -/
inductive Concluded (es : List (Request × Reply)) (o : Orchestrator) (outcome : Outcome) : Prop
  | video (a : Artifact) (state : o.state = .done) (artifact : o.artifact = some a)
      (quiet : failuresTold es = []) (ends : outcome = .ok (some a) ∨ ∃ f, outcome = .error f)
  | failure (state : o.state = .failed) (artifact : o.artifact = none)
      (returned : (.tellState .failed, .done) ∈ es) (once : failuresTold es = [o.failure])
      (ends : outcome = .ok none ∨ ∃ f, outcome = .error f)
  /-- Nobody is told why, since the listener that is told of the state failed. -/
  | silence (state : o.state = .failed) (artifact : o.artifact = none)
      (fault : ∃ f, (.tellState .failed, .fault f) ∈ es) (quiet : failuresTold es = [])
      (ends : ∃ f, outcome = .error f)

section Escape

variable {c : Config} {o : Orchestrator} {r : Run} {ds : List Dealing} {outcome : Outcome}

theorem mem_dealt {d : Dealing} {q : Request} {reply : Reply} (hd : d ∈ ds) (asks : d.request = q)
    (replies : d.reply = reply) : (q, reply) ∈ ds.map fun d => (d.request, d.reply) := by
  subst asks replies
  exact List.mem_map_of_mem hd

theorem failuresTold_dealt (ds : List Dealing) :
    failuresTold (ds.map fun d => (d.request, d.reply)) = failuresIn ds := by
  unfold failuresTold failuresIn
  rw [List.filterMap_map]
  rfl

theorem escapes_iff_dealt :
    (∃ d ∈ ds, d.Escapes) ↔ ∃ q f, (q, .fault f) ∈ ds.map (fun d => (d.request, d.reply)) ∧
      q.isUnguarded = true := by
  constructor
  · rintro ⟨d, hd, hunguarded, f, hreply⟩
    exact ⟨d.request, f, mem_dealt hd rfl hreply, hunguarded⟩
  · rintro ⟨q, f, hmem, hunguarded⟩
    obtain ⟨d, hd, heq⟩ := List.mem_map.mp hmem
    obtain ⟨rfl, hreply⟩ := Prod.mk.inj heq
    exact ⟨d, hd, hunguarded, f, hreply⟩

theorem concluded_of_failed {es : List (Request × Reply)} (h : Aftermath .enteringFailed ds outcome)
    (dealt : ∀ d ∈ ds, (d.request, d.reply) ∈ es) (told : failuresTold es = failuresIn ds)
    (seen : ∀ d ∈ ds, d.request = .tellState .failed →
      d.seen = o ∧ o.state = .failed ∧ o.artifact = none) : Concluded es o outcome := by
  rcases h.of_failed with ⟨d, hd, hq, hreply, honce, hends⟩ | ⟨d, hd, hq, ⟨f, hreply⟩, hnone, hends⟩
  · obtain ⟨hseen, hstate, hartifact⟩ := seen d hd hq
    have hmem := dealt d hd
    rw [hq, hreply] at hmem
    rw [honce, hseen] at told
    exact .failure hstate hartifact hmem told hends
  · obtain ⟨-, hstate, hartifact⟩ := seen d hd hq
    have hmem := dealt d hd
    rw [hq, hreply] at hmem
    exact .silence hstate hartifact ⟨f, hmem⟩ (told.trans hnone) hends

/-- How a render ends that comes to its result and is left alone. -/
theorem Aftermath.concluded {es : List (Request × Reply)} {result : Except Fault Bytes}
    (h : Aftermath (.ofResult result) ds outcome) (dealt : ∀ d ∈ ds, (d.request, d.reply) ∈ es)
    (told : failuresTold es = failuresIn ds)
    (done : ∀ d ∈ ds, d.request = .tellState .done → d.reply = .done →
      d.seen = o ∧ o.state = .done ∧ o.artifact.isSome)
    (failed : ∀ d ∈ ds, d.request = .tellState .failed →
      d.seen = o ∧ o.state = .failed ∧ o.artifact = none) : Concluded es o outcome := by
  cases result with
  | error f => exact concluded_of_failed h dealt told failed
  | ok data =>
    cases h with
    | done seen rest =>
      obtain ⟨rfl, hstate, hartifact⟩ := done _ List.mem_cons_self rfl rfl
      obtain ⟨a, ha⟩ := Option.isSome_iff_exists.mp hartifact
      obtain ⟨hnone, hends⟩ := rest.of_recording
      rw [show seen.artifact = some a from ha] at hends
      exact .video a hstate ha (told.trans hnone) hends
    | undone seen f rest =>
      -- the listener of the video failed, and so does the render
      exact concluded_of_failed rest (fun d hd => dealt d (List.mem_cons_of_mem _ hd)) told
        fun d hd => failed d (List.mem_cons_of_mem _ hd)

/-- The course of a render that is accepted and comes to its end, whatever others do meanwhile. -/
theorem Course.conclusion {run : Run} (h : Course c run ds r) (queued : run.point = .queued)
    (houtcome : r.outcome? = some outcome) (fits : ∀ d ∈ ds, d.request.takes d.reply = true) :
    ∃ before after result, ds = before ++ after ∧ (∀ d ∈ before, d.request.isReport = false) ∧
      Aftermath (.ofResult result) after outcome ∧
      ((∃ f, outcome = .error f) ↔ ∃ d ∈ ds, d.Escapes) := by
  have hpoint := Run.finished_of_outcome houtcome
  obtain ⟨before, after, result, mid, rfl, hbefore, hmid, hafter⟩ :=
    h.split (by rw [queued]; rfl) (by rw [hpoint]; rfl)
  have haftermath := hafter.aftermath (by rw [hmid, Point.isUnderWay_ofResult]) hpoint
    fun d hd => fits d (List.mem_append_right _ hd)
  rw [hmid] at haftermath
  exact ⟨before, after, result, rfl, hbefore, haftermath,
    haftermath.error_iff_escapes.trans (escapes_behind hbefore).symm⟩

end Escape

/-- A render that is accepted comes to its end, whatever its conduct is, if the encoder does not
tell lines for ever. However it ends while it is left alone, it is done or failed, and a failure is
told once unless the listener fails that is told of the state. And whether or not it is left alone,
the outcome is a fault exactly if one was met where a failure is told or the row is recorded. -/
theorem outcome_is_fault_iff_one_escapes (c : Config) (s : Session) (source : Bytes)
    (cues : List Cue) (total : Double) (change : Session.Change)
    (h : s.start (some source) cues total = .accepted change) :
    ∃ run, change.pending = .submit run ∧
      (∀ x : Conduct, x.Fits → ∀ lines, x.TellsAtMost lines → ∃ es o r outcome,
        Exchange c change.session.orchestrator run es o r ∧ x.Gives [] es ∧
          r.outcome? = some outcome) ∧
      (∀ es o r outcome, Exchange c change.session.orchestrator run es o r →
        (∀ e ∈ es, e.1.takes e.2 = true) → r.outcome? = some outcome →
        Concluded es o outcome ∧
          ((∃ f, outcome = .error f) ↔ ∃ q f, (q, .fault f) ∈ es ∧ q.isUnguarded = true)) ∧
      ∀ ds r outcome, Course c run ds r → (∀ d ∈ ds, d.request.takes d.reply = true) →
        r.outcome? = some outcome → ((∃ f, outcome = .error f) ↔ ∃ d ∈ ds, d.Escapes) := by
  obtain ⟨-, -, hpending⟩ := start_eq_accepted h
  refine ⟨_, hpending, ?_, ?_, ?_⟩
  · intro x fits lines terse
    obtain ⟨es, o, r, outcome, hex, hgives, hpoint⟩ :=
      exists_exchange c fits terse [] change.session.orchestrator (Run.queue source cues)
    exact ⟨es, o, r, outcome, hex, hgives, by simp only [Run.outcome?, hpoint]⟩
  · intro es o r outcome hex fits houtcome
    obtain ⟨ds, hcourse, rfl, hdone, hfailed⟩ := hex.course trivial
    obtain ⟨before, after, result, rfl, hbefore, haftermath, hiff⟩ :=
      hcourse.conclusion rfl houtcome fun d hd => fits _ (List.mem_map_of_mem hd)
    refine ⟨?_, hiff.trans escapes_iff_dealt⟩
    apply haftermath.concluded
    · exact fun d hd => mem_dealt (List.mem_append_right _ hd) rfl rfl
    · rw [failuresTold_dealt, failuresIn_behind hbefore]
    · exact fun d hd => hdone d (List.mem_append_right _ hd)
    · exact fun d hd => hfailed d (List.mem_append_right _ hd)
  · intro ds r outcome hcourse fits houtcome
    obtain ⟨-, -, -, -, -, -, hiff⟩ := hcourse.conclusion rfl houtcome fits
    exact hiff

/-- The font cannot be read, and whoever is told of the failure itself fails: the render has failed,
its failure was told once, and the fault escapes. -/
theorem failed_telling_concludes_by_fault :
    ∃ change run es o r, Session.start { clock := { offset := .zero } } (some [1]) [] .zero =
        .accepted change ∧ change.pending = .submit run ∧
      Exchange { font := "Studio.ttf" } change.session.orchestrator run es o r ∧
      es.map (·.2) = [.done, .fault ⟨.os, "gone", ""⟩, .done, .fault ⟨.value, "sink", ""⟩, .done] ∧
      r.outcome? = some (.error ⟨.value, "sink", ""⟩) ∧
      Concluded es o (.error ⟨.value, "sink", ""⟩) := by
  have haccepted : ∃ change, Session.start { clock := { offset := .zero } } (some [1]) [] .zero =
      .accepted change := ⟨_, rfl⟩
  obtain ⟨change, haccepted⟩ := haccepted
  obtain ⟨run, hpending, -, hconcluded, -⟩ := outcome_is_fault_iff_one_escapes
    { font := "Studio.ttf" } { clock := { offset := .zero } } [1] [] .zero change haccepted
  obtain ⟨-, -, hqueue⟩ := start_eq_accepted haccepted
  obtain rfl : run = .queue [1] [] := by
    rw [hpending] at hqueue
    cases hqueue
    rfl
  have hex : Exchange { font := "Studio.ttf" } change.session.orchestrator (.queue [1] [])
      [(_, .done), (_, .fault ⟨.os, "gone", ""⟩), (_, .done), (_, .fault ⟨.value, "sink", ""⟩),
        (_, .done)] _ _ :=
    .step rfl (.step rfl (.step rfl (.step rfl (.step rfl .refl))))
  refine ⟨change, _, _, _, _, haccepted, hpending, hex, rfl, rfl, (hconcluded _ _ _ _ hex ?_ rfl).1⟩
  intro e he
  simp only [List.mem_cons, List.not_mem_nil, or_false] at he
  rcases he with rfl | rfl | rfl | rfl | rfl <;> rfl

/-- Each of the three ways in which a fault escapes: the listener fails that is told of the failed
state, and then nobody is told what went wrong; whoever is told of the failure fails; or the row
cannot be recorded, as where the path of its file is none, be the video there or not. -/
theorem faults_escape :
    let c : Config := { font := "Studio.ttf" }
    let start : Orchestrator := { state := .staging }
    let policy : MetricsPolicy := { enabled := some true, path := some "a\x00b" }
    let gone : Fault := ⟨.os, "gone", ""⟩
    let fault : Fault := ⟨.value, "embedded null byte", ""⟩
    (∃ es o r, Exchange c start (.queue [1] []) es o r ∧
      es.map (·.2) = [.done, .fault gone, .fault fault, .done] ∧
      r.outcome? = some (.error fault) ∧ o.state = .failed ∧ failuresTold es = []) ∧
    (∃ es o r, Exchange c start (.queue [1] []) es o r ∧
      es.map (·.2) = [.done, .fault gone, .done, .fault fault, .done] ∧
      r.outcome? = some (.error fault) ∧ o.state = .failed) ∧
    (∀ disk stamp m, (policy.log disk stamp m).1 = .error fault) ∧
    ∃ es o r, Exchange c start (.queue [1] []) es o r ∧
      es.map (·.2) = [.done, .bytes [0], .done, .done, .done, .done, .done, .bytes [3], .done,
        .fault fault] ∧
      r.outcome? = some (.error fault) ∧ o.state = .done ∧ o.artifact = some { data := [3] } := by
  intro c start policy gone fault
  have untold : Exchange c start (.queue [1] [])
      [(_, .done), (_, .fault gone), (_, .fault fault), (_, .done)] _ _ :=
    .step rfl (.step rfl (.step rfl (.step rfl .refl)))
  have unheard : Exchange c start (.queue [1] [])
      [(_, .done), (_, .fault gone), (_, .done), (_, .fault fault), (_, .done)] _ _ :=
    .step rfl (.step rfl (.step rfl (.step rfl (.step rfl .refl))))
  have unrecorded : Exchange c start (.queue [1] [])
      [(_, .done), (_, .bytes [0]), (_, .done), (_, .done), (_, .done), (_, .done), (_, .done),
        (_, .bytes [3]), (_, .done), (_, .fault fault)] _ _ :=
    .step rfl (.step rfl (.step rfl (.step rfl (.step rfl (.step rfl (.step rfl (.step rfl
      (.step rfl (.step rfl .refl)))))))))
  refine ⟨⟨_, _, _, untold, rfl, rfl, rfl, rfl⟩, ⟨_, _, _, unheard, rfl, rfl, rfl⟩, ?_,
    ⟨_, _, _, unrecorded, rfl, rfl, rfl, rfl⟩⟩
  intro disk stamp m
  have hfile : policy.file = .error .nul := rfl
  simp only [MetricsPolicy.log, MetricsPolicy.write, hfile]
  rfl

end TimedText.Render
