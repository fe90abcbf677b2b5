import TimedText.Proofs.Render.Exchange

/-!
# How a render comes out

A render that was accepted comes to exactly one end with each outside: a video if every step
succeeds, and else one failure, which tells the first fault on the way. `Outside.result` says which.
One step is no matter of the outside: the cues are not compiled where a number in their expression
has too many digits to be printed. The lemmas go backwards, from the end to the point where a render
waits for its turn.
-/

namespace TimedText.Render

/-- What is readable once a render has come to a result. -/
def Orchestrator.concluded (o : Orchestrator) : Except Fault Bytes → Orchestrator
  | .ok data => { o with state := .done, artifact := some { data } }
  | .error f =>
    { o with state := .failed, artifact := none, failure := some (Run.failureMessage f) }

/-- How a render ends that comes to a result: with the video, or without one and without a fault. -/
def Outcome.ofResult : Except Fault Bytes → Outcome
  | .ok data => .ok (some { data })
  | .error _ => .ok none

/-- The failures that a result is told as. -/
def failuresOf : Except Fault Bytes → List (Option String)
  | .ok _ => []
  | .error f => [some (Run.failureMessage f)]

@[simp] theorem concluded_enter (o : Orchestrator) (s : State) (result : Except Fault Bytes) :
    (o.enter s).1.concluded result = o.concluded result := by
  cases result <;> rfl

/-- From here a render goes through these states, and then it concludes with a result. -/
def ComesTo (c : Config) (x : Outside) (o : Orchestrator) (r : Run) (states : List State)
    (result : Except Fault Bytes) : Prop :=
  Ends c x o r (states ++ [(o.concluded result).state]) (failuresOf result) (o.concluded result)
    (Outcome.ofResult result)

variable {c : Config} {x : Outside} {o : Orchestrator} {r : Run} {states : List State}
  {result : Except Fault Bytes}

/-- A request more that tells of no failure, and whose answer changes nothing that stays. -/
theorem ComesTo.step (q : Request) (asks : r.request c = some q) (quiet : q.failureTold = none)
    (same : (r.resume c o (x.answer q).1).1.concluded result = o.concluded result)
    (h : ComesTo c (x.answer q).2 (r.resume c o (x.answer q).1).1
      (r.resume c o (x.answer q).1).2.1 states result) :
    ComesTo c x o r (q.stateTold.toList ++ states) result := by
  have hstep := Ends.step q asks h
  rw [quiet, same] at hstep
  unfold ComesTo
  rw [List.append_assoc]
  exact hstep

theorem comesTo_fail (r : Run) (f : Fault) :
    ComesTo c x (Run.fail o r f).1 (Run.fail o r f).2.1 [] (.error f) := by
  refine Ends.step (.tellState .failed) rfl ?_
  refine Ends.step (.tellFailure (some (Run.failureMessage f))) rfl ?_
  exact Ends.step (.record _) rfl .over

theorem comesTo_enterDone (r : Run) (data : Bytes) :
    ComesTo c x (Run.enterDone o r data).1 (Run.enterDone o r data).2.1 [] (.ok data) := by
  refine Ends.step (.tellState .done) rfl ?_
  exact Ends.step (.record _) rfl .over

/-- From the work of the encoder on, everything hangs on how it ends and on what is read. -/
theorem comesTo_encoding (r : Run) (graph : Filter.Graph) (x : Outside) :
    ComesTo c x o (r.goto (.encoding graph)) [] x.encoded := by
  obtain ⟨font, stage, stageNext, lines, encode, read⟩ := x
  refine Ends.lines (x := ⟨font, stage, stageNext, [], encode, read⟩) lines ?_
  cases encode with
  | error f => exact ComesTo.step (.encode graph.encoderArguments) rfl rfl rfl (comesTo_fail _ f)
  | ok =>
    refine ComesTo.step (.encode graph.encoderArguments) rfl rfl rfl ?_
    cases read with
    | error f => exact .step (.read Filter.outputName) rfl rfl rfl (comesTo_fail _ _)
    | ok data => exact .step (.read Filter.outputName) rfl rfl rfl (comesTo_enterDone _ data)

/-- Behind compiling a render encodes, if there is an expression. -/
theorem comesTo_compile (r : Run) (x : Outside) :
    ComesTo c x (Run.compile c o r).1 (Run.compile c o r).2.1
      (match Run.compiled c r.cues with | .error _ => [] | .ok _ => [.encoding])
      (do let _ ← Run.compiled c r.cues; x.encoded) := by
  unfold Run.compile
  cases Run.compiled c r.cues with
  | ok graph => exact .step (.tellState .encoding) rfl rfl rfl (comesTo_encoding _ graph x)
  | error f => exact comesTo_fail (r.ended "compile") f

theorem concluded_compile (o : Orchestrator) (r : Run) (encoded : Except Fault Bytes) :
    (Run.compile c o r).1.concluded (do let _ ← Run.compiled c r.cues; encoded) =
      o.concluded (do let _ ← Run.compiled c r.cues; encoded) := by
  unfold Run.compile
  cases Run.compiled c r.cues with
  | ok graph => exact concluded_enter o .encoding encoded
  | error f => rfl

/-- Behind staging a render compiles. -/
theorem comesTo_enterCompiling (r : Run) (x : Outside) :
    ComesTo c x (Run.enterCompiling o r).1 (Run.enterCompiling o r).2.1
      (.compiling :: match Run.compiled c r.cues with | .error _ => [] | .ok _ => [.encoding])
      (do let _ ← Run.compiled c r.cues; x.encoded) :=
  .step (.tellState .compiling) rfl rfl (concluded_compile _ _ _)
    (comesTo_compile ((r.ended "staging").goto .enteringCompiling) x)

/-- A render that waits for its turn stages both files before anything else. -/
theorem comesTo_queue (x : Outside) (source : Bytes) (cues : List Cue) :
    ComesTo c x o (Run.queue source cues) (x.statesBetween (Run.compiled c cues))
      (x.result (Run.compiled c cues)) := by
  obtain ⟨font, stage, stageNext, lines, encode, read⟩ := x
  refine .step .turn rfl rfl rfl ?_
  cases font with
  | error f => exact .step .readFont rfl rfl rfl (comesTo_fail _ _)
  | ok font =>
    refine .step .readFont rfl rfl rfl ?_
    cases stage with
    | error f => exact .step (.stage Filter.inputName source) rfl rfl rfl (comesTo_fail _ f)
    | ok =>
      refine .step (.stage Filter.inputName source) rfl rfl rfl ?_
      cases stageNext with
      | error f => exact .step (.stage c.font font) rfl rfl rfl (comesTo_fail _ f)
      | ok => exact .step (.stage c.font font) rfl rfl rfl (comesTo_enterCompiling _ _)

/-! ## Accepted renders -/

/-- With this outside an accepted render of these cues has exactly one history. Either every step
succeeds and the expression of the cues is written, the video is what was read, and nobody is told
of a failure; or the first fault on the way is told once, in words that hide internal paths, and no
video is readable. The fault is one of staging, before anything else is entered; or that of an
expression that cannot be written, told while compiling; or one of the encoder's work. -/
def ConcludesOnce (c : Config) (x : Outside) (cues : List Cue) (change : Session.Change) : Prop :=
  ∃ run es o r, change.pending = .submit run ∧
    Exchange c change.session.orchestrator run es o r ∧ x.Gives es ∧ r.request c = none ∧
    (∀ es' o' r', Exchange c change.session.orchestrator run es' o' r' → x.Gives es' →
      r'.request c = none → es' = es ∧ o' = o ∧ r' = r) ∧
    ((∃ data, x.Succeeds data ∧ Filter.IsWritten c.box cues ∧
        change.told.toList ++ statesTold es = [.staging, .compiling, .encoding, .done] ∧
        o.state = .done ∧ o.artifact = some { data } ∧ o.failure = none ∧
        failuresTold es = [] ∧ r.outcome? = some (.ok (some { data }))) ∨
      (∃ f, ¬ (Filter.IsWritten c.box cues ∧ ∃ data, x.Succeeds data) ∧
        (x.staged = .error f ∧
            change.told.toList ++ statesTold es = [.staging, .failed] ∨
          x.staged = .ok () ∧ ¬ Filter.IsWritten c.box cues ∧ f = Filter.notWritten ∧
            change.told.toList ++ statesTold es = [.staging, .compiling, .failed] ∨
          x.staged = .ok () ∧ Filter.IsWritten c.box cues ∧ x.encoded = .error f ∧
            change.told.toList ++ statesTold es = [.staging, .compiling, .encoding, .failed]) ∧
        o.state = .failed ∧ o.artifact = none ∧
        o.failure = some (Sanitize.message ("Video processing failed: " ++ f.message)) ∧
        failuresTold es = [o.failure] ∧ r.outcome? = some (.ok none)))

/-- What a request to render that is accepted comes to. -/
theorem start_eq_accepted {s : Session} {source : Bytes} {cues : List Cue} {total : Double}
    {change : Session.Change} (h : s.start (some source) cues total = .accepted change) :
    change.session.orchestrator = { state := .staging, total } ∧
      change.told = some .staging ∧ change.pending = .submit (Run.queue source cues) := by
  unfold Session.start Orchestrator.start at h
  cases hflight : s.orchestrator.isInFlight with
  | true => simp [hflight] at h
  | false =>
    simp only [hflight] at h
    cases h
    exact ⟨rfl, rfl, rfl⟩

/-- Every accepted render concludes, whatever it is given and whatever the outside does. -/
theorem accepted_render_concludes_once (c : Config) (s : Session) (source : Bytes)
    (cues : List Cue) (total : Double) (change : Session.Change)
    (h : s.start (some source) cues total = .accepted change) (x : Outside) :
    ConcludesOnce c x cues change := by
  obtain ⟨ho, htold, hpending⟩ := start_eq_accepted h
  have hcomes : ComesTo c x change.session.orchestrator (Run.queue source cues) _ _ :=
    comesTo_queue x source cues
  obtain ⟨es, r, hex, hgives, hpoint, hstates, hfailures⟩ := hcomes
  have hover : r.request c = none := by simp only [Run.request, hpoint]
  have houtcome : r.outcome? = some (Outcome.ofResult (x.result (Run.compiled c cues))) := by
    simp only [Run.outcome?, hpoint]
  refine ⟨_, es, _, r, hpending, hex, hgives, hover, ?_, ?_⟩
  · intro es' o' r' hex' hgives' hover'
    exact Exchange.unique hex' hgives' hover' hex hgives hover
  rw [htold, hstates, hfailures, houtcome, ho]
  unfold Outside.statesBetween Outside.result
  simp only [Outside.succeeds_iff]
  cases hstaged : x.staged with
  | error f =>
    have hnot : ¬ (Filter.IsWritten c.box cues ∧ ∃ data, (.error f : Except Fault Unit) = .ok () ∧
        x.encoded = .ok data) := by
      rintro ⟨-, _, h, -⟩
      cases h
    exact .inr ⟨f, hnot, .inl ⟨rfl, rfl⟩, rfl, rfl, rfl, rfl, rfl⟩
  | ok =>
    by_cases hwritten : Filter.IsWritten c.box cues
    · rw [compiled_of_written hwritten]
      cases hencoded : x.encoded with
      | ok data => exact .inl ⟨data, ⟨rfl, rfl⟩, hwritten, rfl, rfl, rfl, rfl, rfl, rfl⟩
      | error f =>
        refine .inr ⟨f, ?_, .inr (.inr ⟨rfl, hwritten, rfl, rfl⟩), rfl, rfl, rfl, rfl, rfl⟩
        rintro ⟨-, _, -, h⟩
        cases h
    · rw [compiled_of_not_written hwritten]
      exact .inr ⟨Filter.notWritten, fun ⟨h, _⟩ => hwritten h,
        .inr (.inl ⟨rfl, hwritten, rfl, rfl⟩), rfl, rfl, rfl, rfl, rfl⟩

/-- A render whose encoder tells a line, ends well and leaves nothing to read. -/
theorem render_without_output_concludes_once :
    ∃ change, Session.start { clock := { offset := .zero } } (some [1, 2, 3]) [.blank] .zero =
        .accepted change ∧
      ConcludesOnce { font := "Studio.ttf" }
        { font := .ok [0], stage := .ok (), stageNext := .ok (),
          lines := [("stderr", "time=00:00:01.00")], encode := .ok (),
          read := .error ⟨.notFound, "output.mp4 was not produced by ffmpeg", ""⟩ } [.blank]
        change :=
  ⟨_, rfl, accepted_render_concludes_once _ { clock := { offset := .zero } } [1, 2, 3] [.blank]
    .zero _ rfl _⟩

/-- A cue with letters of this size. -/
def sized (size : Nat) (positive : 0 < size) : Cue :=
  { Cue.blank with text := "Hi", fontSize := size, fontSize_pos := positive }

/-- A cue whose letters have a size of one digit more than is printed. -/
def oversized : Cue := sized (10 ^ maxPrintedDigits) (Nat.pow_pos (by decide))

theorem oversized_not_written (box : Filter.Box) : ¬ Filter.IsWritten box [oversized] := by
  intro h
  have hshown (size : Nat) (positive : 0 < size) : (sized size positive).isBlank = false := by
    show Text.allBlank "Hi" = false
    decide +kernel
  have hprinted := (h oversized List.mem_cons_self (hshown _ _)).1
  rw [isPrinted_iff, Int.natAbs_natCast, oversized, sized] at hprinted
  exact Nat.lt_irrefl _ hprinted

/-- A render for which everything else succeeds fails over its cue while it compiles. -/
theorem oversized_cue_fails_while_compiling :
    let x : Outside :=
      { font := .ok [0], stage := .ok (), stageNext := .ok (), lines := [], encode := .ok (),
        read := .ok [5] }
    x.Succeeds [5] ∧
      ∃ change run es o r,
        Session.start { clock := { offset := .zero } } (some [1]) [oversized] .zero =
            .accepted change ∧
          change.pending = .submit run ∧
          Exchange { font := "Studio.ttf" } change.session.orchestrator run es o r ∧ x.Gives es ∧
          r.request { font := "Studio.ttf" } = none ∧
          change.told.toList ++ statesTold es = [.staging, .compiling, .failed] ∧
          o.artifact = none := by
  intro x
  obtain ⟨es, r, hex, hgives, hpoint, hstates, -⟩ :=
    comesTo_queue (c := { font := "Studio.ttf" }) (o := { state := .staging }) x [1] [oversized]
  rw [compiled_of_not_written (oversized_not_written _)] at hex hstates
  refine ⟨⟨⟨_, rfl⟩, rfl, rfl, rfl, rfl⟩, _, _, es, _, r, rfl, rfl, hex, hgives, ?_, ?_, rfl⟩
  · simp only [Run.request, hpoint]
  · rw [hstates]
    rfl

end TimedText.Render
