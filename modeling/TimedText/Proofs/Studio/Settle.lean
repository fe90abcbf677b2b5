import TimedText.Studio.Command
import TimedText.Proofs.Except
import TimedText.Proofs.Render.Arguments
import TimedText.Proofs.Render.Workshop

/-!
# A studio carries a render through

A studio answers a render request by request. Up to the work of the engine that is one stretch, at
whose end the render waits for the engine or has failed; behind it is another, at whose end the
render is over. What is readable at the end is said by what the engine makes of all that it takes in
(`made`, `run_concluded`).
-/

namespace TimedText.Studio

open Render (State Orchestrator Point Run Request Reply)

variable {s : Studio} {r : Run} {q : Request} {n : Nat}

/-! ## Answers -/

@[simp] theorem session_answer (s : Studio) (q : Request) : (s.answer q).2.session = s.session := by
  cases q <;> rfl

@[simp] theorem config_answer (s : Studio) (q : Request) : (s.answer q).2.config = s.config := by
  cases q <;> rfl

/-! ## What every step preserves -/

/-- The answers to a render and the replies that reach it preserve this. -/
structure Stable (P : Studio → Prop) : Prop where
  answer : ∀ {s : Studio} {r : Run} {q : Request}, P s → r.request s.config = some q →
    P (s.answer q).2
  resume : ∀ {s : Studio} (r : Run) (reply : Reply), P s → P (s.resume r reply).2

namespace Stable

variable {P : Studio → Prop}

theorem settle (stable : Stable P) (h : P s) (n : Nat) (r : Run) : P (settle n s r).2 := by
  induction n generalizing s r with
  | zero => exact h
  | succ n ih =>
    rw [Studio.settle]
    split
    · exact h
    · exact h  -- the engine's turn, which `endRun` takes
    · next q _ asks => exact ih (stable.resume r (s.answer q).1 (stable.answer h asks)) _

theorem hear (stable : Stable P) (h : P s) (lines : List Encoder.Event) (r : Run) :
    P (lines.foldl hear (r, s)).2 := by
  induction lines generalizing s r with
  | nil => exact h
  | cons line lines ih =>
    exact ih (s := (Studio.hear (r, s) line).2)
      (stable.settle (stable.resume r (.line line.kind line.message) h) 1 _) _

/-- What holds right behind the engine's work holds behind all that follows. -/
theorem endRun (stable : Stable P) {arguments : List String}
    (worked : P { s with
      engine := (s.engine.work s.disk arguments).2.2.1
      disk := (s.engine.work s.disk arguments).2.2.2 }) (r : Run) :
    P (s.endRun r arguments).2 := by
  unfold Studio.endRun
  generalize s.engine.work s.disk arguments = work at worked ⊢
  obtain ⟨lines, result, engine, disk⟩ := work
  exact stable.settle (stable.resume _ (replyOf result) (stable.hear worked lines r)) maxRequests _

end Stable

/-! ## Requests one by one -/

/-- One request more, unless it is the engine that should work. -/
theorem settle_succ (asks : r.request s.config = some q) (idle : ∀ arguments, q ≠ .encode arguments) :
    settle (n + 1) s r =
      settle n ((s.answer q).2.resume r (s.answer q).1).2
        ((s.answer q).2.resume r (s.answer q).1).1 := by
  cases q with
  | encode arguments => exact absurd rfl (idle arguments)
  | _ => simp only [settle, asks]

theorem settle_encoding (n : Nat) (s : Studio) {graph : Filter.Graph}
    (h : r.point = .encoding graph) : settle n s r = (r, s) := by
  cases n with
  | zero => rfl
  | succ n =>
    have hasks : r.request s.config = some (.encode graph.encoderArguments) := by
      rw [Run.request, h]
    simp only [settle, hasks]

theorem isUnderWay_of_encode {arguments : List String}
    (asks : r.request s.config = some (.encode arguments)) : r.point.isUnderWay = true := by
  obtain ⟨source, cues, metrics, point⟩ := r
  cases point <;> first | rfl | cases asks

/-- What is readable once a render has come to its result stays as it is. -/
theorem settle_concluded (n : Nat) (s : Studio) (h : r.point.isUnderWay = false) :
    (settle n s r).1.point.isUnderWay = false ∧
      (settle n s r).2.session.orchestrator = s.session.orchestrator := by
  induction n generalizing s r with
  | zero => exact ⟨h, rfl⟩
  | succ n ih =>
    cases hasks : r.request s.config with
    | none =>
      rw [settle, hasks]
      exact ⟨h, rfl⟩
    | some q =>
      have hidle (arguments : List String) : q ≠ .encode arguments := by
        rintro rfl
        rw [isUnderWay_of_encode hasks] at h
        cases h
      rw [settle_succ hasks hidle]
      obtain ⟨hover, hsame⟩ := Run.resume_concluded (s.answer q).2.config
        (s.answer q).2.session.orchestrator (s.answer q).1 h
      obtain ⟨hpoint, hreadable⟩ := ih ((s.answer q).2.resume r (s.answer q).1).2 hover
      refine ⟨hpoint, hreadable.trans ?_⟩
      rcases hsame with hsame | ⟨hdone, f, hfault, -⟩
      · exact hsame.trans (by rw [session_answer])
      · -- listeners of a studio return
        rw [Run.request, hdone] at hasks
        cases hasks
        cases hfault

/-! ## Up to the engine -/

/-- The engine takes a file in: the engine then, and the disk. -/
def Engine.takeIn (e : Engine) (d : Disk) (name : String) (data : Bytes) :
    Except Fault (Engine × Disk) :=
  match e.stage d name data with
  | (.ok (), e, d, _) => .ok (e, d)
  | (.error f, _) => .error f

/-- The engine takes the video and the font in, if the font can be read. -/
def staged (s : Studio) (source : Bytes) : Except Fault (Engine × Disk) := do
  let font ← s.readFont.mapError Run.fontFault
  let taken ← s.engine.takeIn s.disk Filter.inputName source
  taken.1.takeIn taken.2 s.config.font font

/-- Everything is taken in, and there is an expression that the engine can be asked for. -/
def ready (s : Studio) (source : Bytes) (cues : List Cue) : Except Fault (Engine × Disk) := do
  let taken ← s.staged source
  let _ ← Run.compiled s.config cues
  return taken

theorem ready_eq_ok_iff {source : Bytes} {cues : List Cue} {taken : Engine × Disk} :
    s.ready source cues = .ok taken ↔
      s.staged source = .ok taken ∧ Filter.IsWritten s.config.box cues := by
  unfold ready
  simp only [bind_eq_ok]
  constructor
  · rintro ⟨_, hstaged, _, hcompiled, hsame⟩
    cases hsame
    refine ⟨hstaged, Decidable.by_contra fun hnot => ?_⟩
    rw [Render.compiled_of_not_written hnot] at hcompiled
    cases hcompiled
  · rintro ⟨hstaged, hwritten⟩
    exact ⟨taken, hstaged, _, Render.compiled_of_written hwritten, rfl⟩

/-- Two studios have the same tools. -/
structure SameTools (s s' : Studio) : Prop where
  engine : s'.engine = s.engine
  config : s'.config = s.config
  font : s'.font = s.font
  origin : s'.origin = s.origin
  disk : s'.disk = s.disk
  metrics : s'.metrics = s.metrics

theorem SameTools.readFont {s s' : Studio} (h : s.SameTools s') : s'.readFont = s.readFont := by
  unfold Studio.readFont
  rw [h.font, h.origin, h.disk]

theorem SameTools.staged {s s' : Studio} (h : s.SameTools s') (source : Bytes) :
    s'.staged source = s.staged source := by
  unfold Studio.staged
  rw [h.engine, h.config, h.readFont, h.disk]

theorem SameTools.ready {s s' : Studio} (h : s.SameTools s') (source : Bytes) (cues : List Cue) :
    s'.ready source cues = s.ready source cues := by
  unfold Studio.ready
  rw [h.staged, h.config]

/-- What the engine is asked for. -/
def asked (s : Studio) (cues : List Cue) : List String :=
  (Filter.compile s.config.font s.config.box cues).encoderArguments

/-- Behind so many requests the render waits for the engine to work on what the cues compile to,
with everything taken in; or else it has failed with a fault. -/
def Brings (n : Nat) (s : Studio) (r : Run) : Except Fault (Engine × Disk) → Prop
  | .ok (engine, disk) =>
    (settle n s r).1.point = .encoding (Filter.compile s.config.font s.config.box r.cues) ∧
      (settle n s r).2.engine = engine ∧ (settle n s r).2.disk = disk ∧
      ∀ result, (settle n s r).2.session.orchestrator.concluded result =
        s.session.orchestrator.concluded result
  | .error f =>
    (settle n s r).1.point.isUnderWay = false ∧
      (settle n s r).2.session.orchestrator = s.session.orchestrator.concluded (.error f)

section Brings

variable {taken : Except Fault (Engine × Disk)} {f : Fault} {font : Bytes}

theorem brings_encoding
    (h : r.point = .encoding (Filter.compile s.config.font s.config.box r.cues)) :
    Brings n s r (.ok (s.engine, s.disk)) := by
  unfold Brings
  rw [settle_encoding n s h]
  exact ⟨h, rfl, rfl, fun _ => rfl⟩

/-- A request whose answer lets the render go on. -/
theorem Brings.step (asks : r.request s.config = some q) (idle : ∀ arguments, q ≠ .encode arguments)
    (same : ∀ result,
      ((s.answer q).2.resume r (s.answer q).1).2.session.orchestrator.concluded result =
        s.session.orchestrator.concluded result)
    (h : Brings n ((s.answer q).2.resume r (s.answer q).1).2
      ((s.answer q).2.resume r (s.answer q).1).1 taken) : Brings (n + 1) s r taken := by
  have hconfig : ((s.answer q).2.resume r (s.answer q).1).2.config = s.config := config_answer s q
  have hcues : ((s.answer q).2.resume r (s.answer q).1).1.cues = r.cues :=
    Run.cues_resume _ _ r (s.answer q).1
  unfold Brings at h ⊢
  rw [settle_succ asks idle]
  cases taken with
  | ok taken =>
    obtain ⟨hpoint, hengine, hdisk, hsame⟩ := h
    rw [hconfig, hcues] at hpoint
    exact ⟨hpoint, hengine, hdisk, fun result => (hsame result).trans (same result)⟩
  | error f => exact ⟨h.1, h.2.trans (same (.error f))⟩

/-- A request whose answer makes the render fail. -/
theorem brings_error (asks : r.request s.config = some q)
    (idle : ∀ arguments, q ≠ .encode arguments)
    (concluded : ((s.answer q).2.resume r (s.answer q).1).1.point.isUnderWay = false)
    (failed : ((s.answer q).2.resume r (s.answer q).1).2.session.orchestrator =
      s.session.orchestrator.concluded (.error f)) : Brings (n + 1) s r (.error f) := by
  unfold Brings
  rw [settle_succ asks idle]
  -- the requests that are left tell of the failure and change nothing that is readable
  obtain ⟨hpoint, hreadable⟩ := settle_concluded n _ concluded
  exact ⟨hpoint, hreadable.trans failed⟩

theorem answer_stage_of_ok {name : String} {data : Bytes} {engine : Engine} {disk : Disk}
    (h : s.engine.takeIn s.disk name data = .ok (engine, disk)) :
    ∃ records, s.answer (.stage name data) = (.done, { s with engine, disk }.log records) := by
  unfold Engine.takeIn at h
  split at h
  · next hstage =>
    cases h
    exact ⟨_, by simp only [answer, hstage]; rfl⟩
  · cases h

theorem answer_stage_of_error {name : String} {data : Bytes}
    (h : s.engine.takeIn s.disk name data = .error f) :
    (s.answer (.stage name data)).1 = .fault f := by
  unfold Engine.takeIn at h
  split at h
  · cases h
  · next hstage =>
    cases h
    simp only [answer, hstage]
    rfl

theorem brings_enteringEncoding
    (h : r.point = .enteringEncoding (Filter.compile s.config.font s.config.box r.cues)) :
    Brings (n + 1) s r (.ok (s.engine, s.disk)) := by
  obtain ⟨source, cues, metrics, point⟩ := r
  replace h : point = .enteringEncoding (Filter.compile s.config.font s.config.box cues) := h
  subst h
  exact .step (q := .tellState .encoding) rfl nofun (fun _ => rfl) (brings_encoding rfl)

/-- Once it is told that a render compiles, its cues are compiled. -/
theorem resume_compiling (s : Studio) (source : Bytes) (cues : List Cue)
    (metrics : Render.Metrics) :
    s.resume ⟨source, cues, metrics, .enteringCompiling⟩ .done =
      let r : Run := ⟨source, cues, metrics, .enteringCompiling⟩
      let (orchestrator, r, records) := match Run.compiled s.config cues with
        | .ok graph => Run.beginEncoding s.session.orchestrator r graph
        | .error f => Run.fail s.session.orchestrator (r.ended "compile") f
      (r, { s with session := { s.session with orchestrator } }.log records) := rfl

theorem brings_enteringCompiling (h : r.point = .enteringCompiling) :
    Brings (n + 2) s r (do let _ ← Run.compiled s.config r.cues; return (s.engine, s.disk)) := by
  obtain ⟨source, cues, metrics, point⟩ := r
  cases h
  have hanswer : s.answer (.tellState .compiling) = (.done, s.tell (.state .compiling)) := rfl
  by_cases hwritten : Filter.IsWritten s.config.box cues
  · have hcompiled := Render.compiled_of_written (c := s.config) hwritten
    rw [hcompiled]
    refine .step (q := .tellState .compiling) rfl nofun ?_ ?_
    · simp only [hanswer, resume_compiling, tell, hcompiled]
      exact Render.concluded_enter _ .encoding
    · simp only [hanswer, resume_compiling, tell, hcompiled]
      exact brings_enteringEncoding rfl
  · have hcompiled := Render.compiled_of_not_written (c := s.config) hwritten
    rw [hcompiled]
    refine brings_error (q := .tellState .compiling) rfl nofun ?_ ?_
    · simp only [hanswer, resume_compiling, tell, hcompiled]
      rfl
    · simp only [hanswer, resume_compiling, tell, hcompiled]
      rfl

theorem brings_stagingFont (h : r.point = .stagingFont font) :
    Brings (n + 3) s r (do
      let taken ← s.engine.takeIn s.disk s.config.font font
      let _ ← Run.compiled s.config r.cues
      return taken) := by
  obtain ⟨source, cues, metrics, point⟩ := r
  cases h
  cases htaken : s.engine.takeIn s.disk s.config.font font with
  | ok taken =>
    obtain ⟨records, hanswer⟩ := answer_stage_of_ok htaken
    refine .step (q := .stage s.config.font font) rfl nofun ?_ ?_
    · rw [hanswer]
      exact Render.concluded_enter _ .compiling
    · rw [hanswer]
      exact brings_enteringCompiling rfl
  | error f =>
    have hanswer := answer_stage_of_error htaken
    refine brings_error (q := .stage s.config.font font) rfl nofun ?_ ?_
    · rw [hanswer]
      rfl
    · rw [hanswer]
      rfl

theorem brings_stagingSource (h : r.point = .stagingSource font) :
    Brings (n + 4) s r (do
      let taken ← s.engine.takeIn s.disk Filter.inputName r.source
      let taken ← taken.1.takeIn taken.2 s.config.font font
      let _ ← Run.compiled s.config r.cues
      return taken) := by
  obtain ⟨source, cues, metrics, point⟩ := r
  cases h
  cases htaken : s.engine.takeIn s.disk Filter.inputName source with
  | ok taken =>
    obtain ⟨records, hanswer⟩ := answer_stage_of_ok htaken
    refine .step (q := .stage Filter.inputName source) rfl nofun ?_ ?_
    · rw [hanswer]
      exact fun _ => rfl
    · rw [hanswer]
      exact brings_stagingFont rfl
  | error f =>
    have hanswer := answer_stage_of_error htaken
    refine brings_error (q := .stage Filter.inputName source) rfl nofun ?_ ?_
    · rw [hanswer]
      rfl
    · rw [hanswer]
      rfl

theorem brings_readingFont (h : r.point = .readingFont) :
    Brings (n + 5) s r (s.ready r.source r.cues) := by
  obtain ⟨source, cues, metrics, point⟩ := r
  cases h
  have hreply : (s.answer .readFont).1 = replyOfBytes s.readFont := rfl
  unfold ready staged
  cases hfont : s.readFont with
  | ok font =>
    refine .step (q := .readFont) rfl nofun ?_ ?_
    · rw [hreply, hfont]
      exact fun _ => rfl
    · rw [hreply, hfont]
      show Brings _ _ _ ((s.engine.takeIn s.disk Filter.inputName source >>= fun taken =>
        taken.1.takeIn taken.2 s.config.font font) >>= _)
      rw [bind_assoc]
      exact brings_stagingSource rfl
  | error f =>
    refine brings_error (q := .readFont) rfl nofun ?_ ?_
    · rw [hreply, hfont]
      rfl
    · rw [hreply, hfont]
      rfl

theorem brings_queue (source : Bytes) (cues : List Cue) :
    Brings (n + 6) s (.queue source cues) (s.ready source cues) := by
  refine .step (q := .turn) rfl nofun (fun _ => rfl) ?_
  have htools : s.SameTools ((s.answer .turn).2.resume (.queue source cues) .done).2 :=
    ⟨rfl, rfl, rfl, rfl, rfl, rfl⟩
  rw [← htools.ready]
  exact brings_readingFont rfl

end Brings

/-- Where the engine is not to work, the render has failed. -/
theorem beginRun_queue (s : Studio) (source : Bytes) (cues : List Cue) :
    (∃ r s' engine disk, s.ready source cues = .ok (engine, disk) ∧
      s.beginRun (.queue source cues) = (r, some (s.asked cues), s') ∧
      r.point = .encoding (Filter.compile s.config.font s.config.box cues) ∧
      s'.engine = engine.ask (s.asked cues) ∧ s'.disk = disk ∧
      ∀ result, s'.session.orchestrator.concluded result =
        s.session.orchestrator.concluded result) ∨
    ∃ r s' f, s.ready source cues = .error f ∧ s.beginRun (.queue source cues) = (r, none, s') ∧
      s'.session.orchestrator = s.session.orchestrator.concluded (.error f) := by
  have hbrings : Brings maxRequests s (.queue source cues) (s.ready source cues) :=
    brings_queue (n := 2) source cues
  unfold Brings at hbrings
  unfold beginRun
  generalize settle maxRequests s (.queue source cues) = settled at hbrings ⊢
  obtain ⟨r, s'⟩ := settled
  cases hready : s.ready source cues with
  | ok taken =>
    rw [hready] at hbrings
    obtain ⟨hpoint, hengine, hdisk, hsame⟩ := hbrings
    have hasks : r.request s'.config = some (.encode (s.asked cues)) := by
      rw [Run.request, hpoint]
      rfl
    left
    exact ⟨r, { s' with engine := s'.engine.ask (s.asked cues) }, taken.1, taken.2, rfl,
      by simp only [hasks], hpoint, by rw [hengine], hdisk, hsame⟩
  | error f =>
    rw [hready] at hbrings
    obtain ⟨hover, hfailed⟩ := hbrings
    right
    refine ⟨r, s', f, rfl, ?_, hfailed⟩
    have hidle (arguments : List String) : r.request s'.config ≠ some (.encode arguments) := by
      intro hasks
      have hway := isUnderWay_of_encode hasks
      rw [hover] at hway
      cases hway
    -- `hidle` rules out that the engine is asked to work
    simp only

/-! ## From the engine's work on -/

/-- A line of the engine, and what it may tell of progress, leaves a render waiting for the
engine. -/
theorem hear_encoding {graph : Filter.Graph} (h : r.point = .encoding graph)
    (line : Encoder.Event) :
    (hear (r, s) line).1.point = .encoding graph ∧
      (hear (r, s) line).2.session = s.session ∧ (hear (r, s) line).2.engine = s.engine ∧
      (hear (r, s) line).2.disk = s.disk := by
  obtain ⟨source, cues, metrics, point⟩ := r
  subst h
  simp only [hear, resume, Run.resume, Run.hear]
  split
  · exact ⟨rfl, rfl, rfl, rfl⟩
  · exact ⟨rfl, rfl, rfl, rfl⟩

theorem foldl_hear_encoding {graph : Filter.Graph} (h : r.point = .encoding graph)
    (lines : List Encoder.Event) :
    (lines.foldl hear (r, s)).1.point = .encoding graph ∧
      (lines.foldl hear (r, s)).2.session = s.session ∧
      (lines.foldl hear (r, s)).2.engine = s.engine ∧
      (lines.foldl hear (r, s)).2.disk = s.disk := by
  induction lines generalizing r s with
  | nil => exact ⟨h, rfl, rfl, rfl⟩
  | cons line lines ih =>
    obtain ⟨hpoint, hsession, hengine, hdisk⟩ := hear_encoding (s := s) h line
    obtain ⟨hpoint', hsession', hengine', hdisk'⟩ := ih (s := (hear (r, s) line).2) hpoint
    exact ⟨hpoint', hsession'.trans hsession, hengine'.trans hengine, hdisk'.trans hdisk⟩

theorem settle_reading (n : Nat) (s : Studio) (h : r.point = .reading) :
    (settle (n + 1) s r).2.session.orchestrator =
      s.session.orchestrator.concluded
        ((s.engine.read s.disk Filter.outputName).mapError Run.outputFault) := by
  obtain ⟨source, cues, metrics, point⟩ := r
  subst h
  rw [settle_succ (q := .read Filter.outputName) rfl nofun]
  have hreply : (s.answer (.read Filter.outputName)).1 =
      replyOfBytes (s.engine.read s.disk Filter.outputName) := rfl
  rw [hreply]
  cases s.engine.read s.disk Filter.outputName with
  | ok data => exact (settle_concluded n _ rfl).2
  | error f => exact (settle_concluded n _ rfl).2

/-- What a render comes to when the engine has worked: what it then gives back. -/
def concluding (engine : Engine) (disk : Disk) : Except Fault Unit → Except Fault Bytes
  | .ok () => (engine.read disk Filter.outputName).mapError Run.outputFault
  | .error f => .error f

theorem settle_worked {graph : Filter.Graph} (h : r.point = .encoding graph) (s : Studio)
    (result : Except Fault Unit) :
    (settle maxRequests (s.resume r (replyOf result)).2
        (s.resume r (replyOf result)).1).2.session.orchestrator =
      s.session.orchestrator.concluded (concluding s.engine s.disk result) := by
  obtain ⟨source, cues, metrics, point⟩ := r
  subst h
  cases result with
  | ok => exact settle_reading 7 _ rfl
  | error f => exact (settle_concluded maxRequests _ rfl).2

theorem endRun_concluded {graph : Filter.Graph} (h : r.point = .encoding graph) (s : Studio)
    (arguments : List String) :
    (s.endRun r arguments).2.session.orchestrator =
      s.session.orchestrator.concluded
        (concluding (s.engine.work s.disk arguments).2.2.1 (s.engine.work s.disk arguments).2.2.2
          (s.engine.work s.disk arguments).2.1) := by
  unfold endRun
  obtain ⟨lines, result, engine, disk⟩ := s.engine.work s.disk arguments
  obtain ⟨hpoint, hsession, hengine, hdisk⟩ :=
    foldl_hear_encoding (s := { s with engine, disk }) h lines
  refine (settle_worked hpoint _ result).trans ?_
  rw [hsession, hengine, hdisk]

/-! ## A whole render -/

/-- What a render comes to: the output that the engine gives back, or the first fault on the way. -/
def made (s : Studio) (source : Bytes) (cues : List Cue) : Except Fault Bytes := do
  let taken ← s.ready source cues
  let worked := (taken.1.ask (s.asked cues)).work taken.2 (s.asked cues)
  concluding worked.2.2.1 worked.2.2.2 worked.2.1

/-- Everything is taken in and compiled, the engine works without a fault, and these are the bytes
that it gives back as the output. -/
inductive Yields (s : Studio) (source : Bytes) (cues : List Cue) (data : Bytes) : Prop
  | intro {engine worked : Engine} {disk left : Disk} {lines : List Encoder.Event}
      (ready : s.ready source cues = .ok (engine, disk))
      (work : (engine.ask (s.asked cues)).work disk (s.asked cues) = (lines, .ok (), worked, left))
      (output : worked.read left Filter.outputName = .ok data)

theorem yields_of_made {source data : Bytes} {cues : List Cue}
    (h : s.made source cues = .ok data) : s.Yields source cues data := by
  unfold made at h
  obtain ⟨⟨engine, disk⟩, hready, hworked⟩ := bind_eq_ok.mp h
  cases hwork : (engine.ask (s.asked cues)).work disk (s.asked cues) with
  | mk lines rest =>
    obtain ⟨result, worked, left⟩ := rest
    simp only [hwork] at hworked
    cases result with
    | error f => cases hworked
    | ok => exact .intro hready hwork (mapError_eq_ok.mp hworked)

theorem SameTools.made {s s' : Studio} (h : s.SameTools s') (source : Bytes) (cues : List Cue) :
    s'.made source cues = s.made source cues := by
  unfold Studio.made asked
  rw [h.ready, h.config]

theorem run_concluded (s : Studio) (source : Bytes) (cues : List Cue) :
    (s.run (.queue source cues)).2.session.orchestrator =
      s.session.orchestrator.concluded (s.made source cues) := by
  unfold Studio.run made
  rcases s.beginRun_queue source cues with
    ⟨r, s', engine, disk, hready, hbegun, hpoint, hengine, hdisk, hsame⟩ |
    ⟨r, s', f, hready, hbegun, hfailed⟩
  · rw [hbegun, hready]
    refine (endRun_concluded hpoint s' (s.asked cues)).trans ?_
    rw [hengine, hdisk, hsame]
    rfl
  · rw [hbegun, hready]
    exact hfailed

end TimedText.Studio
