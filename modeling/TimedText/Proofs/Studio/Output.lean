import TimedText.Proofs.Disk.Directory
import TimedText.Proofs.Studio.Settle

/-!
# Which output a render exposes

The encoder's directory outlives a render. A render reads the output of its directory when the
encoder has ended well, whoever wrote it: the encoder in this render, or, if it wrote none, an
encoder in an earlier one. So behind any number of renders a render is done exactly if its encoder
ends well and some encoder has written an output by then, and it exposes what was written last.
-/

namespace TimedText.Studio

open Render (State Orchestrator Artifact Point Run Request Reply)

variable {s s' : Studio} {w : Workspace} {home : Path} {r : Run} {q : Request}

/-- Where the output is when the encoder's directory is at `home`. -/
def outputPlace (home : Path) : Path := home ++ [(Filter.outputName : Disk.Name)]

/-- Renders of the studio work in a directory of the disk, in which neither the font nor the rows of
metrics are taken for an output. -/
structure WorksIn (s : Studio) (w : Workspace) (home : Path) : Prop where
  engine : ∃ x, s.engine = .external x ∧ x.workspace = w
  directory : w.IsAt s.disk home
  fits : ¬ Disk.maxPathBytes < Disk.textBytes (w.directory ++ [(Filter.outputName : Disk.Name)])
  font : s.config.font ≠ Filter.outputName
  metrics : s.metrics.Avoids (outputPlace home)

/-! ## What the requests of a render leave alone -/

/-- The engine is where it was, and so is the output. -/
structure Passes (s s' : Studio) (home : Path) : Prop where
  engine : s'.engine = s.engine
  config : s'.config = s.config
  metrics : s'.metrics = s.metrics
  disk : s.disk.Leaves s'.disk (outputPlace home)

theorem Passes.refl (s : Studio) (home : Path) : s.Passes s home := ⟨rfl, rfl, rfl, .refl _ _⟩

theorem Passes.trans {s'' : Studio} (h : s.Passes s' home) (h' : s'.Passes s'' home) :
    s.Passes s'' home :=
  ⟨h'.engine.trans h.engine, h'.config.trans h.config, h'.metrics.trans h.metrics,
    h.disk.trans h'.disk⟩

theorem WorksIn.passes (h : s.WorksIn w home) (p : s.Passes s' home) : s'.WorksIn w home where
  engine := p.engine ▸ h.engine
  directory := h.directory.grows p.disk.grows
  fits := h.fits
  font := p.config ▸ h.font
  metrics := p.metrics ▸ h.metrics

/-- A render stages no file under the name of the output. -/
theorem name_of_stage (h : s.WorksIn w home) {name : String} {data : Bytes}
    (asks : r.request s.config = some (.stage name data)) : name ≠ Filter.outputName := by
  obtain ⟨source, cues, metrics, point⟩ := r
  cases point <;> cases asks
  · decide
  · exact h.font

theorem stage_external (x : External) (d : Disk) (name : String) (data : Bytes) :
    ((Engine.external x).stage d name data).2.1 = .external x ∧
      ((Engine.external x).stage d name data).2.2.1 = (x.workspace.stage d name data).2 := by
  simp only [Engine.stage]
  split <;> next h => rw [h]; exact ⟨rfl, rfl⟩

theorem WorksIn.answer (h : s.WorksIn w home) (asks : r.request s.config = some q) :
    s.Passes (s.answer q).2 home := by
  cases q with
  | stage name data =>
    obtain ⟨x, hengine, rfl⟩ := h.engine
    have hname := mt Workspace.Name.eq_of_file?_ofText (name_of_stage h asks)
    have hleaves := h.directory.leaves_stage hname data
    obtain ⟨hstays, hdisk⟩ := stage_external x s.disk name data
    rw [← hdisk] at hleaves
    refine ⟨?_, rfl, rfl, ?_⟩
    · show (s.engine.stage s.disk name data).2.1 = s.engine
      rw [hengine, hstays]
    · show s.disk.Leaves (s.engine.stage s.disk name data).2.2.1 _
      rw [hengine]
      exact hleaves
  | record m => exact ⟨rfl, rfl, rfl, h.metrics.leaves s.disk (m.line? s.stamp)⟩
  | _ => exact ⟨rfl, rfl, rfl, .refl _ _⟩

theorem passes_resume (s : Studio) (r : Run) (reply : Reply) (home : Path) :
    s.Passes (s.resume r reply).2 home := ⟨rfl, rfl, rfl, .refl _ _⟩

/-- The steps of a render leave the engine and the output where they were. -/
theorem WorksIn.stable (h : s.WorksIn w home) : Stable fun s' => s.Passes s' home where
  answer passed asks := passed.trans ((h.passes passed).answer asks)
  resume r reply passed := passed.trans (passes_resume _ r reply home)

/-- Up to the work of the engine the output stays as it is. -/
theorem WorksIn.beginRun (h : s.WorksIn w home) (r : Run) :
    (s.beginRun r).2.2.WorksIn w home ∧
      (s.beginRun r).2.2.disk.held (outputPlace home) = s.disk.held (outputPlace home) := by
  have hsettle := h.stable.settle (.refl s home) maxRequests r
  have hworks := h.passes hsettle
  unfold Studio.beginRun
  simp only
  split
  · next arguments _ =>
    obtain ⟨x, hengine, hworkspace⟩ := hworks.engine
    refine ⟨{ hworks with engine := ?_ }, hsettle.disk.held⟩
    refine ⟨{ x with runs := x.runs ++ [Encoder.command x.config arguments] }, ?_, hworkspace⟩
    simp only [hengine, Engine.ask]
  · exact ⟨hworks, hsettle.disk.held⟩

/-! ## What the encoder does in a render -/

/-- What the encoder does in a render: what it writes last as the output, if it does, and the fault
it ends with; none if it ends well. -/
structure Effort where
  written : Option Bytes
  fault : Option Fault
  deriving DecidableEq

/-- The fault that something ended with. -/
def faultOf : Except Fault Unit → Option Fault
  | .ok () => none
  | .error f => some f

/-- The effort that a render takes of the encoder; none if it is not asked to work. -/
def effort (s : Studio) (home : Path) (r : Run) : Option Effort :=
  match s.beginRun r with
  | (_, some arguments, s) =>
    match s.engine with
    | .external x =>
      let result := Encoder.runScript x.config arguments x.script
      some
        { written := x.workspace.lastWrite s.disk (outputPlace home) result.process.written
          fault := faultOf result.outcome }
    | .memory _ => none
  | _ => none

/-- The output that is there behind a render, by what was there before. -/
def Effort.leave (before : Option Bytes) : Option Effort → Option Bytes
  | some e => e.written.or before
  | none => before

/-- The output that a render exposes, by what was there before. -/
def Effort.exposed (before : Option Bytes) : Option Effort → Option Bytes
  | some ⟨written, none⟩ => written.or before
  | _ => none

/-- A render has ended, and exposes this output if there is one. -/
structure Exposes (o : Orchestrator) (output : Option Bytes) : Prop where
  state : o.state = if output.isSome then .done else .failed
  artifact : o.artifact = output.map fun data => { data }

theorem outputPlace_ne_nil (home : Path) : outputPlace home ≠ [] := by simp [outputPlace]

/-- The engine gives the output back that is there. -/
theorem WorksIn.concluding (h : s.WorksIn w home) (o : Orchestrator) :
    Exposes (o.concluded (Studio.concluding s.engine s.disk (.ok ())))
      (s.disk.held (outputPlace home)) := by
  obtain ⟨x, hengine, rfl⟩ := h.engine
  have isName : Workspace.IsName Filter.outputName := by decide +kernel
  have hfile := Workspace.Name.file?_ofText (s := Filter.outputName) (by decide)
  have hread := h.directory.read isName hfile (by decide +kernel) h.fits
  unfold Studio.concluding
  rw [hengine]
  simp only [Engine.read, hread]
  unfold outputPlace
  cases s.disk.held (home ++ [(Filter.outputName : Disk.Name)]) with
  | none => exact ⟨rfl, rfl⟩
  | some data => exact ⟨rfl, rfl⟩

/-- The studio right behind the work of an encoder that has written these files. -/
def worked (s : Studio) (x : External) (files : List (String × Bytes)) : Studio :=
  { s with engine := .external x, disk := x.workspace.produceAll s.disk files }

theorem WorksIn.worked {x : External} (h : s.WorksIn x.workspace home)
    (files : List (String × Bytes)) : (s.worked x files).WorksIn x.workspace home :=
  { h with
    engine := ⟨x, rfl, rfl⟩
    directory := h.directory.grows (x.workspace.grows_produceAll _ _) }

/-- Behind the work of the encoder the output stays as it is. -/
theorem WorksIn.passes_endRun {x : External} (h : s.WorksIn x.workspace home)
    (engine : s.engine = .external x) (arguments : List String) :
    let result := Encoder.runScript x.config arguments x.script
    (s.worked x result.process.written).Passes (s.endRun r arguments).2 home := by
  intro result
  refine (h.worked result.process.written).stable.endRun ?_ r
  rw [engine]
  exact .refl _ home

/-- From the work of the encoder on: what it writes is added, and what is there then is exposed if
it ends well. -/
theorem WorksIn.endRun {x : External} (h : s.WorksIn w home) (engine : s.engine = .external x)
    {graph : Filter.Graph} (waits : r.point = .encoding graph) (arguments : List String) :
    let result := Encoder.runScript x.config arguments x.script
    let effort : Effort :=
      { written := x.workspace.lastWrite s.disk (outputPlace home) result.process.written
        fault := faultOf result.outcome }
    let after := (s.endRun r arguments).2
    after.WorksIn w home ∧
      after.disk.held (outputPlace home) =
        Effort.leave (s.disk.held (outputPlace home)) (some effort) ∧
      Exposes after.session.orchestrator
        (Effort.exposed (s.disk.held (outputPlace home)) (some effort)) := by
  intro result effort after
  obtain ⟨x', hengine, rfl⟩ := h.engine
  cases engine.symm.trans hengine
  have hworked := h.worked result.process.written
  have hafter := h.passes_endRun (r := r) engine arguments
  have hheld : (s.worked x result.process.written).disk.held (outputPlace home) =
      effort.written.or (s.disk.held (outputPlace home)) :=
    x.workspace.held_produceAll _ _ _ (outputPlace_ne_nil home)
  have hconcluded : after.session.orchestrator = s.session.orchestrator.concluded
      (Studio.concluding (.external x) (s.worked x result.process.written).disk
        result.outcome) := by
    have := endRun_concluded waits s arguments
    rwa [engine] at this
  refine ⟨hworked.passes hafter, hafter.disk.held.trans hheld, ?_⟩
  rw [hconcluded]
  show Exposes _ (Effort.exposed _ (some ⟨effort.written, faultOf result.outcome⟩))
  cases result.outcome with
  | error f => exact ⟨rfl, rfl⟩
  | ok =>
    show Exposes _ (effort.written.or _)
    rw [← hheld]
    exact hworked.concluding _

/-- A render leaves the output that its encoder wrote, or else the one that was there; and that is
what it exposes, if its encoder was asked to work and ended well. -/
theorem WorksIn.run (h : s.WorksIn w home) (source : Bytes) (cues : List Cue) :
    let after := (s.run (.queue source cues)).2
    let effort := s.effort home (.queue source cues)
    after.WorksIn w home ∧
      after.disk.held (outputPlace home) =
        Effort.leave (s.disk.held (outputPlace home)) effort ∧
      Exposes after.session.orchestrator
        (Effort.exposed (s.disk.held (outputPlace home)) effort) := by
  obtain ⟨hworks, hheld⟩ := h.beginRun (.queue source cues)
  unfold Studio.run effort
  rcases s.beginRun_queue source cues with
    ⟨r, s', engine, disk, -, hbegun, hpoint, -⟩ | ⟨r, s', f, -, hbegun, hfailed⟩
  · rw [hbegun] at hworks hheld ⊢
    simp only at hworks hheld ⊢
    obtain ⟨x, hengine, -⟩ := hworks.engine
    have hend := hworks.endRun hengine hpoint (s.asked cues)
    rw [hheld] at hend
    simp only [hengine]
    exact hend
  · rw [hbegun] at hworks hheld ⊢
    exact ⟨hworks, hheld, by rw [hfailed]; rfl, by rw [hfailed]; rfl⟩

/-! ## Renders one after another -/

/-- One render: what the encoder is going to do, and what is to be rendered. -/
structure Take where
  script : Encoder.Script
  source : Bytes
  cues : List Cue
  total : Double := .zero

/-- The studio behind a render whose end is waited for. -/
def take (s : Studio) (t : Take) : Studio :=
  ({ s with engine := s.engine.equip (.script t.script) }.renderNow (some t.source) t.cues t.total).2

/-- The studio behind renders one after another. -/
def takes (s : Studio) (ts : List Take) : Studio := ts.foldl take s

/-- The studio in which a render has been accepted. -/
def accepting (s : Studio) (t : Take) : Studio :=
  { s with
    session := { s.session with orchestrator := { state := .staging, total := t.total } }
    engine := s.engine.equip (.script t.script)
    deferred := false
    notices := s.notices ++ [.state .staging]
    records := s.records ++ (s.session.orchestrator.enter .staging).2 }

/-- What the encoder does in the next render. -/
def effortOf (s : Studio) (home : Path) (t : Take) : Option Effort :=
  (s.accepting t).effort home (.queue t.source t.cues)

/-- What the encoder does in each of the renders. -/
def efforts (home : Path) : Studio → List Take → List (Option Effort)
  | _, [] => []
  | s, t :: ts => s.effortOf home t :: efforts home (s.take t) ts

/-- The output that is there behind renders one after another, by what was there before them. -/
def latest (before : Option Bytes) (es : List (Option Effort)) : Option Bytes :=
  es.foldl Effort.leave before

theorem take_eq (free : s.session.orchestrator.isInFlight = false) (t : Take) :
    s.take t = { ((s.accepting t).run (.queue t.source t.cues)).2 with deferred := s.deferred } := by
  have hstart : s.session.start (some t.source) t.cues t.total =
      .accepted ⟨{ s.session with orchestrator := { state := .staging, total := t.total } },
        (s.session.orchestrator.enter .staging).2, some .staging,
        .submit (.queue t.source t.cues)⟩ := by
    simp [Session.start, Orchestrator.start, Orchestrator.enter, free]
  unfold take renderNow
  simp only [hstart, beginRender, change, complete, tell, log, Bool.false_eq_true, if_false,
    accepting]
  split <;> rfl

theorem WorksIn.take (h : s.WorksIn w home) (free : s.session.orchestrator.isInFlight = false)
    (t : Take) :
    (s.take t).WorksIn w home ∧ (s.take t).session.orchestrator.isInFlight = false ∧
      (s.take t).disk.held (outputPlace home) =
        Effort.leave (s.disk.held (outputPlace home)) (s.effortOf home t) ∧
      Exposes (s.take t).session.orchestrator
        (Effort.exposed (s.disk.held (outputPlace home)) (s.effortOf home t)) := by
  have haccepting : (s.accepting t).WorksIn w home := by
    obtain ⟨x, hengine, hworkspace⟩ := h.engine
    have hequipped : (s.accepting t).engine = .external { x with script := t.script } := by
      rw [accepting, hengine]
      rfl
    exact { h with engine := ⟨_, hequipped, hworkspace⟩ }
  have hrun := haccepting.run t.source t.cues
  rw [take_eq free, effortOf]
  generalize ((s.accepting t).run (.queue t.source t.cues)).2 = after at hrun ⊢
  obtain ⟨hworks, hheld, hexposes⟩ := hrun
  refine ⟨{ hworks with }, ?_, hheld, hexposes.state, hexposes.artifact⟩
  show after.session.orchestrator.state.isInFlight = false
  rw [hexposes.state]
  split <;> rfl

theorem WorksIn.takes (h : s.WorksIn w home) (free : s.session.orchestrator.isInFlight = false)
    (ts : List Take) :
    (s.takes ts).WorksIn w home ∧ (s.takes ts).session.orchestrator.isInFlight = false ∧
      (s.takes ts).disk.held (outputPlace home) =
        latest (s.disk.held (outputPlace home)) (efforts home s ts) := by
  induction ts generalizing s with
  | nil => exact ⟨h, free, rfl⟩
  | cons t ts ih =>
    obtain ⟨hworks, hfree, hheld, -⟩ := h.take free t
    obtain ⟨hworks', hfree', hheld'⟩ := ih hworks hfree
    exact ⟨hworks', hfree', by rw [efforts, latest, List.foldl_cons, ← hheld]; exact hheld'⟩

theorem exposed_eq_some {before : Option Bytes} {effort : Option Effort} {data : Bytes} :
    Effort.exposed before effort = some data ↔
      ∃ e, effort = some e ∧ e.fault = none ∧ e.written.or before = some data := by
  cases effort with
  | none => simp [Effort.exposed]
  | some e =>
    obtain ⟨written, fault⟩ := e
    cases fault with
    | some f => simp [Effort.exposed]
    | none => simp [Effort.exposed]

theorem Exposes.done_iff {o : Orchestrator} {output : Option Bytes} (h : Exposes o output)
    (data : Bytes) : o.state = .done ∧ o.artifact = some { data } ↔ output = some data := by
  obtain ⟨hstate, hartifact⟩ := h
  rw [hstate, hartifact]
  cases output <;> simp

/-- Behind any renders, the next one is done exactly if its encoder ends well and some encoder has
written an output by then; it exposes what was written last. So a render whose encoder ends well and
writes no output fails only if nothing was left before it. -/
theorem render_exposes_last_output (h : s.WorksIn w home)
    (free : s.session.orchestrator.isInFlight = false) (ts : List Take) (t : Take) :
    let left := latest (s.disk.held (outputPlace home)) (efforts home s ts)
    let effort := (s.takes ts).effortOf home t
    let o := ((s.takes ts).take t).session.orchestrator
    (∀ data, o.state = .done ∧ o.artifact = some { data } ↔
        ∃ e, effort = some e ∧ e.fault = none ∧ e.written.or left = some data) ∧
      (o.state = .done ∨ o.state = .failed ∧ o.artifact = none) ∧
      ∀ e, effort = some e → e.fault = none → e.written = none →
        (o.state = .failed ↔ left = none) := by
  obtain ⟨hworks, hfree, hheld⟩ := h.takes free ts
  obtain ⟨-, -, -, hexposes⟩ := hworks.take hfree t
  intro left effort o
  rw [hheld] at hexposes
  refine ⟨?_, ?_, ?_⟩
  · intro data
    exact (hexposes.done_iff data).trans exposed_eq_some
  · obtain ⟨hstate, hartifact⟩ := hexposes
    cases houtput : Effort.exposed left effort with
    | some data => exact .inl (by rw [hstate, houtput]; rfl)
    | none => exact .inr ⟨by rw [hstate, houtput]; rfl, by rw [hartifact, houtput]; rfl⟩
  · rintro ⟨written, fault⟩ heffort rfl rfl
    have hexposed : Effort.exposed left effort = left := by rw [heffort]; rfl
    rw [hexposes.state, hexposed]
    cases left <;> simp

/-- A studio with one directory, in which nothing has been rendered. -/
def fresh : Studio where
  session := { clock := { offset := .zero } }
  engine := .external
    { config := { binary := "ffmpeg" }, workspace := { directory := ["work"], label := "work" } }
  config := { font := "Studio.ttf" }
  font := "/Studio.ttf"
  disk := ⟨[(["work"], .directory), (["Studio.ttf"], .file [7])]⟩
  metrics := { enabled := some false }

/-- The encoder writes an output. -/
def Take.productive : Take where
  script := { writes := [("output.mp4", [1])] }
  source := [9]
  cues := []

/-- The encoder ends well and writes nothing. -/
def Take.idle : Take where
  script := {}
  source := [9]
  cues := []

theorem idle_render_exposes_what_was_left :
    fresh.WorksIn { directory := ["work"], label := "work" } ["work"] ∧
      fresh.session.orchestrator.isInFlight = false ∧
      latest (fresh.disk.held (outputPlace ["work"])) (efforts ["work"] fresh [.productive]) =
        some [1] ∧
      (fresh.takes [.productive]).effortOf ["work"] .idle = some ⟨none, none⟩ ∧
      ((fresh.takes [.productive]).take .idle).session.orchestrator.state = .done ∧
      ((fresh.takes [.productive]).take .idle).session.orchestrator.artifact =
        some { data := [1] } := by
  have works : fresh.WorksIn { directory := ["work"], label := "work" } ["work"] :=
    { engine := ⟨_, rfl, rfl⟩
      directory := by decide +kernel
      fits := by decide +kernel
      font := by decide
      metrics := nofun }
  have left : latest (fresh.disk.held (outputPlace ["work"]))
      (efforts ["work"] fresh [.productive]) = some [1] := by decide +kernel
  have effort : (fresh.takes [.productive]).effortOf ["work"] .idle = some ⟨none, none⟩ := by
    decide +kernel
  obtain ⟨hexposes, -, -⟩ := render_exposes_last_output works rfl [.productive] .idle
  refine ⟨works, rfl, left, effort, ?_⟩
  exact (hexposes [1]).mpr ⟨_, effort, rfl, left⟩

/-- Not every render that is done exposes an output of its own encoder, and not every one whose
encoder ends well and writes none fails. -/
theorem idle_render_behind_productive_one_is_done :
    (fresh.takes [.productive]).effortOf ["work"] .idle = some ⟨none, none⟩ ∧
      ((fresh.takes [.productive]).take .idle).session.orchestrator.state = .done ∧
      ((fresh.takes [.productive]).take .idle).session.orchestrator.artifact =
        some { data := [1] } := by
  decide +kernel

end TimedText.Studio
