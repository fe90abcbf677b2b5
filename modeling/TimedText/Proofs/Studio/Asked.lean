import TimedText.Proofs.Disk.Contents
import TimedText.Proofs.Render.Arguments
import TimedText.Proofs.Studio.Output

/-!
# What a studio asks its encoder for

If the font can be read, both files can be staged and the expression of the cues can be written, a
render comes to the point at which the encoder should work, and what it is asked for is that
expression. The encoder is started once in a render, and nothing else in a render starts it.
-/

namespace TimedText

/-- Two files can be staged one after another where each could be staged alone. -/
theorem Workspace.Usable.stage_twice {w : Workspace} {d : Disk} {home : Path} {a b : String}
    (h : w.Usable d home) (isNameA : IsName a) (isNameB : IsName b) (cleanA : '\x00' ∉ a.toList)
    (cleanB : '\x00' ∉ b.toList) (suitsA : w.Suits (w.ready d) home (a : Disk.Name))
    (suitsB : w.Suits (w.ready d) home (b : Disk.Name)) (dataA dataB : Bytes) :
    (w.stage d a dataA).1 = .ok () ∧ (w.stage (w.stage d a dataA).2 b dataB).1 = .ok () := by
  have of_answer {x : Except Error Unit} (hx : x.map (fun _ => (none : Option Bytes)) = .ok none) :
      x = .ok () := by
    cases x with
    | error e => cases hx
    | ok => rfl
  have hfileA := Name.file?_ofText cleanA
  have hfileB := Name.file?_ofText cleanB
  have suits : ∀ c ∈ [Call.stage a dataA, .stage b dataB], c.Suits w (w.ready d) home := by
    intro c hc
    rcases List.mem_cons.mp hc with rfl | hc
    · exact fun _ file hfile => Option.some.inj (hfileA.symm.trans hfile) ▸ suitsA
    · cases List.mem_singleton.mp hc
      exact fun _ file hfile => Option.some.inj (hfileB.symm.trans hfile) ▸ suitsB
  obtain ⟨hanswers, -⟩ := h.calls _ suits
  simp only [Contents.calls, Contents.call_stage isNameA hfileA, Contents.call_stage isNameB hfileB,
    Workspace.calls, Workspace.call, List.cons.injEq, and_true] at hanswers
  exact ⟨of_answer hanswers.1, of_answer hanswers.2⟩

namespace Studio

open Render (Run Request)

variable {s s' : Studio} {x : External} {r r' : Run} {source font : Bytes}

/-! ## The encoder stays the same -/

theorem engine_answer (h : s.engine = .external x) (q : Request) :
    (s.answer q).2.engine = .external x := by
  cases q with
  | stage name data =>
    show (s.engine.stage s.disk name data).2.1 = _
    rw [h]
    exact (stage_external x s.disk name data).1
  | _ => exact h

theorem stable_engine (x : External) : Stable fun s => s.engine = .external x where
  answer h _ := engine_answer h _
  resume _ _ h := h

/-- Working does not change what the encoder was asked for. -/
theorem engine_endRun (h : s.engine = .external x) (r : Run) (arguments : List String) :
    (s.endRun r arguments).2.engine = .external x := by
  refine (stable_engine x).endRun ?_ r
  rw [h]
  rfl

theorem settle_of_beginRun (h : s.beginRun r = (r', none, s')) :
    settle maxRequests s r = (r', s') := by
  unfold beginRun at h
  simp only at h
  split at h
  · cases h
  · cases h
    rfl

/-! ## Up to the encoder -/

theorem takeIn_external (x : External) (d : Disk) (name : String) (data : Bytes) :
    (Engine.external x).takeIn d name data =
      match x.workspace.stage d name data with
      | (.ok (), d) => .ok (.external x, d)
      | (.error e, _) => .error (stagingFault e) := by
  cases hstage : x.workspace.stage d name data with
  | mk result disk =>
    simp only [Engine.takeIn, Engine.stage, hstage]
    cases result <;> rfl

theorem takeIn_of_ok {d : Disk} {name : String} {data : Bytes}
    (h : (x.workspace.stage d name data).1 = .ok ()) :
    (Engine.external x).takeIn d name data =
      .ok (.external x, (x.workspace.stage d name data).2) := by
  rw [takeIn_external]
  split
  · next hstage => rw [hstage]
  · next hstage =>
    rw [hstage] at h
    cases h

theorem engine_of_takeIn {engine : Engine} {d disk : Disk} {name : String} {data : Bytes}
    (h : (Engine.external x).takeIn d name data = .ok (engine, disk)) : engine = .external x := by
  rw [takeIn_external] at h
  split at h <;> cases h
  rfl

theorem engine_of_staged (h : s.engine = .external x) {engine : Engine} {disk : Disk}
    (staged : s.staged source = .ok (engine, disk)) : engine = .external x := by
  unfold Studio.staged at staged
  obtain ⟨font, -, hfiles⟩ := bind_eq_ok.mp staged
  obtain ⟨⟨first, d⟩, hfirst, hsecond⟩ := bind_eq_ok.mp hfiles
  rw [h] at hfirst
  cases engine_of_takeIn hfirst
  exact engine_of_takeIn hsecond

/-! ## A whole render -/

/-- The encoder when it has been started once more. -/
def External.started (x : External) (arguments : List String) : External :=
  { x with runs := x.runs ++ [Encoder.command x.config arguments] }

/-- A render starts the encoder once, for what its cues compile to, unless a file is not taken in or
the cues are not compiled. -/
theorem engine_run (h : s.engine = .external x) (source : Bytes) (cues : List Cue) :
    (s.run (.queue source cues)).2.engine = .external x ∧ (∃ f, s.ready source cues = .error f) ∨
      (s.run (.queue source cues)).2.engine = .external (x.started (s.asked cues)) ∧
        ∃ taken, s.ready source cues = .ok taken := by
  unfold Studio.run
  rcases s.beginRun_queue source cues with
    ⟨r, s', engine, disk, hready, hbegun, -, hengine, -⟩ | ⟨r, s', f, hready, hbegun, -⟩
  · right
    rw [hbegun]
    refine ⟨engine_endRun ?_ r (s.asked cues), _, hready⟩
    rw [hengine, engine_of_staged h (ready_eq_ok_iff.mp hready).1]
    rfl
  · left
    have hsettled := (stable_engine x).settle h maxRequests (.queue source cues)
    rw [settle_of_beginRun hbegun] at hsettled
    rw [hbegun]
    exact ⟨hsettled, f, hready⟩

/-- The encoder is not started for cues whose expression cannot be written. -/
theorem engine_run_of_not_written (h : s.engine = .external x) {cues : List Cue}
    (notWritten : ¬ Filter.IsWritten s.config.box cues) (source : Bytes) :
    (s.run (.queue source cues)).2.engine = .external x := by
  rcases engine_run h source cues with ⟨hsame, -⟩ | ⟨-, taken, hready⟩
  · exact hsame
  · exact absurd (ready_eq_ok_iff.mp hready).2 notWritten

/-- If the font can be read, both files can be staged and the expression can be written, the encoder
is started. -/
theorem engine_run_of_staged (h : s.engine = .external x) {home : Path}
    (usable : x.workspace.Usable s.disk home) (readable : s.readFont = .ok font)
    (isName : Workspace.IsName s.config.font) (clean : '\x00' ∉ s.config.font.toList)
    (input : x.workspace.Suits (x.workspace.ready s.disk) home (Filter.inputName : Disk.Name))
    (fits : x.workspace.Suits (x.workspace.ready s.disk) home (s.config.font : Disk.Name))
    {cues : List Cue}
    (written : Filter.IsWritten s.config.box cues) (source : Bytes) :
    (s.run (.queue source cues)).2.engine = .external (x.started (s.asked cues)) := by
  obtain ⟨hsource, hfont⟩ := usable.stage_twice (by decide) isName (by decide) clean input fits
    source font
  have hstaged : s.staged source = .ok (.external x, (x.workspace.stage
      (x.workspace.stage s.disk Filter.inputName source).2 s.config.font font).2) := by
    unfold staged
    rw [readable, h]
    show (Engine.external x).takeIn s.disk Filter.inputName source >>= _ = _
    rw [takeIn_of_ok hsource]
    exact takeIn_of_ok hfont
  rcases engine_run h source cues with ⟨-, f, hfault⟩ | ⟨hstarted, -⟩
  · rw [ready_eq_ok_iff.mpr ⟨hstaged, written⟩] at hfault
    cases hfault
  · exact hstarted

end Studio

end TimedText
