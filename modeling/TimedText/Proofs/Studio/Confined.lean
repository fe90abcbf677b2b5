import TimedText.Proofs.Disk.Outside
import TimedText.Proofs.Studio.Settle

/-!
# A render stays in the directory of its engine

An engine in memory touches no file. The encoder writes below its directory, as long as its process
does (`Engine.StaysIn`). So a render changes no file outside but the file of rows, whatever becomes
of it: each of its steps keeps the studio confined to the directory, and so does the whole of it
(`Confined.run`).
-/

namespace TimedText

/-! ## What a process writes -/

namespace Encoder

variable {writes : List (String × Bytes)}

/-- A process writes nothing but what its script says. -/
structure Process.Follows (p : Process) (writes : List (String × Bytes)) : Prop where
  script : p.script.writes = writes
  written : ∀ file ∈ p.written, file ∈ writes

namespace Process

variable {p : Process}

theorem Follows.finish (h : p.Follows writes) : p.finish.Follows writes := by
  unfold Process.finish
  split
  · exact h
  · exact ⟨h.script, fun file hfile => h.script ▸ hfile⟩

theorem Follows.look (h : p.Follows writes) : p.look.2.Follows writes := by
  unfold Process.look
  split
  · exact ⟨h.finish.script, h.finish.written⟩
  · next step steps _ =>
    have hlater : ({ p with
        script := { p.script with steps }, now := p.now + step.elapsed } : Process).Follows
          writes := ⟨h.script, h.written⟩
    simp only
    split
    · exact hlater
    · cases step.exits with
      | false => split <;> exact ⟨h.script, h.written⟩
      | true => split <;> exact ⟨hlater.finish.script, hlater.finish.written⟩

theorem Follows.answer (h : p.Follows writes) (q : Request) : (p.answer q).2.Follows writes := by
  cases q with
  | start command =>
    simp only [Process.answer]
    split <;> exact h
  | select => exact h.look
  | kill => exact ⟨h.script, h.written⟩
  | wait => exact ⟨h.finish.script, h.finish.written⟩
  | _ => exact h

end Process

theorem follows_drive {p : Process} (h : p.Follows writes) (n : Nat) (r : Run)
    (events : List Event) : (drive n r p events).2.1.Follows writes := by
  induction n generalizing r p events with
  | zero => exact h
  | succ n ih =>
    rw [drive]
    split
    · exact h
    · next q _ => exact ih (h.answer q) _ _

/-- What a process has written in a run stands in its script. -/
theorem mem_writes_of_written {config : Config} {arguments : List String} {script : Script}
    {file : String × Bytes} (h : file ∈ (runScript config arguments script).process.written) :
    file ∈ script.writes := by
  have hfollows : ({ script } : Process).Follows script.writes := ⟨rfl, nofun⟩
  unfold runScript at h
  exact (follows_drive hfollows _ _ _).written file h

end Encoder

namespace Studio

open Disk (SameOutside)
open Render (Run Request Reply)

variable {dir : Path} {e : Engine} {x : External}

/-! ## Engines -/

/-- The encoder works in this directory, and everything its process writes is below it. -/
structure External.StaysIn (x : External) (dir : Path) : Prop where
  directory : x.workspace.directory = dir
  plain : Disk.Name.dots ∉ dir
  writes : ∀ file ∈ x.script.writes,
    dir <+: PathText.join dir file.1 ∧ Disk.Name.dots ∉ PathText.join dir file.1

namespace Engine

/-- An engine in memory stays anywhere; the encoder in its directory. -/
def StaysIn (e : Engine) (dir : Path) : Prop := ∀ x, e = .external x → x.StaysIn dir

theorem staysIn_memory (m : Memory) (dir : Path) : (Engine.memory m).StaysIn dir := by
  rintro x ⟨⟩

theorem StaysIn.stage (h : e.StaysIn dir) (rows : Option Path) (d : Disk) (name : String)
    (data : Bytes) :
    (e.stage d name data).2.1.StaysIn dir ∧ SameOutside dir rows d (e.stage d name data).2.2.1 := by
  cases e with
  | memory m =>
    unfold Engine.stage
    simp only
    split <;> exact ⟨staysIn_memory _ dir, .refl dir rows d⟩
  | external x =>
    have hx := h x rfl
    have hstaged := Workspace.sameOutside_stage (hx.directory ▸ hx.plain) rows d name data
    rw [hx.directory] at hstaged
    unfold Engine.stage
    simp only
    split <;> next hresult => rw [hresult] at hstaged; exact ⟨h, hstaged⟩

theorem StaysIn.ask (h : e.StaysIn dir) (arguments : List String) :
    (e.ask arguments).StaysIn dir := by
  cases e with
  | memory m => exact staysIn_memory _ dir
  | external x =>
    have hx := h x rfl
    rintro _ ⟨⟩
    exact ⟨hx.directory, hx.plain, hx.writes⟩

theorem StaysIn.work (h : e.StaysIn dir) (rows : Option Path) (d : Disk) (arguments : List String) :
    (e.work d arguments).2.2.1.StaysIn dir ∧ SameOutside dir rows d (e.work d arguments).2.2.2 := by
  cases e with
  | memory m =>
    unfold Engine.work
    simp only
    split <;> exact ⟨staysIn_memory _ dir, .refl dir rows d⟩
  | external x =>
    have hx := h x rfl
    refine ⟨h, ?_⟩
    have hinside : ∀ file ∈ (Encoder.runScript x.config arguments x.script).process.written,
        x.workspace.directory <+: PathText.join x.workspace.directory file.1 ∧
          Disk.Name.dots ∉ PathText.join x.workspace.directory file.1 := fun file hfile =>
      hx.directory ▸ hx.writes file (Encoder.mem_writes_of_written hfile)
    have hmade := Workspace.sameOutside_produceAll hinside rows d
    rw [hx.directory] at hmade
    exact hmade

theorem StaysIn.close (h : e.StaysIn dir) (d : Disk) {o : Path} (outside : ¬ dir <+: o) :
    (e.close d).held o = d.held o := by
  cases e with
  | memory m => rfl
  | external x => exact x.workspace.same_close d ((h x rfl).directory.symm ▸ outside)

end Engine

/-! ## Steps of a render -/

/-- The engine of the studio stays in a directory, rows of metrics go to this file, if to any, and
outside of the directory the files are those of an earlier disk, but for the file of rows. -/
structure Confined (s : Studio) (dir : Path) (rows : Option Path) (before : Disk) : Prop where
  engine : s.engine.StaysIn dir
  metrics : s.metrics.rowFile = rows
  disk : SameOutside dir rows before s.disk

namespace Confined

variable {s : Studio} {rows : Option Path} {before : Disk} {r : Run}

theorem tell (h : s.Confined dir rows before) (n : Notice) : (s.tell n).Confined dir rows before :=
  ⟨h.engine, h.metrics, h.disk⟩

theorem answer (h : s.Confined dir rows before) (q : Request) :
    (s.answer q).2.Confined dir rows before := by
  cases q with
  | stage name data =>
    obtain ⟨hengine, hdisk⟩ := h.engine.stage rows s.disk name data
    exact ⟨hengine, h.metrics, h.disk.trans hdisk⟩
  | record m =>
    have hrow := s.metrics.sameOutside_write dir s.disk (m.line? s.stamp)
    rw [h.metrics] at hrow
    exact ⟨h.engine, h.metrics, h.disk.trans hrow⟩
  | tellState state => exact h.tell (.state state)
  | tellProgress percent => exact h.tell (.progress percent)
  | tellFailure message => exact h.tell (.failure message)
  | _ => exact h

theorem resume (h : s.Confined dir rows before) (r : Run) (reply : Reply) :
    (s.resume r reply).2.Confined dir rows before := ⟨h.engine, h.metrics, h.disk⟩

theorem stable (dir : Path) (rows : Option Path) (before : Disk) :
    Stable (Confined · dir rows before) where
  answer h _ := h.answer _
  resume r reply h := h.resume r reply

theorem beginRun (h : s.Confined dir rows before) (r : Run) :
    (s.beginRun r).2.2.Confined dir rows before := by
  have hsettled := (stable dir rows before).settle h maxRequests r
  unfold Studio.beginRun
  simp only
  split
  · next arguments _ => exact ⟨hsettled.engine.ask arguments, hsettled.metrics, hsettled.disk⟩
  · exact hsettled

theorem endRun (h : s.Confined dir rows before) (r : Run) (arguments : List String) :
    (s.endRun r arguments).2.Confined dir rows before := by
  obtain ⟨hengine, hdisk⟩ := h.engine.work rows s.disk arguments
  exact (stable dir rows before).endRun ⟨hengine, h.metrics, h.disk.trans hdisk⟩ r

/-- A whole render changes no file outside the directory but the file of rows. -/
theorem run (h : s.Confined dir rows before) (r : Run) : (s.run r).2.Confined dir rows before := by
  have hbegun := h.beginRun r
  unfold Studio.run
  split
  · next heq => rw [heq] at hbegun; exact hbegun
  · next r' arguments s' heq =>
    rw [heq] at hbegun
    exact hbegun.endRun r' arguments

end Confined

end Studio

end TimedText
