import TimedText.Encoder.Run
import TimedText.Disk.Basic

/-!
# Scripted processes

A script says beforehand what a process does: when it writes which line, when it ends and how, and
which files it leaves. A `Process` is a script under way; it answers the requests of a run. When the
script has no more events the process ends.
-/

namespace TimedText.Encoder

/-- What happens when the run looks at its process once: time passes, then looking fails, the
process ends, or a line is there. -/
structure Script.Step where
  elapsed : Double := .zero
  fail : Option String := none
  exits : Bool := false
  line : Option String := none
  deriving DecidableEq

/-- What a process does. -/
structure Script where
  startError : Option String := none
  steps : List Script.Step := []
  returnCode : Int := 0
  writes : List (String × Bytes) := []
  readable : Bool := true
  deriving DecidableEq

/-- A process that follows a script. -/
structure Process where
  script : Script
  now : Double := .zero
  status : Option Int := none
  /-- The line that is ready to be read. -/
  line : String := ""
  /-- The files that the process has written. -/
  written : List (String × Bytes) := []
  kills : Nat := 0
  waits : Nat := 0
  deriving DecidableEq

namespace Process

/-- The process comes to its end, if it has not yet. -/
def finish (p : Process) : Process :=
  match p.status with
  | some _ => p
  | none => { p with status := some p.script.returnCode, written := p.script.writes }

/-- The run looks whether there is something to read. -/
def look (p : Process) : Reply × Process :=
  match p.script.steps with
  | [] => (.ready true, { p.finish with line := "" })
  | step :: steps =>
    let p := { p with script := { p.script with steps }, now := p.now + step.elapsed }
    match step.fail with
    | some text => (.fault ⟨.os, text, ""⟩, p)
    | none =>
      let p := if step.exits then p.finish else p
      match step.line with
      | some line => (.ready true, { p with line })
      | none => (.ready false, p)

/-- The answer of a process to a request; events are taken note of elsewhere. -/
def answer (p : Process) : Request → Reply × Process
  | .emit _ => (.done, p)
  | .start _ =>
    match p.script.startError with
    | some text => (.fault ⟨.os, text, ""⟩, p)
    | none => (.started p.script.readable, p)
  | .clock => (.time p.now, p)
  | .select => p.look
  | .readLine => (.line p.line, p)
  | .poll => (.status p.status, p)
  | .kill => (.done, { p with status := some (-9), kills := p.kills + 1 })
  | .wait =>
    let p := p.finish
    (.status p.status, { p with waits := p.waits + 1 })

end Process

/-- A run together with its process, after so many requests at most. The events come in the order
in which they were emitted. -/
def drive : Nat → Run → Process → List Event → Run × Process × List Event
  | 0, r, p, events => (r, p, events)
  | n + 1, r, p, events =>
    match r.request with
    | none => (r, p, events)
    | some request =>
      let events := match request with
        | .emit e => e :: events
        | _ => events
      let (reply, p) := p.answer request
      drive n (r.resume reply) p events

/-- What is left of a run that is over. -/
structure Result where
  outcome : Except Fault Unit
  events : List Event
  process : Process

/-- Runs a script to its end. A turn of the loop takes one step of the script and at most five
requests, and no more than ten come before and after. -/
def runScript (config : Config) (arguments : List String) (script : Script) : Result :=
  let (r, p, events) :=
    drive (5 * (script.steps.length + 1) + 10) { config, arguments } { script } []
  ⟨r.outcome?.getD (.error ⟨.runtime, "still running", ""⟩), events.reverse, p⟩

end TimedText.Encoder
