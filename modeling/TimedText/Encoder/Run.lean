import TimedText.Number
import TimedText.Fault

/-!
# One run of the encoder

The encoder is a process that writes status lines until it ends. A `Run` starts it, passes on each
line, watches a time limit, and sees to it that the process has ended before the run is over.

A run never acts by itself: `request` says what it wants from outside next, and `resume` takes the
reply. Whatever replies come in, the process is waited for on every way out, and the outcome depends
on the replies alone.
-/

namespace TimedText.Encoder

/-- What a run is given. -/
structure Config where
  binary : String
  /-- The time limit in seconds. Zero is none. -/
  timeout : Option Number := none
  deriving DecidableEq

/-- A log event of a run. -/
structure Event where
  kind : String
  message : String
  deriving DecidableEq, Repr

/-- What a run wants from outside. -/
inductive Request where
  | emit (event : Event)
  | start (command : List String)
  | clock
  | select
  | readLine
  | poll
  | kill
  | wait
  deriving DecidableEq, Repr

/-- What comes back from outside. -/
inductive Reply where
  | done
  | fault (f : Fault)
  /-- The process runs; whether its status lines can be read. -/
  | started (readable : Bool)
  | time (now : Double)
  | ready (isReady : Bool)
  /-- A line with its end, or nothing at the end of all lines. -/
  | line (text : String)
  /-- The exit status of a process that has ended. -/
  | status (code : Option Int)
  deriving DecidableEq

/-- Where a run stands: what it waits for. -/
inductive Point where
  | announcing
  | starting
  | timing (readable : Bool)
  | checking
  | stopping
  | selecting
  | reading
  | telling (line : String)
  | polling
  | waiting
  | pollingAfter (f : Fault)
  | killingAfter (f : Fault)
  | waitingAfter (f : Fault)
  | finished (outcome : Except Fault Unit)

/-- A run: what it was given, the lines it keeps for a diagnosis, when it began, where it
stands. -/
structure Run where
  config : Config
  arguments : List String
  tail : List String := []
  began : Double := .zero
  point : Point := .announcing

/-- So many lines are kept for a diagnosis. -/
def maxTail : Nat := 200

/-- The command line of a run. -/
def command (config : Config) (arguments : List String) : List String :=
  [config.binary, "-y", "-hide_banner"] ++ arguments

/-- The limit that is watched, if any. -/
def Config.limit? (c : Config) : Option Number :=
  match c.timeout with
  | none => none
  | some t => if t.isZero then none else some t

/-- The last lines, one more among them. -/
def pushTail (tail : List String) (line : String) : List String :=
  (tail ++ [line]).drop (tail.length + 1 - maxTail)

/-- A line without the ends of line behind it. -/
def chomp (line : String) : String :=
  String.ofList ((line.toList.reverse.dropWhile (· = '\n')).reverse)

namespace Run

/-- What the run wants next; nothing once it is over. -/
def request (r : Run) : Option Request :=
  match r.point with
  | .announcing => some (.emit ⟨"command", String.intercalate " " (command r.config r.arguments)⟩)
  | .starting => some (.start (command r.config r.arguments))
  | .timing _ => some .clock
  | .checking => some .clock
  | .stopping => some .kill
  | .selecting => some .select
  | .reading => some .readLine
  | .telling line => some (.emit ⟨"stderr", chomp line⟩)
  | .polling => some .poll
  | .waiting => some .wait
  | .pollingAfter _ => some .poll
  | .killingAfter _ => some .kill
  | .waitingAfter _ => some .wait
  | .finished _ => none

/-- The kept lines in one text. -/
def diagnostic (r : Run) : String := String.join r.tail

/-- The run at another point. -/
def goto (r : Run) (p : Point) : Run := { r with point := p }

/-- The next turn of the loop: the time is looked at only if there is a limit. -/
def turn (r : Run) : Run := r.goto (if r.config.limit?.isSome then .checking else .selecting)

/-- A fault while the process may still be running. Faults of an encoding stay what they are; all
others mean that contact was lost. -/
def lose (r : Run) (f : Fault) : Run :=
  let f :=
    if f.kind = .encode then f
    else ⟨.encode, "Lost contact with ffmpeg: " ++ f.message, r.diagnostic⟩
  r.goto (.pollingAfter f)

/-- The fault of a run that took too long. -/
def lateFault (r : Run) : Fault :=
  ⟨.encode, "FFmpeg process timed out after " ++ ((r.config.limit?).elim "" Number.text) ++ "s",
    r.diagnostic⟩

/-- The outcome of a process that has ended by itself. -/
def judge (r : Run) (code : Int) : Except Fault Unit :=
  if code = 0 then .ok ()
  else .error ⟨.encode, "ffmpeg exited with status " ++ toString code, r.diagnostic⟩

/-- Whether the time is past the limit. -/
def isLate (r : Run) (now : Double) : Bool :=
  match r.config.limit? with
  | none => false
  | some limit => limit.quantity.lt (now - r.began).quantity

/-- The run after a reply. Replies to something else leave it where it is. -/
def resume (r : Run) (reply : Reply) : Run :=
  match r.point, reply with
  | .announcing, .done => r.goto .starting
  | .announcing, .fault f => r.goto (.finished (.error f))
  | .starting, .started readable => r.goto (.timing readable)
  | .starting, .fault f =>
    r.goto (.finished (.error
      (if f.kind.isSystem then
        ⟨.encode, "Could not start " ++ r.config.binary ++ ": " ++ f.message, ""⟩
      else f)))
  | .timing readable, .time now =>
    let r := { r with began := now }
    if readable then r.turn else r.goto .waiting
  | .checking, .time now => r.goto (if r.isLate now then .stopping else .selecting)
  | .stopping, .done => r.lose r.lateFault
  | .selecting, .ready true => r.goto .reading
  | .selecting, .ready false => r.goto .polling
  | .selecting, .fault f => r.lose f
  | .reading, .line text =>
    if text = "" then r.goto .waiting
    else { r with tail := pushTail r.tail text, point := .telling text }
  | .reading, .fault f => r.lose f
  | .telling _, .done => r.turn
  | .telling _, .fault f => r.lose f
  | .polling, .status (some _) => r.goto .waiting
  | .polling, .status none => r.turn
  | .waiting, .status (some code) => r.goto (.finished (r.judge code))
  | .pollingAfter f, .status none => r.goto (.killingAfter f)
  | .pollingAfter f, .status (some _) => r.goto (.waitingAfter f)
  | .killingAfter f, .done => r.goto (.waitingAfter f)
  | .waitingAfter f, .status _ => r.goto (.finished (.error f))
  | _, _ => r

/-- How the run went, once it is over. -/
def outcome? (r : Run) : Option (Except Fault Unit) :=
  match r.point with
  | .finished o => some o
  | _ => none

end Run

end TimedText.Encoder
