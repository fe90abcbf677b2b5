import TimedText.Encoder.Run

/-!
# A run and the encoder at the two ends of a pipe

The encoder writes lines and ends when it likes to; the run looks, reads and asks at its own pace.
A `Pipe` is both of them with the lines in between. A `Move` is a step of one of the two, so that a
list of moves is one way in which they interleave.

The run has three ways to learn what the encoder does. It looks, which finds the pipe ready if a
line is waiting or the encoder has ended. It reads the oldest line, or the end of all lines. And
where it found nothing ready it polls, which tells whether the encoder has ended *by now*. What the
encoder wrote between the look and the poll is what this module is about: `Sound` is the invariant,
and by it a run that is over has told all lines that were written before its last look, and no
others.
-/

namespace TimedText.Encoder

/-- A line as the encoder writes it. It is never empty, since nothing is what is read at the end of
all lines. -/
abbrev Line := { text : String // text ≠ "" }

/-- A line as it is told. -/
def Event.ofLine (line : Line) : Event := ⟨"stderr", chomp line.val⟩

/-- What is told before any line. -/
def Event.announcement (c : Config) (arguments : List String) : Event :=
  ⟨"command", String.intercalate " " (command c arguments)⟩

/-- The last lines, as many as are kept. -/
def lastTexts (lines : List Line) : List String :=
  (lines.map Subtype.val).drop (lines.length - maxTail)

/-- How a run ends that has read these lines from an encoder that ended with this status. -/
def outcomeOf (lines : List Line) (code : Int) : Except Fault Unit :=
  if code = 0 then .ok ()
  else .error ⟨.encode, "ffmpeg exited with status " ++ toString code,
    String.join (lastTexts lines)⟩

theorem pushTail_lastTexts (lines : List Line) (line : Line) :
    pushTail (lastTexts lines) line.val = lastTexts (lines ++ [line]) := by
  unfold pushTail lastTexts
  generalize maxTail = kept
  simp only [List.map_append, List.map_cons, List.map_nil, List.length_drop, List.length_map,
    List.length_append, List.length_cons, List.length_nil]
  rw [← List.drop_append_of_le_length (by simp), List.drop_drop]
  congr 1
  omega

theorem Run.resume_line {r : Run} (reading : r.point = .reading) (line : Line) :
    r.resume (.line line.val) =
      { r with tail := pushTail r.tail line.val, point := .telling line.val } := by
  simp [resume, reading, line.property]

theorem Run.judge_eq {r : Run} {lines : List Line} (tail : r.tail = lastTexts lines) (code : Int) :
    r.judge code = outcomeOf lines code := by
  unfold judge diagnostic outcomeOf
  rw [tail]

theorem outcome?_eq_some {r : Run} {outcome : Except Fault Unit} :
    r.outcome? = some outcome ↔ r.point = .finished outcome := by
  unfold Run.outcome?
  split
  · next o ho => simp [ho]
  · next hpoint => exact ⟨fun none => (nomatch none), fun finished => absurd finished (hpoint _)⟩

/-! ## Both ends -/

/-- What has become of the encoder. -/
inductive Life where
  | unborn
  | alive
  /-- It ended by itself, and with it the pipe was closed. -/
  | ended (code : Int)
  deriving DecidableEq

/-- A run, the encoder, and the lines in between. -/
structure Pipe where
  run : Run
  encoder : Life := .unborn
  /-- All lines that the encoder has written. -/
  written : List Line := []
  /-- Those of them that nobody has read, the oldest first. -/
  waiting : List Line := []
  /-- What the run has told. Whoever is told returns. -/
  told : List Event := []
  /-- So many lines had been written when the run last looked. -/
  looked : Nat := 0

/-- A step of one of the two. -/
inductive Move where
  | write (line : Line)
  | finish (code : Int)
  /-- The run is answered. If it asks for the time, this is what the clock shows. -/
  | answer (now : Double)

namespace Pipe

/-- A run that has not begun. -/
def opened (c : Config) (arguments : List String) : Pipe where
  run := { config := c, arguments }

/-- The run takes a reply. -/
def resume (p : Pipe) (reply : Reply) : Pipe := { p with run := p.run.resume reply }

/-- Whether there is something to read, be it the end. -/
def isReady (p : Pipe) : Bool :=
  !p.waiting.isEmpty || match p.encoder with
    | .ended _ => true
    | _ => false

/-- The exit status, once there is one. -/
def status? (p : Pipe) : Option Int :=
  match p.encoder with
  | .ended code => some code
  | _ => none

/-- The run is answered. To read from an empty pipe and to wait for the encoder takes until it has
ended; before that there is no answer. -/
def answer (p : Pipe) (now : Double) : Pipe :=
  match p.run.request with
  | none => p
  | some (.emit event) => { p with told := p.told ++ [event] }.resume .done
  | some (.start _) => { p with encoder := .alive }.resume (.started true)
  | some .clock => p.resume (.time now)
  | some .select => { p with looked := p.written.length }.resume (.ready p.isReady)
  | some .readLine =>
    match p.waiting, p.encoder with
    | line :: waiting, _ => { p with waiting }.resume (.line line.val)
    | [], .ended _ => p.resume (.line "")
    | [], _ => p
  | some .poll => p.resume (.status p.status?)
  | some .kill => p.resume .done
  | some .wait =>
    match p.encoder with
    | .ended code => p.resume (.status (some code))
    | _ => p

/-- What happens next. What cannot happen does nothing. -/
def step (p : Pipe) : Move → Pipe
  | .write line =>
    if p.encoder = .alive then
      { p with written := p.written ++ [line], waiting := p.waiting ++ [line] }
    else p
  | .finish code => if p.encoder = .alive then { p with encoder := .ended code } else p
  | .answer now => p.answer now

/-- What happens one after another. -/
def after (p : Pipe) (ms : List Move) : Pipe := ms.foldl step p

@[simp] theorem after_nil (p : Pipe) : p.after [] = p := rfl

@[simp] theorem after_cons (p : Pipe) (m : Move) (ms : List Move) :
    p.after (m :: ms) = (p.step m).after ms := rfl

instance (point : Point) : Decidable (point = .checking) :=
  decidable_of_iff ((match point with | .checking => true | _ => false) = true) (by
    cases point <;> simp)

/-- The time limit is not passed with this move. -/
def Punctual (p : Pipe) : Move → Prop
  | .answer now => p.run.point = .checking → p.run.isLate now = false
  | _ => True

/-- The time limit is never passed. -/
def InTime : Pipe → List Move → Prop
  | _, [] => True
  | p, m :: ms => p.Punctual m ∧ (p.step m).InTime ms

instance (p : Pipe) : ∀ m, Decidable (p.Punctual m)
  | .answer now => inferInstanceAs (Decidable (p.run.point = .checking → p.run.isLate now = false))
  | .write _ | .finish _ => .isTrue trivial

instance InTime.decidable : ∀ (p : Pipe) (ms : List Move), Decidable (p.InTime ms)
  | _, [] => .isTrue trivial
  | p, m :: ms =>
    have := decidable (p.step m) ms
    inferInstanceAs (Decidable (p.Punctual m ∧ (p.step m).InTime ms))

/-! ## What has been read and what has been told -/

/-- What is told of a run that has been announced and has told these lines. -/
def toldOf (first : Event) (lines : List Line) : List Event := first :: lines.map .ofLine

/-- What is known of a run that stands at a point and has read these lines. Where the time limit is
not passed, the points at which the encoder is killed are not reached. -/
def Knows (p : Pipe) (first : Event) (read : List Line) : Point → Prop
  | .announcing =>
    p.encoder = .unborn ∧ read = [] ∧ p.told = [] ∧
      first = .announcement p.run.config p.run.arguments
  | .starting => p.encoder = .unborn ∧ p.told = toldOf first read
  | .timing readable => readable = true ∧ p.told = toldOf first read
  | .checking | .selecting => p.told = toldOf first read
  -- a look found the pipe ready: if no line is waiting now, none will ever be
  | .reading =>
    p.told = toldOf first read ∧ (p.waiting = [] → p.status?.isSome ∧ p.looked = read.length)
  | .telling text =>
    ∃ before line, read = before ++ [line] ∧ text = line.val ∧ p.told = toldOf first before
  -- a look found nothing ready: all that was written then had been read
  | .polling => p.told = toldOf first read ∧ p.looked = read.length
  | .waiting => p.told = toldOf first read ∧ p.looked = read.length ∧ p.status?.isSome
  | .finished outcome =>
    p.told = toldOf first read ∧ p.looked = read.length ∧
      ∃ code, p.encoder = .ended code ∧ outcome = outcomeOf read code
  | .stopping | .pollingAfter _ | .killingAfter _ | .waitingAfter _ => False

/-- No line is lost on the way: those that were read and those that are waiting are all that were
written, in order. -/
structure Sound (first : Event) (read : List Line) (p : Pipe) : Prop where
  written : p.written = read ++ p.waiting
  tail : p.run.tail = lastTexts read
  knows : p.Knows first read p.run.point

theorem sound_opened (c : Config) (arguments : List String) :
    Sound (.announcement c arguments) [] (opened c arguments) :=
  ⟨rfl, rfl, rfl, rfl, rfl, rfl⟩

section Sound

variable {p : Pipe} {first : Event} {read : List Line}

theorem Sound.write (h : p.Sound first read) (alive : p.encoder = .alive) (line : Line) :
    Sound first read { p with written := p.written ++ [line], waiting := p.waiting ++ [line] } := by
  obtain ⟨⟨config, arguments, tail, began, point⟩, encoder, written, waiting, told, looked⟩ := p
  obtain ⟨hwritten, htail, hknows⟩ := h
  refine ⟨by simp [show written = read ++ waiting from hwritten], htail, ?_⟩
  cases point with
  | reading => exact ⟨hknows.1, fun none => by simp at none⟩
  | _ => exact hknows

theorem Sound.finish (h : p.Sound first read) (alive : p.encoder = .alive) (code : Int) :
    Sound first read { p with encoder := .ended code } := by
  obtain ⟨⟨config, arguments, tail, began, point⟩, encoder, written, waiting, told, looked⟩ := p
  obtain ⟨hwritten, htail, hknows⟩ := h
  refine ⟨hwritten, htail, ?_⟩
  cases alive
  cases point with
  | announcing | starting => cases hknows.1
  | reading => exact ⟨hknows.1, fun none => ⟨rfl, (hknows.2 none).2⟩⟩
  | waiting => simp [Knows, status?] at hknows
  | finished outcome =>
    obtain ⟨-, -, code, hended, -⟩ := hknows
    cases hended
  | _ => exact hknows

/-- The next turn of the loop is taken where all that was read has been told. -/
theorem Sound.turn {r : Run} (written : p.written = read ++ p.waiting)
    (tail : r.tail = lastTexts read) (told : p.told = toldOf first read) :
    Sound first read { p with run := r.turn } := by
  refine ⟨written, tail, ?_⟩
  show Knows _ _ _ (if _ then _ else _)
  split
  · exact told
  · exact told

/-- Where the time limit is not passed, an answer lets the run go on soundly. One line more has been
read if the run was reading and a line was waiting. -/
theorem Sound.answer (h : p.Sound first read) {now : Double} (punctual : p.Punctual (.answer now)) :
    ∃ read', (p.answer now).Sound first read' := by
  obtain ⟨⟨config, arguments, tail, began, point⟩, encoder, written, waiting, told, looked⟩ := p
  obtain ⟨hwritten : written = read ++ waiting, htail : tail = lastTexts read, hknows⟩ := h
  cases point with
  | announcing =>
    obtain ⟨hunborn, rfl, rfl, rfl⟩ := hknows
    exact ⟨[], hwritten, htail, hunborn, rfl⟩
  | starting => exact ⟨read, hwritten, htail, rfl, hknows.2⟩
  | timing readable =>
    obtain ⟨rfl, htold⟩ := hknows
    exact ⟨read, .turn hwritten htail htold⟩
  | checking =>
    refine ⟨read, hwritten, htail, ?_⟩
    show Knows _ _ _ (if _ then _ else _)
    rw [if_neg (by rw [punctual rfl]; exact Bool.false_ne_true)]
    exact hknows
  | selecting =>
    have hlooked (none : waiting = []) : written.length = read.length := by
      rw [hwritten, none, List.append_nil]
    cases waiting with
    | cons line waiting => exact ⟨read, hwritten, htail, hknows, fun none => nomatch none⟩
    | nil =>
      cases encoder with
      | ended code => exact ⟨read, hwritten, htail, hknows, fun none => ⟨rfl, hlooked none⟩⟩
      | _ => exact ⟨read, hwritten, htail, hknows, hlooked rfl⟩
  | reading =>
    cases waiting with
    | cons line waiting =>
      have hresume := Run.resume_line (r := ⟨config, arguments, tail, began, .reading⟩) rfl line
      refine ⟨read ++ [line], ?_, ?_, ?_⟩
      · show written = read ++ [line] ++ waiting
        rw [hwritten, List.append_assoc, List.singleton_append]
      · show (Run.resume _ _).tail = _
        rw [hresume, ← pushTail_lastTexts, ← htail]
      · show Knows _ _ _ (Run.resume _ _).point
        rw [hresume]
        exact ⟨read, line, rfl, rfl, hknows.1⟩
    | nil =>
      obtain ⟨htold, hnone⟩ := hknows
      obtain ⟨hended, hlooked⟩ := hnone rfl
      cases encoder with
      | ended code => exact ⟨read, hwritten, htail, htold, hlooked, rfl⟩
      | _ => cases hended
  | telling text =>
    obtain ⟨before, line, rfl, rfl, htold⟩ := hknows
    refine ⟨before ++ [line], .turn hwritten htail ?_⟩
    show told ++ [Event.ofLine line] = _
    rw [show told = toldOf first before from htold]
    simp [toldOf]
  | polling =>
    obtain ⟨htold, hlooked⟩ := hknows
    cases encoder with
    | ended code => exact ⟨read, hwritten, htail, htold, hlooked, rfl⟩
    | _ => exact ⟨read, .turn hwritten htail htold⟩
  | waiting =>
    obtain ⟨htold, hlooked, hended⟩ := hknows
    cases encoder with
    | ended code =>
      exact ⟨read, hwritten, htail, htold, hlooked, code, rfl, Run.judge_eq htail code⟩
    | _ => cases hended
  | finished outcome => exact ⟨read, hwritten, htail, hknows⟩
  | _ => cases hknows

end Sound

end Pipe

end TimedText.Encoder
