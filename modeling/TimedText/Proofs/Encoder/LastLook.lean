import Mathlib.Data.List.Basic
import TimedText.Proofs.Encoder.Pipe

/-!
# Lines behind the last look

However a run and its encoder interleave, what the run tells and what it keeps for a diagnosis are
the lines that were written before its last look, each once and in order. A line is lost exactly if
it was written behind that look: the run found nothing, the encoder wrote its last lines and ended,
and the run, polling, took the end for the end of all lines.

Main statement: `told_up_to_last_look`, with `last_words_are_lost` for a run that loses the one line
which says why the encoder failed.
-/

namespace TimedText.Encoder.Pipe

variable {p : Pipe} {first : Event} {read : List Line}

/-! ## Runs -/

theorem Sound.step (h : p.Sound first read) {m : Move} (punctual : p.Punctual m) :
    ∃ read', (p.step m).Sound first read' := by
  cases m with
  | write line =>
    simp only [Pipe.step]
    split
    · next alive => exact ⟨read, h.write alive line⟩
    · exact ⟨read, h⟩
  | finish code =>
    simp only [Pipe.step]
    split
    · next alive => exact ⟨read, h.finish alive code⟩
    · exact ⟨read, h⟩
  | answer now => exact h.answer punctual

theorem Sound.after (h : p.Sound first read) {ms : List Move} (inTime : p.InTime ms) :
    ∃ read', (p.after ms).Sound first read' := by
  induction ms generalizing p read with
  | nil => exact ⟨read, h⟩
  | cons m ms ih =>
    obtain ⟨read', h'⟩ := h.step inTime.1
    exact ih h' inTime.2

/-! ## The end of a run -/

/-- Once the encoder has ended and so many lines are waiting, no more answers than these bring a run
from a point to its end. -/
def answersFrom (waiting : Nat) : Point → Nat
  | .finished _ => 0
  | .waiting => 1
  | .polling => 2
  | .reading => 4 * waiting + 2
  | .selecting => 4 * waiting + 3
  | .checking => 4 * waiting + 4
  | _ => 4 * waiting + 5

/-- The answers that are still needed. -/
def remaining (p : Pipe) : Nat := answersFrom p.waiting.length p.run.point

theorem remaining_le (p : Pipe) : p.remaining ≤ 4 * p.waiting.length + 5 := by
  unfold remaining answersFrom
  split <;> omega

theorem answersFrom_turn (waiting : Nat) (r : Run) :
    answersFrom waiting r.turn.point ≤ 4 * waiting + 4 := by
  show answersFrom waiting (if _ then _ else _) ≤ _
  split
  · exact Nat.le_refl _
  · exact Nat.le_succ _

theorem Sound.answer_ended (h : p.Sound first read) {code : Int} (ended : p.encoder = .ended code)
    {now : Double} (punctual : p.Punctual (.answer now)) :
    (p.answer now).encoder = .ended code ∧ (p.answer now).remaining ≤ p.remaining - 1 := by
  obtain ⟨⟨config, arguments, tail, began, point⟩, encoder, written, waiting, told, looked⟩ := p
  obtain ⟨-, -, hknows⟩ := h
  cases ended
  cases point with
  | announcing | starting => cases hknows.1
  | timing readable =>
    obtain ⟨rfl, -⟩ := hknows
    exact ⟨rfl, answersFrom_turn _ _⟩
  | checking =>
    refine ⟨rfl, ?_⟩
    show answersFrom _ (if Run.isLate _ now = true then _ else _) ≤ _
    rw [if_neg (by rw [punctual rfl]; exact Bool.false_ne_true)]
    exact Nat.le_refl _
  | selecting => cases waiting <;> exact ⟨rfl, Nat.le_refl _⟩
  | reading =>
    cases waiting with
    | nil => exact ⟨rfl, Nat.le_refl _⟩
    | cons line waiting =>
      refine ⟨rfl, ?_⟩
      show answersFrom waiting.length (Run.resume _ (.line line.val)).point ≤ _
      rw [Run.resume_line rfl line]
      show 4 * waiting.length + 5 ≤ 4 * (waiting.length + 1) + 2 - 1
      omega
  | telling text => exact ⟨rfl, answersFrom_turn _ _⟩
  | polling => exact ⟨rfl, Nat.le_refl _⟩
  | waiting => exact ⟨rfl, Nat.le_refl _⟩
  | finished outcome => exact ⟨rfl, Nat.le_refl _⟩
  | _ => cases hknows

/-- How often the run is answered. -/
def answers (ms : List Move) : Nat :=
  ms.countP fun
    | .answer _ => true
    | _ => false

theorem Sound.ends (h : p.Sound first read) {code : Int} (ended : p.encoder = .ended code)
    {ms : List Move} (inTime : p.InTime ms) (enough : p.remaining ≤ answers ms) :
    ∃ outcome, (p.after ms).run.point = .finished outcome := by
  induction ms generalizing p read with
  | nil =>
    unfold remaining answersFrom at enough
    split at enough
    · next outcome hpoint => exact ⟨outcome, hpoint⟩
    all_goals simp [answers] at enough
  | cons m ms ih =>
    -- an encoder that has ended does nothing more
    have stays (same : p.step m = p) (none : answers (m :: ms) = answers ms) :
        ∃ outcome, (p.after (m :: ms)).run.point = .finished outcome := by
      have hrest := inTime.2
      rw [same] at hrest
      rw [after_cons, same]
      exact ih h ended hrest (none ▸ enough)
    have hover : p.encoder ≠ .alive := by
      rw [ended]
      exact Life.noConfusion
    cases m with
    | write line => exact stays (if_neg hover) rfl
    | finish status => exact stays (if_neg hover) rfl
    | answer now =>
      obtain ⟨read', h'⟩ := h.answer inTime.1
      obtain ⟨hended, hless⟩ := h.answer_ended ended inTime.1
      apply ih h' hended inTime.2
      have hcount : answers (.answer now :: ms) = answers ms + 1 := List.countP_cons_of_pos rfl
      show (p.answer now).remaining ≤ answers ms
      omega

/-! ## The law -/

/-- How a run interleaves with its encoder, where the encoder ends by itself, the time limit is not
passed and whoever is told returns. A run that is over has told the lines that were written before
its last look, each once and in order, the outcome is that of the encoder's status, and the
diagnosis consists of the last of these lines. So it has told all lines exactly if none was written
behind that look. And the run does end: once the encoder has, four answers for each line that is
waiting and five more are enough. -/
theorem told_up_to_last_look (c : Config) (arguments : List String) (ms : List Move)
    (inTime : (opened c arguments).InTime ms) :
    let p := (opened c arguments).after ms
    let before := p.written.take p.looked
    (∀ outcome, p.run.outcome? = some outcome →
      p.told = .announcement c arguments :: before.map .ofLine ∧
        (p.told = .announcement c arguments :: p.written.map .ofLine ↔
          p.looked = p.written.length) ∧
        ∃ code, p.encoder = .ended code ∧
          outcome =
            if code = 0 then .ok ()
            else .error ⟨.encode, "ffmpeg exited with status " ++ toString code,
              String.join ((before.map Subtype.val).drop (before.length - 200))⟩) ∧
      ∀ code, p.encoder = .ended code → ∀ ns, p.InTime ns →
        4 * p.waiting.length + 5 ≤ answers ns → ((p.after ns).run.outcome?).isSome := by
  intro p before
  obtain ⟨read, hsound⟩ := (sound_opened c arguments).after inTime
  constructor
  · intro outcome houtcome
    have hknows : p.Knows _ read p.run.point := hsound.knows
    rw [outcome?_eq_some.mp houtcome] at hknows
    obtain ⟨htold, hlooked, code, hended, hjudged⟩ := hknows
    -- what was read is what had been written at the last look
    have hread : before = read := by
      show p.written.take p.looked = read
      rw [show p.written = read ++ p.waiting from hsound.written, hlooked, List.take_left]
    rw [hread]
    refine ⟨htold, ?_, code, hended, hjudged⟩
    constructor
    · intro hall
      have hlengths := congrArg List.length (htold.symm.trans hall)
      simp only [toldOf, List.length_cons, List.length_map] at hlengths
      omega
    · intro hall
      rw [htold, ← hread, show before = p.written from List.take_of_length_le (by omega)]
      rfl
  · intro code hended ns hns henough
    obtain ⟨outcome, hpoint⟩ := hsound.ends hended hns (Nat.le_trans p.remaining_le henough)
    exact Option.isSome_of_eq_some (outcome?_eq_some.mpr hpoint)

/-- A run with a time limit that hears two lines of three. -/
theorem third_line_is_behind_last_look :
    let c : Config := { binary := "ffmpeg", timeout := some (.whole 5) }
    let ms : List Move :=
      [.answer .zero, .answer .zero, .answer .zero, .write ⟨"frame=1\n", by decide⟩,
        .write ⟨"frame=2\n", by decide⟩, .answer (.ofNat 1), .answer .zero, .answer .zero,
        .answer .zero, .answer (.ofNat 4), .answer .zero, .answer .zero, .answer .zero,
        .answer (.ofNat 5), .answer .zero, .write ⟨"Conversion failed!\n", by decide⟩, .finish 1,
        .answer .zero, .answer .zero]
    let p := (opened c ["-i", "input.mp4"]).after ms
    (opened c ["-i", "input.mp4"]).InTime ms ∧ p.looked = 2 ∧ p.written.length = 3 ∧
      p.run.outcome? =
        some (.error ⟨.encode, "ffmpeg exited with status 1", "frame=1\nframe=2\n"⟩) ∧
      p.told =
        [.announcement c ["-i", "input.mp4"], ⟨"stderr", "frame=1"⟩, ⟨"stderr", "frame=2"⟩] := by
  intro c ms p
  have inTime : (opened c ["-i", "input.mp4"]).InTime ms := by decide +kernel
  have ended : p.run.outcome? =
      some (.error ⟨.encode, "ffmpeg exited with status 1", "frame=1\nframe=2\n"⟩) := by
    decide +kernel
  have looked : p.looked = 2 := by decide +kernel
  have written : p.written =
      [⟨"frame=1\n", by decide⟩, ⟨"frame=2\n", by decide⟩, ⟨"Conversion failed!\n", by decide⟩] := by
    decide +kernel
  obtain ⟨hover, -⟩ := told_up_to_last_look c ["-i", "input.mp4"] ms inTime
  obtain ⟨htold, -⟩ := hover _ ended
  refine ⟨inTime, looked, by rw [written]; rfl, ended, htold.trans ?_⟩
  decide +kernel

/-- The encoder writes why it fails and ends, right after the run has found nothing to read. Nobody
is told, and the diagnosis is empty. -/
theorem last_words_are_lost :
    let line : Line := ⟨"Invalid filter\n", by decide⟩
    let ms : List Move :=
      [.answer .zero, .answer .zero, .answer .zero, .answer .zero, .write line, .finish 1,
        .answer .zero, .answer .zero]
    let start := opened { binary := "ffmpeg" } ["-i", "input.mp4", "output.mp4"]
    let p := start.after ms
    start.InTime ms ∧ p.encoder = .ended 1 ∧ p.written = [line] ∧
      p.told = [⟨"command", "ffmpeg -y -hide_banner -i input.mp4 output.mp4"⟩] ∧
      Event.ofLine line ∉ p.told ∧
      p.run.outcome? = some (.error ⟨.encode, "ffmpeg exited with status 1", ""⟩) ∧
      outcomeOf p.written 1 =
        .error ⟨.encode, "ffmpeg exited with status 1", "Invalid filter\n"⟩ := by
  intro line ms start p
  refine ⟨?_, rfl, rfl, ?_, ?_, ?_, ?_⟩
  all_goals decide +kernel

end TimedText.Encoder.Pipe
