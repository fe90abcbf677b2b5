import Mathlib.Algebra.Order.Floor.Semiring
import Mathlib.Data.Rat.Floor
import TimedText.Proofs.Encoder.Ending
import TimedText.Proofs.Double.Nearest

/-!
# The time limit

A process that writes its lines and ends at given times, and a run that looks at it. The run looks
at the clock where a turn of its loop begins, and no turn takes longer than a slice, so that a
process whose lines go on is killed at most a slice behind the limit. Once the lines have come to
their end the clock is not looked at again: the run waits for the process, and nothing bounds how
long.

Main statement: `limit_holds_while_lines_go_on`, with `closed_lines_outlast_limit` for a process
that closes its lines and hangs.
-/

namespace TimedText.Encoder

/-- So many seconds a look for something to read takes at most. -/
def slice : ℚ := 1 / 10

theorem slice_pos : 0 < slice := by
  unfold slice
  norm_num

/-- What a process does, in seconds behind its start: when a line can be read, when there are no
more of them, and when and how the process ends if it is left alone. -/
structure Schedule where
  lines : List (ℚ × Line)
  closes : ℚ
  ends : ℚ
  code : Int
  opened : 0 ≤ closes
  within : ∀ line ∈ lines, line.1 ≤ closes
  closes_le_ends : closes ≤ ends

/-- A clock that never goes back: what it shows so many seconds behind the start. -/
structure Stopwatch where
  shows : ℚ → Double
  finite : ∀ t, (shows t).isFinite = true
  mono : ∀ {t u}, t ≤ u → shows t ≤ shows u

/-- Behind so many seconds a look at the clock finds the limit passed. -/
def Config.Late (c : Config) (k : Stopwatch) (t : ℚ) : Prop :=
  c.isLate (k.shows 0) (k.shows t) = true

/-- A time that is not more than a slice behind any that is past the limit. -/
def Config.Soon (c : Config) (k : Stopwatch) (t : ℚ) : Prop :=
  ∀ u, 0 ≤ u → c.Late k u → t ≤ u + slice

section Late

variable {c : Config} {k : Stopwatch} {t u : ℚ}

theorem Config.Late.mono (h : c.Late k t) (le : t ≤ u) : c.Late k u := by
  unfold Late isLate at h ⊢
  split at h
  · cases h
  · have hdiff := Double.sub_le_sub (k.mono le) (k.finite t) (k.finite u) (k.finite 0)
    exact Quantity.lt_of_lt_of_le h hdiff

/-- A slice behind a time that is not late it is still soon. -/
theorem Config.soon_of_not_late (h : ¬ c.Late k t) (le : u ≤ t + slice) : c.Soon k u := by
  intro v _ late
  have hv : t ≤ v := le_of_not_ge fun hvt => h (late.mono hvt)
  linarith

theorem Config.soon_zero : c.Soon k 0 := fun u nonneg _ => by linarith [slice_pos]

end Late

/-! ## The run and the process -/

/-- A run and the process that it watches. -/
structure Watched where
  run : Run
  /-- So many seconds have passed since the process was started. -/
  now : ℚ := 0
  /-- The lines that are still to be read. -/
  unread : List (ℚ × Line)
  /-- When the process was killed. -/
  killed : Option ℚ := none

namespace Watched

variable (s : Schedule) (k : Stopwatch)

/-- A run that has not begun. -/
def opened (c : Config) (arguments : List String) : Watched where
  run := .opened c arguments
  unread := s.lines

/-- The run takes a reply. -/
def resume (w : Watched) (reply : Reply) : Watched := { w with run := w.run.resume reply }

/-- When there is something to read, be it the end. -/
def next (w : Watched) : ℚ :=
  match w.unread with
  | [] => s.closes
  | (t, _) :: _ => t

/-- When the process is gone. -/
def gone (w : Watched) : ℚ :=
  match w.killed with
  | none => s.ends
  | some t => min t s.ends

/-- The status that the process leaves. -/
def status (w : Watched) : Int :=
  match w.killed with
  | none => s.code
  | some t => if t < s.ends then -9 else s.code

/-- The run is answered. To look takes until there is something to read, but no longer than a slice;
to read and to wait take as long as they have to; nothing else takes any time. -/
def answer (w : Watched) : Watched :=
  match w.run.request with
  | none => w
  | some (.emit _) => w.resume .done
  | some (.start _) => w.resume (.started true)
  | some .clock => w.resume (.time (k.shows w.now))
  | some .select =>
    if w.next s ≤ w.now + slice then
      { w with now := max w.now (w.next s) }.resume (.ready true)
    else { w with now := w.now + slice }.resume (.ready false)
  | some .readLine =>
    let text := match w.unread with
      | [] => ""
      | (_, line) :: _ => line.val
    { w with now := max w.now (w.next s), unread := w.unread.tail }.resume (.line text)
  | some .poll => w.resume (.status (if w.gone s ≤ w.now then some (w.status s) else none))
  | some .kill => { w with killed := some w.now }.resume .done
  | some .wait => { w with now := max w.now (w.gone s) }.resume (.status (some (w.status s)))

/-- The run is answered so many times. -/
def after (w : Watched) : Nat → Watched
  | 0 => w
  | n + 1 => (w.answer s k).after n

/-! ## What is known on the way -/

section Sound

variable (c : Config)

/-- The run has begun and has left the process alone so far. -/
structure Calm (began : Double) (now : ℚ) (killed : Option ℚ) : Prop where
  began : began = k.shows 0
  alive : killed = none
  soon : c.Soon k now
  unclosed : now ≤ s.closes

/-- The process was killed just now, a look at the clock having found the limit passed. -/
structure Stopped (now : ℚ) (killed : Option ℚ) : Prop where
  killed : killed = some now
  soon : c.Soon k now
  late : c.Late k now
  unclosed : now ≤ s.closes

/-- How a run is over that has read these lines: it waited for a process whose lines had come to
their end, or it killed the process. -/
inductive Over (read : List (ℚ × Line)) (w : Watched) : Except Fault Unit → Prop
  | waited (all : read = s.lines) (alive : w.killed = none) (now : w.now = s.ends)
      (soon : c.Soon k s.closes) : Over read w (outcomeOf (s.lines.map (·.2)) s.code)
  | stopped (stopped : Stopped s k c w.now w.killed) :
    Over read w (.error (c.lateFault (read.map (·.2))))

/-- What is known of a run that stands at a point and has read these lines. -/
def Knows (w : Watched) (read : List (ℚ × Line)) : Point → Prop
  | .announcing | .starting => w.now = 0 ∧ w.killed = none
  | .timing readable => readable = true ∧ w.now = 0 ∧ w.killed = none
  | .checking | .telling _ => Calm s k c w.run.began w.now w.killed
  | .selecting => Calm s k c w.run.began w.now w.killed ∧ ¬ c.Late k w.now
  | .reading => Calm s k c w.run.began w.now w.killed ∧ w.next s ≤ w.now
  | .polling => Calm s k c w.run.began w.now w.killed ∧ w.now < s.closes
  | .stopping => Calm s k c w.run.began w.now w.killed ∧ c.Late k w.now
  | .waiting => Calm s k c w.run.began w.now w.killed ∧ w.unread = [] ∧ w.now = s.closes
  | .pollingAfter f | .waitingAfter f =>
    Stopped s k c w.now w.killed ∧ f = c.lateFault (read.map (·.2))
  | .killingAfter _ => False
  | .finished outcome => Over s k c read w outcome

/-- No line is lost on the way, and the last ones are kept. -/
structure Sound (read : List (ℚ × Line)) (w : Watched) : Prop where
  config : w.run.config = c
  lines : s.lines = read ++ w.unread
  tail : w.run.tail = lastTexts (read.map (·.2))
  knows : w.Knows s k c read w.run.point

variable {s k c} {w : Watched} {read : List (ℚ × Line)}

theorem sound_opened (s : Schedule) (k : Stopwatch) (c : Config) (arguments : List String) :
    (opened s c arguments).Sound s k c [] := ⟨rfl, rfl, rfl, rfl, rfl⟩

theorem Sound.next_le_closes (h : w.Sound s k c read) : w.next s ≤ s.closes := by
  have hlines := h.lines
  unfold next
  split
  · exact le_refl _
  · next t line rest hunread =>
    refine s.within (t, line) ?_
    rw [hlines, hunread]
    exact List.mem_append_right _ List.mem_cons_self

/-- Without a limit it is never late. -/
theorem not_late_of_none (h : c.limit? = none) (t : ℚ) : ¬ c.Late k t := by
  unfold Config.Late Config.isLate
  rw [h]
  exact Bool.false_ne_true

/-- The next turn of the loop begins. -/
theorem Sound.turn {r : Run} (config : r.config = c) (lines : s.lines = read ++ w.unread)
    (tail : r.tail = lastTexts (read.map (·.2))) (calm : Calm s k c r.began w.now w.killed) :
    Sound s k c read { w with run := r.turn } := by
  refine ⟨config, lines, tail, ?_⟩
  show Knows _ _ _ _ _ (if _ then _ else _)
  split
  · exact calm
  · next unlimited =>
    rw [config] at unlimited
    exact ⟨calm, not_late_of_none (Option.not_isSome_iff_eq_none.mp unlimited) _⟩

/-- An answer lets the run go on soundly. One line more has been read if the run was reading and its
lines had not come to their end. -/
theorem Sound.answer (h : w.Sound s k c read) : ∃ read', (w.answer s k).Sound s k c read' := by
  have hnext := h.next_le_closes
  obtain ⟨⟨config, arguments, tail, began, point⟩, now, unread, killed⟩ := w
  obtain ⟨rfl : config = c, hlines, htail : tail = lastTexts _, hknows⟩ := h
  cases point with
  | announcing => exact ⟨read, rfl, hlines, htail, hknows⟩
  | starting => exact ⟨read, rfl, hlines, htail, rfl, hknows⟩
  | timing readable =>
    obtain ⟨rfl, hnow, halive⟩ := hknows
    obtain rfl : now = 0 := hnow
    have hcalm : Calm s k config (k.shows 0) 0 killed := ⟨rfl, halive, Config.soon_zero, s.opened⟩
    exact ⟨read, .turn (r := ⟨_, _, _, k.shows 0, .timing true⟩) rfl hlines htail hcalm⟩
  | checking =>
    have hcalm : Calm s k config began now killed := hknows
    obtain rfl : began = k.shows 0 := hcalm.began
    refine ⟨read, rfl, hlines, htail, ?_⟩
    show Knows _ _ _ _ _ (if config.isLate (k.shows 0) (k.shows now) = true then _ else _)
    split
    · next late => exact ⟨hcalm, late⟩
    · next early => exact ⟨hcalm, early⟩
  | stopping =>
    obtain ⟨hcalm, late⟩ := hknows
    -- the process is killed first, and the fault is raised behind that
    have hlose := Run.lose_lateFault (r := ⟨config, arguments, tail, began, .stopping⟩) htail
    refine ⟨read, rfl, hlines, htail, ?_⟩
    show Knows _ _ _ _ _ (Run.lose _ _).point
    rw [hlose]
    exact ⟨⟨rfl, hcalm.soon, late, hcalm.unclosed⟩, rfl⟩
  | selecting =>
    obtain ⟨hcalm, early⟩ := hknows
    refine ⟨read, ?_⟩
    show Sound s k config read (if _ then _ else _)
    split
    · next ready =>
      refine ⟨rfl, hlines, htail, ⟨hcalm.began, hcalm.alive, ?_, ?_⟩, le_max_right _ _⟩
      · exact Config.soon_of_not_late early (max_le (by linarith [slice_pos]) ready)
      · exact max_le hcalm.unclosed hnext
    · next unready =>
      have hbefore : now + slice < s.closes := lt_of_lt_of_le (not_le.mp unready) hnext
      refine ⟨rfl, hlines, htail, ⟨hcalm.began, hcalm.alive, ?_, hbefore.le⟩, hbefore⟩
      exact Config.soon_of_not_late early (le_refl _)
  | reading =>
    obtain ⟨hcalm, hready⟩ := hknows
    cases unread with
    | nil =>
      -- nothing waits to be read, so what is ready is the end
      have hnow : now = s.closes := le_antisymm hcalm.unclosed hready
      have hstays : max now s.closes = now := max_eq_left hready
      refine ⟨read, ?_⟩
      show Sound s k config read ⟨_, max now s.closes, [], killed⟩
      rw [hstays]
      exact ⟨rfl, hlines, htail, hcalm, rfl, hnow⟩
    | cons first rest =>
      obtain ⟨t, line⟩ := first
      have hstays : max now t = now := max_eq_left hready
      have hresume := Run.resume_line (r := ⟨config, arguments, tail, began, .reading⟩) rfl line
      have hkept := pushTail_lastTexts (read.map (·.2)) line
      rw [← htail] at hkept
      refine ⟨read ++ [(t, line)], ?_⟩
      show Sound s k config _ ⟨Run.resume _ (.line line.val), max now t, rest, killed⟩
      rw [hresume, hstays]
      refine ⟨rfl, by rw [hlines, List.append_assoc, List.singleton_append], ?_, hcalm⟩
      dsimp only
      rw [List.map_append, List.map_singleton]
      exact hkept
  | telling text => exact ⟨read, .turn rfl hlines htail hknows⟩
  | polling =>
    obtain ⟨hcalm, hbefore⟩ := hknows
    obtain rfl : killed = none := hcalm.alive
    have hthere : ¬ s.ends ≤ now := not_le.mpr (lt_of_lt_of_le hbefore s.closes_le_ends)
    refine ⟨read, ?_⟩
    show Sound s k config read (resume _ (.status (if s.ends ≤ now then _ else _)))
    rw [if_neg hthere]
    exact .turn rfl hlines htail hcalm
  | waiting =>
    obtain ⟨hcalm, hnone, hnow⟩ := hknows
    obtain rfl : unread = [] := hnone
    obtain rfl : now = s.closes := hnow
    obtain rfl : killed = none := hcalm.alive
    have hall : read = s.lines := by rw [hlines, List.append_nil]
    refine ⟨read, rfl, hlines, htail, ?_⟩
    show Over _ _ _ _ _ (Run.judge _ s.code)
    rw [Run.judge_eq htail, hall]
    exact .waited rfl rfl (max_eq_right s.closes_le_ends) hcalm.soon
  | pollingAfter f =>
    obtain ⟨hstopped, rfl⟩ := hknows
    obtain rfl : killed = some now := hstopped.killed
    refine ⟨read, ?_⟩
    show Sound s k config read (resume _ (.status (if min now s.ends ≤ now then _ else _)))
    rw [if_pos (min_le_left _ _)]
    exact ⟨rfl, hlines, htail, hstopped, rfl⟩
  | killingAfter f => cases hknows
  | waitingAfter f =>
    obtain ⟨hstopped, rfl⟩ := hknows
    obtain rfl : killed = some now := hstopped.killed
    have hstays : max now (min now s.ends) = now := max_eq_left (min_le_left _ _)
    refine ⟨read, ?_⟩
    show Sound s k config read ⟨_, max now (min now s.ends), _, _⟩
    rw [hstays]
    exact ⟨rfl, hlines, htail, .stopped hstopped⟩
  | finished outcome => exact ⟨read, rfl, hlines, htail, hknows⟩

/-! ## The end of a run -/

/-- The slices until the lines come to their end. -/
def slicesFrom (s : Schedule) (t : ℚ) : Nat := ⌈(s.closes - t) / slice⌉₊

theorem slicesFrom_anti {t u : ℚ} (h : t ≤ u) : slicesFrom s u ≤ slicesFrom s t := by
  apply Nat.ceil_mono
  exact div_le_div_of_nonneg_right (sub_le_sub_left h s.closes) slice_pos.le

theorem slicesFrom_add_slice {t : ℚ} (h : t + slice ≤ s.closes) :
    slicesFrom s (t + slice) + 1 = slicesFrom s t := by
  have hnonneg : 0 ≤ (s.closes - (t + slice)) / slice :=
    div_nonneg (by linarith) slice_pos.le
  have hsplit : (s.closes - t) / slice = (s.closes - (t + slice)) / slice + 1 := by
    have hne : slice ≠ 0 := slice_pos.ne'
    field_simp
    ring
  unfold slicesFrom
  rw [hsplit, Nat.ceil_add_one hnonneg]

/-- How far a point is from the end of its turn, or of the run. -/
def rank : Point → Nat
  | .finished _ => 0
  | .waiting | .waitingAfter _ => 1
  | .reading | .killingAfter _ => 2
  | .selecting | .pollingAfter _ => 3
  | .stopping => 4
  | .checking => 5
  | .timing _ | .telling _ | .polling => 6
  | .starting => 7
  | .announcing => 8

/-- No more answers than these bring a run to its end. -/
def remaining (s : Schedule) (w : Watched) : Nat :=
  5 * (w.unread.length + slicesFrom s w.now) + rank w.run.point

theorem rank_turn (r : Run) : rank r.turn.point ≤ 5 := by
  show rank (if _ then _ else _) ≤ 5
  split <;> decide

theorem remaining_lt_of_rank {w' : Watched} (unread : w'.unread = w.unread) (now : w.now ≤ w'.now)
    (less : rank w'.run.point < rank w.run.point) : w'.remaining s < w.remaining s := by
  have hslices := slicesFrom_anti (s := s) now
  unfold remaining
  rw [unread]
  omega

theorem Sound.remaining_answer (h : w.Sound s k c read)
    (unfinished : ∀ o, w.run.point ≠ .finished o) :
    (w.answer s k).remaining s < w.remaining s := by
  have hnext := h.next_le_closes
  obtain ⟨⟨config, arguments, tail, began, point⟩, now, unread, killed⟩ := w
  cases point with
  | announcing => exact remaining_lt_of_rank rfl (le_refl _) (show 7 < 8 by decide)
  | starting => exact remaining_lt_of_rank rfl (le_refl _) (show 6 < 7 by decide)
  | timing readable =>
    cases readable with
    | false => exact remaining_lt_of_rank rfl (le_refl _) (show 1 < 6 by decide)
    | true => exact remaining_lt_of_rank rfl (le_refl _) (Nat.lt_succ_of_le (rank_turn _))
  | checking =>
    refine remaining_lt_of_rank rfl (le_refl _) ?_
    show rank (if _ then _ else _) < 5
    split <;> decide
  | stopping => exact remaining_lt_of_rank rfl (le_refl _) (show 3 < 4 by decide)
  | selecting =>
    show remaining s (if _ then _ else _) < _
    split
    · exact remaining_lt_of_rank rfl (le_max_left _ _) (show 2 < 3 by decide)
    · next unready =>
      have hslices : slicesFrom s (now + slice) + 1 = slicesFrom s now :=
        slicesFrom_add_slice ((not_le.mp unready).le.trans hnext)
      show 5 * (unread.length + slicesFrom s (now + slice)) + 6 <
        5 * (unread.length + slicesFrom s now) + 3
      omega
  | reading =>
    cases unread with
    | nil => exact remaining_lt_of_rank rfl (le_max_left _ _) (show 1 < 2 by decide)
    | cons first rest =>
      obtain ⟨t, line⟩ := first
      have hslices := slicesFrom_anti (s := s) (le_max_left now t)
      have hresume := Run.resume_line (r := ⟨config, arguments, tail, began, .reading⟩) rfl line
      show 5 * (rest.length + slicesFrom s (max now t)) +
        rank (Run.resume _ (.line line.val)).point < 5 * (rest.length + 1 + slicesFrom s now) + 2
      rw [hresume]
      show _ + 6 < _
      omega
  | telling text => exact remaining_lt_of_rank rfl (le_refl _) (Nat.lt_succ_of_le (rank_turn _))
  | polling =>
    show remaining s (resume _ (.status (if _ then _ else _))) < _
    split
    · exact remaining_lt_of_rank rfl (le_refl _) (show 1 < 6 by decide)
    · exact remaining_lt_of_rank rfl (le_refl _) (Nat.lt_succ_of_le (rank_turn _))
  | waiting => exact remaining_lt_of_rank rfl (le_max_left _ _) (show 0 < 1 by decide)
  | pollingAfter f =>
    show remaining s (resume _ (.status (if _ then _ else _))) < _
    split
    · exact remaining_lt_of_rank rfl (le_refl _) (show 1 < 3 by decide)
    · exact remaining_lt_of_rank rfl (le_refl _) (show 2 < 3 by decide)
  | killingAfter f => exact remaining_lt_of_rank rfl (le_refl _) (show 1 < 2 by decide)
  | waitingAfter f => exact remaining_lt_of_rank rfl (le_max_left _ _) (show 0 < 1 by decide)
  | finished outcome => exact absurd rfl (unfinished outcome)

/-- A run comes to its end. -/
theorem Sound.ends (h : w.Sound s k c read) :
    ∃ n read' outcome, (w.after s k n).run.outcome? = some outcome ∧
      (w.after s k n).Sound s k c read' := by
  induction hremaining : w.remaining s using Nat.strong_induction_on generalizing w read with
  | _ m ih =>
    by_cases hover : ∃ outcome, w.run.point = .finished outcome
    · obtain ⟨outcome, hpoint⟩ := hover
      exact ⟨0, read, outcome, outcome?_eq_some.mpr hpoint, h⟩
    · have hless := h.remaining_answer fun o ho => hover ⟨o, ho⟩
      obtain ⟨read', h'⟩ := h.answer
      obtain ⟨n, hn⟩ := ih _ (hremaining ▸ hless) h' rfl
      exact ⟨n + 1, hn⟩

/-- A run comes to its end in one of two ways. -/
theorem exists_over (s : Schedule) (k : Stopwatch) (c : Config) (arguments : List String) :
    ∃ n read outcome, ((opened s c arguments).after s k n).run.outcome? = some outcome ∧
      read <+: s.lines ∧ Over s k c read ((opened s c arguments).after s k n) outcome := by
  obtain ⟨n, read, outcome, houtcome, hsound⟩ := (sound_opened s k c arguments).ends
  have hknows := hsound.knows
  rw [outcome?_eq_some.mp houtcome] at hknows
  exact ⟨n, read, outcome, houtcome, ⟨_, hsound.lines.symm⟩, hknows⟩

end Sound

/-! ## The law -/

/-- How a run goes beside any process that writes lines, closes them and ends, with any clock. It
comes to its end: either a look at the clock found the limit passed while the lines went on, and the
process was killed there, no more than a slice behind any time that is past the limit; or all lines
were read, and the run has waited for the process to end by itself. It is killed whenever the limit
is passed by more than a slice before the lines end. If it is not passed when they end, the process
is left alone, however long it goes on. -/
theorem limit_holds_while_lines_go_on (s : Schedule) (k : Stopwatch) (c : Config)
    (arguments : List String) :
    ∃ n outcome, let w := (opened s c arguments).after s k n
      w.run.outcome? = some outcome ∧
      (w.killed = some w.now ∧ c.Late k w.now ∧ c.Soon k w.now ∧ w.now ≤ s.closes ∧
          (∃ read, read <+: s.lines ∧ outcome = .error (c.lateFault (read.map (·.2)))) ∨
        w.killed = none ∧ w.now = s.ends ∧ outcome = outcomeOf (s.lines.map (·.2)) s.code) ∧
      ((∃ u, 0 ≤ u ∧ c.Late k u ∧ u + slice < s.closes) → w.killed = some w.now) ∧
      (¬ c.Late k s.closes → w.killed = none) := by
  obtain ⟨n, read, outcome, houtcome, hread, hover⟩ := exists_over s k c arguments
  refine ⟨n, outcome, houtcome, ?_⟩
  cases hover with
  | waited all alive now soon =>
    refine ⟨.inr ⟨alive, now, rfl⟩, ?_, fun _ => alive⟩
    rintro ⟨u, nonneg, late, before⟩
    exact absurd (soon u nonneg late) (not_le.mpr before)
  | stopped stopped =>
    refine ⟨.inl ⟨stopped.killed, stopped.late, stopped.soon, stopped.unclosed, read, hread, rfl⟩,
      fun _ => stopped.killed, ?_⟩
    exact fun early => absurd (stopped.late.mono stopped.unclosed) early

end Watched

/-- Nothing for two seconds, and two seconds from then on. -/
def lazyTime (t : ℚ) : Double := if t < 2 then .zero else .ofNat 2

theorem isFinite_lazyTime (t : ℚ) : (lazyTime t).isFinite = true := by
  unfold lazyTime
  split <;> decide +kernel

theorem lazyTime_mono {t u : ℚ} (le : t ≤ u) : lazyTime t ≤ lazyTime u := by
  unfold lazyTime
  split
  · split <;> decide +kernel
  · next late =>
    rw [if_neg fun early => late (lt_of_le_of_lt le early)]
    decide +kernel

/-- A clock that stands still but for one leap. -/
def Stopwatch.lazy : Stopwatch where
  shows := lazyTime
  finite := isFinite_lazyTime
  mono := lazyTime_mono

/-- A process that hangs behind its first line. -/
def Schedule.hanging : Schedule where
  lines := [(0, ⟨"frame=1\n", by decide⟩)]
  closes := 3600
  ends := 3600
  code := 0
  opened := by norm_num
  within := by simp
  closes_le_ends := le_refl _

/-- A process that closes its lines at once and hangs. -/
def Schedule.mute : Schedule where
  lines := []
  closes := 0
  ends := 3600
  code := 0
  opened := le_refl _
  within := nofun
  closes_le_ends := by norm_num

/-- A limit of a second. -/
def Config.oneSecond : Config where
  binary := "ffmpeg"
  timeout := some (.whole 1)

theorem late_after_two_seconds : Config.oneSecond.Late .lazy 2 := by
  unfold Config.Late
  decide +kernel

namespace Watched

/-- A process that hangs with its lines open is killed. -/
theorem hanging_process_is_killed :
    Config.oneSecond.Late .lazy 2 ∧ 2 + slice < Schedule.hanging.closes ∧
      ∃ n read, let w := (opened .hanging .oneSecond []).after .hanging .lazy n
        w.run.outcome? = some (.error (Config.oneSecond.lateFault read)) ∧
          w.killed = some w.now ∧ w.now ≤ 2 + slice := by
  have before : 2 + slice < Schedule.hanging.closes := by
    show 2 + slice < 3600
    unfold slice
    norm_num
  obtain ⟨n, outcome, houtcome, hways, hkilled, -⟩ :=
    limit_holds_while_lines_go_on .hanging .lazy .oneSecond []
  have killed := hkilled ⟨2, by norm_num, late_after_two_seconds, before⟩
  rcases hways with ⟨-, -, soon, -, read, -, rfl⟩ | ⟨alive, -⟩
  · exact ⟨late_after_two_seconds, before, n, _, houtcome, killed,
      soon 2 (by norm_num) late_after_two_seconds⟩
  · rw [killed] at alive
    cases alive

/-- A process that closes its lines and hangs outlasts the limit by an hour, and the run ends
well. -/
theorem closed_lines_outlast_limit :
    Config.oneSecond.Late .lazy 2 ∧ 2 + slice < Schedule.mute.ends ∧
      ∃ n, let w := (opened .mute .oneSecond []).after .mute .lazy n
        w.run.outcome? = some (.ok ()) ∧ w.killed = none ∧ w.now = 3600 := by
  have before : 2 + slice < Schedule.mute.ends := by
    show 2 + slice < 3600
    unfold slice
    norm_num
  have early : ¬ Config.oneSecond.Late .lazy 0 := by
    unfold Config.Late
    decide +kernel
  obtain ⟨n, read, outcome, houtcome, -, hover⟩ := exists_over .mute .lazy .oneSecond []
  cases hover with
  | waited all alive now soon => exact ⟨late_after_two_seconds, before, n, houtcome, alive, now⟩
  | stopped stopped => exact absurd (stopped.late.mono stopped.unclosed) early

end Watched

end TimedText.Encoder
