import Mathlib.Data.List.Basic
import TimedText.Proofs.Encoder.Exchange

/-!
# How a run ends

A run that has started the process is under way until the process has ended by itself or something
goes wrong: looking, reading or telling fails, or a look at the clock finds the limit passed. From
there on everything is decided. The run parts with the process, which is killed if it is still there
and waited for, and the outcome is the fault.

`Ending` are all histories of runs that are over, and `Exchange.ending` says that there are no
others. Main statement: `process_is_waited_for`.
-/

namespace TimedText.Encoder

/-- Whether a time is past the limit of a run that began at another. -/
def Config.isLate (c : Config) (began now : Double) : Bool :=
  match c.limit? with
  | none => false
  | some limit => limit.quantity.lt (now - began).quantity

namespace History

/-- A look at the clock found the limit passed. The first look only tells when the run began. -/
def Overran (c : Config) (es : History) : Prop :=
  ∃ began later, es.times = began :: later ∧ ∃ now ∈ later, c.isLate began now = true

/-- Something went wrong. -/
def Disturbed (c : Config) (es : History) : Prop :=
  (∃ q f, (q, .fault f) ∈ es) ∨ es.Overran c

end History

/-! ## Faults -/

/-- The lines that say why a process failed: the last ones of those that were read. -/
def diagnosisOf (lines : List Line) : String := String.join (lastTexts lines)

/-- What is said about a process that took too long. -/
def Config.lateFault (c : Config) (lines : List Line) : Fault :=
  ⟨.encode, "FFmpeg process timed out after " ++ (c.limit?).elim "" Number.text ++ "s",
    diagnosisOf lines⟩

/-- What becomes of a fault that was met while the process was there. -/
def lostFault (lines : List Line) (f : Fault) : Fault :=
  if f.kind = .encode then f
  else ⟨.encode, "Lost contact with ffmpeg: " ++ f.message, diagnosisOf lines⟩

/-- What becomes of a fault by which the process was not started. -/
def Config.startFault (c : Config) (f : Fault) : Fault :=
  if f.kind.isSystem then ⟨.encode, "Could not start " ++ c.binary ++ ": " ++ f.message, ""⟩ else f

/-! ## Histories -/

section Histories

variable (c : Config) (arguments : List String)

/-- The run is announced. -/
abbrev announcing : Request := .emit (.announcement c arguments)

/-- The process is started. -/
abbrev starting : Request := .start (command c arguments)

/-- The process was started, the run began at this time, and nothing has gone wrong. -/
structure Underway (began : Double) (es : History) : Prop where
  started : ∃ readable, ∃ rest : History, es = (announcing c arguments, .done) ::
    (starting c arguments, .started readable) :: (.clock, .time began) :: rest
  calm : ¬ es.Disturbed c
  unwaited : ∀ e ∈ es, e.1 ≠ .wait

/-- The first thing went wrong, and it comes to this fault. A process that took too long has been
killed already. -/
inductive Trouble : History → Fault → Prop
  | met {began : Double} {es : History} {q : Request} {f : Fault}
      (way : Underway c arguments began es) (takes : q.Takes (.fault f)) :
      Trouble (es ++ [(q, .fault f)]) (lostFault es.lines f)
  | late {began now : Double} {es : History} (way : Underway c arguments began es)
      (late : c.isLate began now = true) :
      Trouble (es ++ [(.clock, .time now), (.kill, .done)]) (c.lateFault es.lines)

/-- How a run parts with the process: it is killed if it is still there, and waited for. -/
inductive Parting : History → Prop
  | alive (code : Int) :
      Parting [(.poll, .status none), (.kill, .done), (.wait, .status (some code))]
  | ended (status code : Int) :
      Parting [(.poll, .status (some status)), (.wait, .status (some code))]

/-- The histories of runs that are over, and their outcomes. -/
inductive Ending : History → Except Fault Unit → Prop
  | unannounced (f : Fault) : Ending [(announcing c arguments, .fault f)] (.error f)
  | unstarted (f : Fault) :
      Ending [(announcing c arguments, .done), (starting c arguments, .fault f)]
        (.error (c.startFault f))
  | waited {began : Double} {es : History} (way : Underway c arguments began es) (code : Int) :
      Ending (es ++ [(.wait, .status (some code))]) (outcomeOf es.lines code)
  | parted {es after : History} {f : Fault} (trouble : Trouble c arguments es f)
      (parting : Parting after) : Ending (es ++ after) (.error f)

/-- What is known of the history of a run that stands at a point and began at this time. -/
def Knows (es : History) (began : Double) : Point → Prop
  | .announcing => es = []
  | .starting => es = [(announcing c arguments, .done)]
  | .timing readable =>
    es = [(announcing c arguments, .done), (starting c arguments, .started readable)]
  | .checking | .selecting | .reading | .telling _ | .polling | .waiting =>
    Underway c arguments began es
  | .stopping => ∃ before now, es = before ++ [(.clock, .time now)] ∧
      Underway c arguments began before ∧ c.isLate began now = true
  | .pollingAfter f => Trouble c arguments es f
  | .killingAfter f => ∃ before, es = before ++ [(.poll, .status none)] ∧ Trouble c arguments before f
  | .waitingAfter f => ∃ before parting, es = before ++ parting ∧ Trouble c arguments before f ∧
      ∀ code, Parting (parting ++ [(.wait, .status (some code))])
  | .finished outcome => Ending c arguments es outcome

end Histories

section

variable {c : Config} {arguments : List String} {es past : History} {began : Double} {r r' : Run}
  {q : Request} {reply : Reply}

theorem Underway.times (h : Underway c arguments began es) : ∃ later, es.times = began :: later := by
  obtain ⟨⟨readable, rest, rfl⟩, -, -⟩ := h
  exact ⟨rest.times, rfl⟩

theorem Underway.overran (h : Underway c arguments began es) {now : Double}
    (late : c.isLate began now = true) (q : Request) : History.Overran c (es ++ [(q, .time now)]) := by
  obtain ⟨later, htimes⟩ := h.times
  refine ⟨began, later ++ [now], ?_, now, by simp, late⟩
  rw [History.times_concat, htimes]
  rfl

/-- What it is that goes wrong next. -/
theorem Underway.disturbed_concat_iff (h : Underway c arguments began es) (e : Request × Reply) :
    History.Disturbed c (es ++ [e]) ↔
      (∃ f, e.2 = .fault f) ∨ ∃ now, e.2 = .time now ∧ c.isLate began now = true := by
  obtain ⟨later, htimes⟩ := h.times
  obtain ⟨hwhole, hinTime⟩ := not_or.mp h.calm
  constructor
  · rintro (⟨q, f, hf⟩ | ⟨began', later', htimes', now, hnow, hlate⟩)
    · rcases List.mem_append.mp hf with hf | hf
      · exact absurd ⟨q, f, hf⟩ hwhole
      · rw [← List.mem_singleton.mp hf]
        exact .inl ⟨f, rfl⟩
    · rw [History.times_concat, htimes] at htimes'
      obtain ⟨rfl, rfl⟩ := List.cons.inj htimes'
      rcases List.mem_append.mp hnow with hnow | hnow
      · exact absurd ⟨_, later, htimes, now, hnow, hlate⟩ hinTime
      · right
        exact ⟨now, Reply.time?_eq_some.mp (Option.mem_toList.mp hnow), hlate⟩
  · rintro (⟨f, hf⟩ | ⟨now, hnow, hlate⟩)
    · exact .inl ⟨e.1, f, List.mem_append_right _ (by rw [← hf]; exact List.mem_cons_self)⟩
    · obtain ⟨q, reply⟩ := e
      cases hnow
      exact .inr (h.overran hlate q)

theorem Underway.next (h : Underway c arguments began es) {e : Request × Reply}
    (whole : ∀ f, e.2 ≠ .fault f) (inTime : ∀ now, e.2 = .time now → c.isLate began now = false)
    (other : e.1 ≠ .wait) : Underway c arguments began (es ++ [e]) := by
  obtain ⟨readable, rest, hstarted⟩ := h.started
  refine ⟨⟨readable, rest ++ [e], by rw [hstarted]; rfl⟩, ?_, ?_⟩
  · rw [h.disturbed_concat_iff]
    rintro (⟨f, hf⟩ | ⟨now, hnow, hlate⟩)
    · exact whole f hf
    · rw [inTime now hnow] at hlate
      cases hlate
  · intro e' he'
    rcases List.mem_append.mp he' with he' | he'
    · exact h.unwaited e' he'
    · rw [List.mem_singleton.mp he']
      exact other

/-- The run begins. -/
theorem underway_began (c : Config) (arguments : List String) (readable : Bool) (now : Double) :
    Underway c arguments now [(announcing c arguments, .done),
      (starting c arguments, .started readable), (.clock, .time now)] := by
  refine ⟨⟨readable, [], rfl⟩, ?_, ?_⟩
  · rintro (⟨q, f, hf⟩ | ⟨began, later, htimes, now', hlater, -⟩)
    · simp at hf
    · cases htimes
      cases hlater
  · simp

theorem knows_turn {r : Run} (h : Underway c arguments r.began es) :
    Knows c arguments es r.turn.began r.turn.point := by
  show Knows c arguments es r.began (if _ then _ else _)
  split
  · exact h
  · exact h

theorem knows_lose {r : Run} (h : Underway c arguments began es) (tail : r.tail = lastTexts es.lines)
    {f : Fault} (takes : q.Takes (.fault f)) :
    Knows c arguments (es ++ [(q, .fault f)]) (r.lose f).began (r.lose f).point := by
  have hlost : r.lose f = r.goto (.pollingAfter (lostFault es.lines f)) := by
    unfold Run.lose lostFault Run.diagnostic diagnosisOf
    rw [tail]
  rw [hlost]
  exact .met h takes

theorem Run.lateFault_eq {r : Run} {lines : List Line} (tail : r.tail = lastTexts lines) :
    r.lateFault = r.config.lateFault lines := by
  unfold lateFault Config.lateFault diagnostic diagnosisOf
  rw [tail]

/-- A run that makes an end of the process itself parts with it by a fault of an encoding. -/
theorem Run.lose_lateFault {r : Run} {lines : List Line} (tail : r.tail = lastTexts lines) :
    r.lose r.lateFault = r.goto (.pollingAfter (r.config.lateFault lines)) := by
  have hkind : (r.config.lateFault lines).kind = .encode := rfl
  unfold lose
  simp only [lateFault_eq tail, if_pos hkind]

theorem Knows.step (h : Recorded c arguments past r) (knows : Knows c arguments past r.began r.point)
    (asks : r.request = some q) (takes : q.Takes reply) :
    Knows c arguments (past ++ [(q, reply)]) (r.resume reply).began (r.resume reply).point := by
  obtain ⟨config, arguments, tail, began, point⟩ := r
  obtain ⟨⟨rfl, rfl⟩, -, htail⟩ := h
  have htail : tail = lastTexts past.lines := htail
  -- a case for every point, and in it one for every answer that the point's request takes
  cases point with
  | announcing =>
    cases asks
    obtain rfl := knows
    cases takes with
    | told => rfl
    | untold _ f => exact .unannounced f
  | starting =>
    cases asks
    obtain rfl := knows
    cases takes with
    | started _ readable => rfl
    | refused _ f => exact .unstarted f
  | timing readable =>
    cases asks
    obtain rfl := knows
    cases takes with
    | time now =>
      have hway := underway_began config arguments readable now
      cases readable
      · exact hway
      · exact knows_turn (r := ⟨config, arguments, tail, now, .timing true⟩) hway
  | checking =>
    cases asks
    have way : Underway config arguments began past := knows
    cases takes with
    | time now =>
      show Knows _ _ _ began (if config.isLate began now = true then _ else _)
      split
      · next late => exact ⟨past, now, rfl, way, late⟩
      · next inTime =>
        refine way.next nofun ?_ nofun
        intro now' h
        cases h
        exact Bool.eq_false_iff.mpr inTime
  | stopping =>
    cases asks
    obtain ⟨before, now, rfl, way, late⟩ := knows
    rw [History.lines_concat_of_none _ rfl] at htail
    cases takes
    -- the fault is raised inside the guarded part, so that the run parts with the process by it
    show Knows _ _ _ (Run.lose _ _).began (Run.lose _ _).point
    rw [Run.lose_lateFault htail, List.append_assoc]
    exact .late way late
  | selecting =>
    cases asks
    have way : Underway config arguments began past := knows
    cases takes with
    | ready isReady => cases isReady <;> exact way.next nofun nofun nofun
    | blind f => exact knows_lose way htail (.blind f)
  | reading =>
    cases asks
    have way : Underway config arguments began past := knows
    cases takes with
    | line text =>
      by_cases none : text = ""
      · subst none
        exact way.next nofun nofun nofun
      · rw [Run.resume_line rfl ⟨text, none⟩]
        exact way.next nofun nofun nofun
    | unread f => exact knows_lose way htail (.unread f)
  | telling text =>
    cases asks
    have way : Underway config arguments began past := knows
    cases takes with
    | told => exact knows_turn (way.next nofun nofun nofun)
    | untold _ f => exact knows_lose way htail (.untold _ f)
  | polling =>
    cases asks
    have way : Underway config arguments began past := knows
    cases takes with
    | polled status =>
      cases status
      · exact knows_turn (way.next nofun nofun nofun)
      · exact way.next nofun nofun nofun
  | waiting =>
    cases asks
    have way : Underway config arguments began past := knows
    cases takes with
    | waited code =>
      show Ending _ _ _ (Run.judge _ code)
      rw [Run.judge_eq htail]
      exact .waited way code
  | pollingAfter f =>
    cases asks
    have trouble : Trouble config arguments past f := knows
    cases takes with
    | polled status =>
      cases status with
      | none => exact ⟨past, rfl, trouble⟩
      | some status => exact ⟨past, [_], rfl, trouble, .ended status⟩
  | killingAfter f =>
    cases asks
    obtain ⟨before, rfl, trouble⟩ := knows
    cases takes
    exact ⟨before, _, List.append_assoc _ _ _, trouble, .alive⟩
  | waitingAfter f =>
    cases asks
    obtain ⟨before, parting, rfl, trouble, hparting⟩ := knows
    cases takes with
    | waited code =>
      show Ending _ _ (before ++ parting ++ [_]) _
      rw [List.append_assoc]
      exact .parted trouble (hparting code)
  | finished outcome => cases asks

/-- What is known of a run and its history. -/
structure Reached (c : Config) (arguments : List String) (es : History) (r : Run) : Prop
    extends Recorded c arguments es r where
  knows : Knows c arguments es r.began r.point

theorem Reached.step (h : Reached c arguments past r) (asks : r.request = some q)
    (takes : q.Takes reply) : Reached c arguments (past ++ [(q, reply)]) (r.resume reply) :=
  ⟨h.toRecorded.step asks takes, h.knows.step h.toRecorded asks takes⟩

theorem reached_opened (c : Config) (arguments : List String) :
    Reached c arguments [] (.opened c arguments) := ⟨recorded_opened c arguments, rfl⟩

theorem Exchange.reached (h : Exchange (.opened c arguments) es r) : Reached c arguments es r :=
  h.carries Reached.step (reached_opened c arguments)

theorem Exchange.ending (h : Exchange (.opened c arguments) es r) {outcome : Except Fault Unit}
    (ended : r.outcome? = some outcome) : Ending c arguments es outcome := by
  have hknows := h.reached.knows
  rw [outcome?_eq_some.mp ended] at hknows
  exact hknows

/-! ## Runs that are disturbed, and others -/

theorem History.Overran.append (h : es.Overran c) (es' : History) :
    History.Overran c (es ++ es') := by
  obtain ⟨began, later, htimes, now, hnow, hlate⟩ := h
  refine ⟨began, later ++ es'.times, ?_, now, List.mem_append_left _ hnow, hlate⟩
  rw [History.times_append, htimes]
  rfl

theorem History.Disturbed.append (h : es.Disturbed c) (es' : History) :
    History.Disturbed c (es ++ es') := by
  rcases h with ⟨q, f, hf⟩ | overran
  · exact .inl ⟨q, f, List.mem_append_left _ hf⟩
  · exact .inr (overran.append es')

/-- The first thing that went wrong, and whether the process was killed because of it. -/
theorem Trouble.split {f : Fault} (h : Trouble c arguments es f) :
    ∃ (before : History) (e : Request × Reply),
      es = before ++ e :: (if e.1 = .clock then [(.kill, .done)] else []) ∧
        ¬ before.Disturbed c ∧ History.Disturbed c (before ++ [e]) := by
  cases h with
  | @met began before q f way takes =>
    have hq : q ≠ .clock := by
      rintro rfl
      cases takes
    refine ⟨before, (q, .fault f), ?_, way.calm, (way.disturbed_concat_iff _).mpr (.inl ⟨f, rfl⟩)⟩
    rw [if_neg hq]
  | @late began now before way late =>
    exact ⟨before, (.clock, .time now), rfl, way.calm,
      (way.disturbed_concat_iff _).mpr (.inr ⟨now, rfl, late⟩)⟩

theorem Trouble.disturbed {f : Fault} (h : Trouble c arguments es f) : es.Disturbed c := by
  obtain ⟨before, e, rfl, -, hdisturbed⟩ := h.split
  rw [List.append_cons]
  exact hdisturbed.append _

theorem Parting.waits {after : History} (h : Parting after) :
    ∃ before code, after = before ++ [(.wait, .status (some code))] := by
  cases h with
  | alive code => exact ⟨[_, _], code, rfl⟩
  | ended status code => exact ⟨[_], code, rfl⟩

theorem Ending.of_ok {outcome : Except Fault Unit} (h : Ending c arguments es outcome)
    (ok : outcome = .ok ()) : (.wait, .status (some 0)) ∈ es ∧ ¬ es.Disturbed c := by
  cases h with
  | unannounced f => cases ok
  | unstarted f => cases ok
  | parted trouble parting => cases ok
  | @waited began before way code =>
    unfold outcomeOf at ok
    split at ok
    · next zero =>
      subst zero
      refine ⟨List.mem_append_right _ List.mem_cons_self, ?_⟩
      rw [way.disturbed_concat_iff]
      rintro (⟨f, hf⟩ | ⟨now, hnow, -⟩)
      · cases hf
      · cases hnow
    · cases ok

/-- Only a run that is over and went well has waited for a process of status zero without being
disturbed. -/
theorem Knows.finished_ok {point : Point} (h : Knows c arguments es began point)
    (waited : (.wait, .status (some 0)) ∈ es) (calm : ¬ es.Disturbed c) :
    point = .finished (.ok ()) := by
  cases point with
  | announcing =>
    obtain rfl := h
    cases waited
  | starting =>
    obtain rfl := h
    simp at waited
  | timing readable =>
    obtain rfl := h
    simp at waited
  | checking | selecting | reading | telling | polling | waiting =>
    have way : Underway c arguments began es := h
    exact absurd rfl (way.unwaited _ waited)
  | stopping =>
    obtain ⟨before, now, rfl, way, late⟩ := h
    exact absurd ((way.disturbed_concat_iff _).mpr (.inr ⟨now, rfl, late⟩)) calm
  | pollingAfter f =>
    have trouble : Trouble c arguments es f := h
    exact absurd trouble.disturbed calm
  | killingAfter f =>
    obtain ⟨before, rfl, trouble⟩ := h
    exact absurd (trouble.disturbed.append _) calm
  | waitingAfter f =>
    obtain ⟨before, parting, rfl, trouble, -⟩ := h
    exact absurd (trouble.disturbed.append _) calm
  | finished outcome =>
    have ending : Ending c arguments es outcome := h
    cases ending with
    | unannounced f => simp at waited
    | unstarted f => simp at waited
    | parted trouble parting => exact absurd (trouble.disturbed.append _) calm
    | @waited began before way code =>
      rcases List.mem_append.mp waited with hwaited | hwaited
      · exact absurd rfl (way.unwaited _ hwaited)
      · obtain rfl : code = 0 := by simpa [eq_comm] using hwaited
        rfl

/-! ## The law -/

/-- Whatever the answers are: a run that started the process and is over has waited for it, as the
last thing that it did. If something went wrong, then behind the first such thing the process was
killed at once if it was the time limit, the run polled, killed the process if it was still there,
waited, and did nothing else. And the runs that end well are those that waited for a process of
status zero while nothing went wrong. -/
theorem process_is_waited_for (h : Exchange (.opened c arguments) es r) :
    ((∃ q readable, (q, .started readable) ∈ es) → ∀ outcome, r.outcome? = some outcome →
      (∃ before code, es = before ++ [(.wait, .status (some code))]) ∧
      (es.Disturbed c → ∃ (before : History) (e : Request × Reply) (after : History),
        es = before ++ e :: ((if e.1 = .clock then [(.kill, .done)] else []) ++ after) ∧
          ¬ before.Disturbed c ∧ History.Disturbed c (before ++ [e]) ∧ Parting after)) ∧
    (r.outcome? = some (.ok ()) ↔ (.wait, .status (some 0)) ∈ es ∧ ¬ es.Disturbed c) := by
  constructor
  · rintro ⟨q, readable, hstarted⟩ outcome ended
    cases h.ending ended with
    | unannounced f => simp at hstarted
    | unstarted f => simp at hstarted
    | @waited began before way code =>
      refine ⟨⟨before, code, rfl⟩, fun disturbed => ?_⟩
      rcases (way.disturbed_concat_iff _).mp disturbed with ⟨f, hf⟩ | ⟨now, hnow, -⟩
      · cases hf
      · cases hnow
    | @parted past after f trouble parting =>
      obtain ⟨before, e, rfl, hcalm, hdisturbed⟩ := trouble.split
      refine ⟨?_, fun _ => ⟨before, e, after, ?_, hcalm, hdisturbed, parting⟩⟩
      · obtain ⟨rest, code, rfl⟩ := parting.waits
        exact ⟨_, code, (List.append_assoc _ _ _).symm⟩
      · rw [List.append_assoc, List.cons_append]
  · constructor
    · exact fun ended => (h.ending ended).of_ok rfl
    · rintro ⟨waited, calm⟩
      exact outcome?_eq_some.mpr (h.reached.knows.finished_ok waited calm)

/-- A listener fails that is told of a line while the process goes on. -/
theorem process_of_failing_listener_is_killed :
    let c : Config := { binary := "ffmpeg" }
    ∃ es r, Exchange (.opened c ["-i", "input.mp4"]) es r ∧
      es.map (·.2) = [.done, .started true, .time .zero, .ready true, .line "frame=1\n",
        .fault ⟨.value, "sink", ""⟩, .status none, .done, .status (some (-9))] ∧
      r.outcome? = some (.error ⟨.encode, "Lost contact with ffmpeg: sink", "frame=1\n"⟩) ∧
      es.Disturbed c ∧ ∃ (before : History) (e : Request × Reply) (after : History),
        es = before ++ e :: ((if e.1 = .clock then [(.kill, .done)] else []) ++ after) ∧
          ¬ before.Disturbed c ∧ History.Disturbed c (before ++ [e]) ∧ Parting after := by
  intro c
  have hex : Exchange (.opened c ["-i", "input.mp4"])
      [(_, .done), (_, .started true), (_, .time .zero), (_, .ready true), (_, .line "frame=1\n"),
        (_, .fault ⟨.value, "sink", ""⟩), (_, .status none), (_, .done), (_, .status (some (-9)))] _ :=
    .step rfl (.told _) (.step rfl (.started _ _) (.step rfl (.time _) (.step rfl (.ready _)
      (.step rfl (.line _) (.step rfl (.untold _ _) (.step rfl (.polled _) (.step rfl .killed
        (.step rfl (.waited _) .refl))))))))
  obtain ⟨hwaited, -⟩ := process_is_waited_for hex
  refine ⟨_, _, hex, rfl, ?_, ?_, (hwaited ?_ _ rfl).2 ?_⟩
  · decide +kernel
  · exact .inl ⟨_, _, .tail _ (.tail _ (.tail _ (.tail _ (.tail _ (.head _)))))⟩
  · exact ⟨_, _, .tail _ (.head _)⟩
  · exact .inl ⟨_, _, .tail _ (.tail _ (.tail _ (.tail _ (.tail _ (.head _)))))⟩

end

end TimedText.Encoder
