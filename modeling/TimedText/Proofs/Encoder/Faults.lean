import TimedText.Filter.Clause
import TimedText.Proofs.Encoder.Ending

/-!
# Faults of a run

A run ends by a fault for one of few reasons, and which one it was is written in its history. The
fault tells the last lines that were read before it, whatever went wrong, unless it is a fault of an
encoding that somebody else met and told already (`lines_are_told_and_kept`).

All of these are faults of an encoding. The two requests that come before the process is there are
not guarded like the others: a fault of the listener of the announcement is passed on as it is, and
so is a refusal to start the process that does not come from the operating system
(`other_fault_iff_escapes`).
-/

namespace TimedText.Encoder

variable {c : Config} {arguments : List String} {es : History} {r : Run} {f : Fault}

/-! ## What is left of the lines -/

theorem Parting.lines_eq {after : History} (h : Parting after) : after.lines = [] := by
  cases h <;> rfl

/-- Why a run ends by a fault behind the start of its process. -/
inductive Cause (c : Config) (es : History) (diagnostic : String) : Fault → Prop
  | late (overran : es.Overran c) : Cause c es diagnostic
      ⟨.encode, "FFmpeg process timed out after " ++ (c.limit?).elim "" Number.text ++ "s", diagnostic⟩
  | lost {q : Request} {f : Fault} (met : (q, .fault f) ∈ es) (other : f.kind ≠ .encode) :
      Cause c es diagnostic ⟨.encode, "Lost contact with ffmpeg: " ++ f.message, diagnostic⟩
  | failed {code : Int} (waited : (.wait, .status (some code)) ∈ es) (failure : code ≠ 0) :
      Cause c es diagnostic ⟨.encode, "ffmpeg exited with status " ++ toString code, diagnostic⟩
  /-- Whoever failed told of an encoding itself. -/
  | passedOn {q : Request} {f : Fault} (met : (q, .fault f) ∈ es) (own : f.kind = .encode) :
      Cause c es diagnostic f

theorem Trouble.cause (h : Trouble c arguments es f) {after : History} (quiet : after.lines = []) :
    Cause c (es ++ after) (diagnosisOf (History.lines (es ++ after))) f := by
  cases h with
  | @met began before q f way takes =>
    have hlines : History.lines (before ++ [(q, .fault f)] ++ after) = before.lines := by
      rw [History.lines_append, History.lines_concat_of_none _ rfl, quiet, List.append_nil]
    have hmem : (q, .fault f) ∈ before ++ [(q, .fault f)] ++ after := by simp
    rw [hlines]
    unfold lostFault
    split
    · next own => exact .passedOn hmem own
    · next other => exact .lost hmem other
  | @late began now before way late =>
    have hlines : History.lines (before ++ [(.clock, .time now), (.kill, .done)] ++ after) =
        before.lines := by
      rw [History.lines_append, History.lines_append, quiet]
      simp [History.lines, Reply.line?]
    -- the run has overrun when it looked at the clock, before the process was killed
    have hsplit : before ++ [(.clock, .time now), (.kill, .done)] ++ after =
        before ++ [(.clock, .time now)] ++ ((.kill, .done) :: after) := by simp
    rw [hlines, hsplit]
    exact .late ((way.overran late _).append _)

theorem Ending.cause {outcome : Except Fault Unit} (h : Ending c arguments es outcome)
    (failed : outcome = .error f) (started : ∃ q readable, (q, .started readable) ∈ es) :
    Cause c es (diagnosisOf es.lines) f := by
  obtain ⟨q, readable, hstarted⟩ := started
  cases h with
  | unannounced => simp at hstarted
  | unstarted => simp at hstarted
  | @waited began before way code =>
    rw [History.lines_concat_of_none _ rfl]
    unfold outcomeOf at failed
    split at failed
    · cases failed
    · next nonzero =>
      cases failed
      exact .failed (List.mem_append_right _ List.mem_cons_self) nonzero
  | parted trouble parting =>
    cases failed
    exact trouble.cause parting.lines_eq

/-- At every point of a run the lines that were read have been told, each once and in order behind
the announcement and without its end, up to the one that is about to be told; a listener that fails
has been told too. And a run that has started the process and ends by a fault of its own tells the
last two hundred lines that it has read, or all if there are no more. -/
theorem lines_are_told_and_kept (h : Exchange (.opened c arguments) es r) :
    es.told ++ (r.request.bind Request.event?).toList =
        .announcement c arguments :: es.lines.map (fun line => ⟨"stderr", chomp line.val⟩) ∧
      (r.outcome?.isSome → es.told =
        .announcement c arguments :: es.lines.map (fun line => ⟨"stderr", chomp line.val⟩)) ∧
      (∀ line ∈ es.lines, '\n' ∉ line.val.toList.dropLast →
        '\n' ∉ (chomp line.val).toList ∧
          (line.val = chomp line.val ++ "\n" ∨ line.val = chomp line.val)) ∧
      ∀ f, (∃ q readable, (q, .started readable) ∈ es) → r.outcome? = some (.error f) →
        Cause c es (String.join ((es.lines.map Subtype.val).drop (es.lines.length - 200))) f := by
  have htold := h.reached.told
  refine ⟨htold, ?_, fun line _ one => chomp_of_line one, ?_⟩
  · intro ended
    obtain ⟨outcome, houtcome⟩ := Option.isSome_iff_exists.mp ended
    have hnone : r.request = none := by
      unfold Run.request
      rw [outcome?_eq_some.mp houtcome]
    rw [hnone] at htold
    exact (List.append_nil _).symm.trans htold
  · exact fun f started ended => (h.ending ended).cause rfl started

/-- The listener fails while it is told of the second line. What the fault tells are all lines, and
the one that the listener failed at was told. -/
theorem failing_listener_has_been_told :
    let c : Config := { binary := "ffmpeg" }
    ∃ es r, Exchange (.opened c ["-i", "input.mp4"]) es r ∧
      es.map (·.2) = [.done, .started true, .time .zero, .ready true, .line "frame=1\n", .done,
        .ready true, .line "Conversion failed!", .fault ⟨.value, "sink", ""⟩, .status (some 1),
        .status (some 1)] ∧
      es.told = [.announcement c ["-i", "input.mp4"], ⟨"stderr", "frame=1"⟩,
        ⟨"stderr", "Conversion failed!"⟩] ∧
      ∃ f, r.outcome? = some (.error f) ∧ Cause c es "frame=1\nConversion failed!" f := by
  intro c
  have hex : Exchange (.opened c ["-i", "input.mp4"])
      [(_, .done), (_, .started true), (_, .time .zero), (_, .ready true), (_, .line "frame=1\n"),
        (_, .done), (_, .ready true), (_, .line "Conversion failed!"),
        (_, .fault ⟨.value, "sink", ""⟩), (_, .status (some 1)), (_, .status (some 1))] _ :=
    .step rfl (.told _) (.step rfl (.started _ _) (.step rfl (.time _) (.step rfl (.ready _)
      (.step rfl (.line _) (.step rfl (.told _) (.step rfl (.ready _) (.step rfl (.line _)
        (.step rfl (.untold _ _) (.step rfl (.polled _) (.step rfl (.waited _) .refl))))))))))
  obtain ⟨-, htold, -, hcause⟩ := lines_are_told_and_kept hex
  generalize hd : String.join _ = diagnostic at hcause
  obtain rfl : diagnostic = "frame=1\nConversion failed!" := hd.symm.trans (by decide +kernel)
  refine ⟨_, _, hex, rfl, (htold ?_).trans ?_, _, rfl, hcause _ ?_ rfl⟩
  · rfl
  · decide +kernel
  · exact ⟨_, _, .tail _ (.head _)⟩

/-! ## How long a run takes -/

/-- So many requests at most have been made at a point, besides four for each look. -/
def Point.depth : Point → Nat
  | .announcing => 0
  | .starting | .reading | .polling => 1
  | .timing _ | .telling _ => 2
  | .checking | .waiting => 3
  | .selecting | .stopping => 4
  | .pollingAfter _ => 5
  | .killingAfter _ => 6
  | .waitingAfter _ => 7
  | .finished _ => 8

theorem Run.depth_turn (r : Run) : 3 ≤ r.turn.point.depth := by
  show 3 ≤ Point.depth (if _ then _ else _)
  split
  · exact Nat.le_refl 3
  · exact Nat.le_succ 3

theorem Run.depth_resume {q : Request} {reply : Reply} (asks : r.request = some q)
    (takes : q.Takes reply) :
    r.point.depth + 1 ≤ (r.resume reply).point.depth + if q = .select then 4 else 0 := by
  obtain ⟨config, arguments, tail, began, point⟩ := r
  cases point with
  | timing readable =>
    cases asks
    cases takes
    cases readable
    · exact Nat.le_refl 3
    · exact depth_turn _
  | checking =>
    cases asks
    cases takes
    show 4 ≤ Point.depth (if _ then _ else _)
    split <;> exact Nat.le_refl 4
  | selecting =>
    cases asks
    cases takes with
    | ready isReady => cases isReady <;> exact Nat.le_refl 5
    | blind f => exact Nat.le_add_right 5 4
  | reading =>
    cases asks
    cases takes with
    | line text =>
      show 2 ≤ Point.depth (Run.point (if _ then _ else _))
      split
      · exact Nat.le_succ 2
      · exact Nat.le_refl 2
    | unread f => exact Nat.le_add_right 2 3
  | telling text =>
    cases asks
    cases takes with
    | told => exact depth_turn _
    | untold _ f => exact Nat.le_add_right 3 2
  | polling =>
    cases asks
    cases takes with
    | polled status =>
      cases status
      · exact Nat.le_of_succ_le (depth_turn _)
      · exact Nat.le_succ 2
  | pollingAfter f =>
    cases asks
    cases takes with
    | polled status =>
      cases status
      · exact Nat.le_refl 6
      · exact Nat.le_succ 6
  | finished => cases asks
  | _ =>
    cases asks
    cases takes <;> exact Nat.le_of_ble_eq_true rfl

/-- A run that goes on has looked again before long. -/
theorem Exchange.length_le (h : Exchange (.opened c arguments) es r) :
    es.length ≤ 4 * es.looks + r.point.depth := by
  have hstep {past : History} {r : Run} {q : Request} {reply : Reply}
      (hpast : past.length ≤ 4 * past.looks + r.point.depth) (asks : r.request = some q)
      (takes : q.Takes reply) : (past ++ [(q, reply)]).length ≤
        4 * History.looks (past ++ [(q, reply)]) + (r.resume reply).point.depth := by
    have hdepth := r.depth_resume asks takes
    rw [List.length_append, List.length_singleton, History.looks_concat]
    split at hdepth
    · next look => rw [if_pos look]; omega
    · next other => rw [if_neg other]; omega
  have hstart : ([] : History).length ≤
      4 * History.looks [] + (Run.opened c arguments).point.depth := Nat.le_refl 0
  exact h.carries @hstep hstart

theorem Run.over_or_asks (r : Run) : r.outcome?.isSome ∨ ∃ q, r.request = some q := by
  obtain ⟨config, arguments, tail, began, point⟩ := r
  cases point with
  | finished outcome => exact .inl rfl
  | _ => exact .inr ⟨_, rfl⟩

/-! ## Faults of other kinds -/

/-- The faults of other kinds by which a run ends. -/
inductive Escapes (c : Config) (arguments : List String) : History → Fault → Prop
  | unannounced {f : Fault} (other : f.kind ≠ .encode) :
      Escapes c arguments [(announcing c arguments, .fault f)] f
  | unstarted {f : Fault} (other : f.kind ≠ .encode) (accident : f.kind.isSystem = false) :
      Escapes c arguments
        [(announcing c arguments, .done), (starting c arguments, .fault f)] f

theorem Trouble.kind (h : Trouble c arguments es f) : f.kind = .encode := by
  cases h with
  | met =>
    unfold lostFault
    split
    · next own => exact own
    · rfl
  | late => rfl

theorem Ending.escapes {outcome : Except Fault Unit} (h : Ending c arguments es outcome)
    (failed : outcome = .error f) (other : f.kind ≠ .encode) : Escapes c arguments es f := by
  cases h with
  | unannounced =>
    cases failed
    exact .unannounced other
  | unstarted g =>
    cases failed
    unfold Config.startFault at other ⊢
    split at other
    · exact absurd rfl other
    · next accident =>
      rw [if_neg accident]
      exact .unstarted other (Bool.eq_false_iff.mpr accident)
  | waited way code =>
    unfold outcomeOf at failed
    split at failed
    · cases failed
    · cases failed
      exact absurd rfl other
  | parted trouble parting =>
    cases failed
    exact absurd trouble.kind other

theorem Escapes.outcome (escapes : Escapes c arguments es f)
    (h : Exchange (.opened c arguments) es r) :
    r.outcome? = some (.error f) ∧ f.kind ≠ .encode := by
  cases escapes with
  | unannounced other =>
    obtain _ | ⟨-, -, _ | -⟩ := h
    exact ⟨rfl, other⟩
  | unstarted other accident =>
    obtain _ | ⟨-, -, _ | ⟨-, -, _ | -⟩⟩ := h
    refine ⟨?_, other⟩
    show some (Except.error (if f.kind.isSystem = true then _ else f)) = _
    rw [accident]
    rfl

/-- A run goes well, or ends by a fault of an encoding, or by one of exactly two others: a fault of
the listener of the announcement, and a refusal to start the process that does not come from the
operating system. Both are passed on as they are. And a run that has not come to an end asks for
something; but for eight requests, every fourth one at least is a look for something to read. -/
theorem other_fault_iff_escapes (h : Exchange (.opened c arguments) es r) :
    (∀ f, r.outcome? = some (.error f) ∧ f.kind ≠ .encode ↔ Escapes c arguments es f) ∧
      (r.outcome?.isSome ∨ ∃ q, r.request = some q) ∧ es.length ≤ 4 * es.looks + 8 := by
  refine ⟨fun f => ⟨?_, fun escapes => escapes.outcome h⟩, r.over_or_asks, ?_⟩
  · rintro ⟨ended, other⟩
    exact (h.ending ended).escapes rfl other
  · have hdepth : r.point.depth ≤ 8 := by
      unfold Point.depth
      split <;> decide
    exact Nat.le_trans h.length_le (Nat.add_le_add_left hdepth _)

/-- A program that is missing is refused by the operating system. -/
theorem missing_program_is_fault_of_encoding :
    let c : Config := { binary := "ffmpeg" }
    ∃ es r, Exchange (.opened c ["-i", "input.mp4"]) es r ∧
      es.map (·.2) = [.done, .fault ⟨.os, "[Errno 2] No such file or directory", ""⟩] ∧
      r.outcome? = some (.error
        ⟨.encode, "Could not start ffmpeg: [Errno 2] No such file or directory", ""⟩) ∧
      ∀ f, ¬ Escapes c ["-i", "input.mp4"] es f := by
  intro c
  have hex : Exchange (.opened c ["-i", "input.mp4"])
      [(_, .done), (_, .fault ⟨.os, "[Errno 2] No such file or directory", ""⟩)] _ :=
    .step rfl (.told _) (.step rfl (.refused _ _) .refl)
  obtain ⟨hescapes, -, -⟩ := other_fault_iff_escapes hex
  refine ⟨_, _, hex, rfl, ?_, ?_⟩
  · decide +kernel
  · intro f escapes
    obtain ⟨ended, other⟩ := (hescapes f).mpr escapes
    cases ended
    exact other rfl

/-- The two faults that escape, where the text of a cue holds NUL: no process can be started with
such arguments, which is no refusal of the operating system; and the listener of the announcement
fails. -/
theorem text_with_nul_is_no_fault_of_encoding :
    let c : Config := { binary := "ffmpeg" }
    let cue : Cue := { Cue.blank with text := "a\x00b" }
    let arguments := (Filter.compile "Studio.ttf" {} [cue]).encoderArguments
    let nul : Fault := ⟨.value, "embedded null byte", ""⟩
    let sink : Fault := ⟨.runtime, "sink", ""⟩
    (∃ a ∈ arguments, '\x00' ∈ a.toList) ∧
      (∃ es r, Exchange (.opened c arguments) es r ∧ es.map (·.2) = [.done, .fault nul] ∧
        r.outcome? = some (.error nul)) ∧
      ∃ es r, Exchange (.opened c arguments) es r ∧ es.map (·.2) = [.fault sink] ∧
        r.outcome? = some (.error sink) := by
  intro c cue arguments nul sink
  refine ⟨?_, ⟨_, _, .step rfl (.told _) (.step rfl (.refused _ nul) .refl), rfl, rfl⟩,
    ⟨_, _, .step rfl (.untold _ sink) .refl, rfl, rfl⟩⟩
  decide +kernel

end TimedText.Encoder
