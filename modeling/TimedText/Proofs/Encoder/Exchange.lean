import TimedText.Proofs.Encoder.Pipe

/-!
# Exchanges of a run with the outside

A `History` is what a run asked and was answered up to some point, whatever the answers were: the
outside may start the process or not, show any times, have any lines to read, and fail wherever
something can fail. An `Exchange` is a history that leads from one point to another.

What a run does with the lines depends on no point it passes: `Recorded` says of every history that
the lines are told as they are read, and that the last of them are kept.
-/

namespace TimedText.Encoder

/-- How a request can be answered. To poll, kill or wait for the process does not fail, and whoever
waits is told a status. -/
inductive Request.Takes : Request → Reply → Prop
  | told (event : Event) : Takes (.emit event) .done
  | untold (event : Event) (f : Fault) : Takes (.emit event) (.fault f)
  | started (command : List String) (readable : Bool) : Takes (.start command) (.started readable)
  | refused (command : List String) (f : Fault) : Takes (.start command) (.fault f)
  | time (now : Double) : Takes .clock (.time now)
  | ready (isReady : Bool) : Takes .select (.ready isReady)
  | blind (f : Fault) : Takes .select (.fault f)
  | line (text : String) : Takes .readLine (.line text)
  | unread (f : Fault) : Takes .readLine (.fault f)
  | polled (status : Option Int) : Takes .poll (.status status)
  | killed : Takes .kill .done
  | waited (code : Int) : Takes .wait (.status (some code))

/-- What was asked and answered, in order. -/
abbrev History := List (Request × Reply)

/-- A run that has not begun. -/
def Run.opened (c : Config) (arguments : List String) : Run := { config := c, arguments }

/-- A history that leads from one point of a run to another. -/
inductive Exchange : Run → History → Run → Prop
  | refl {r : Run} : Exchange r [] r
  | step {r r' : Run} {q : Request} {reply : Reply} {es : History} (asks : r.request = some q)
      (takes : q.Takes reply) (rest : Exchange (r.resume reply) es r') :
      Exchange r ((q, reply) :: es) r'

/-- What every exchange keeps, given what is known of the past. -/
theorem Exchange.carries {Holds : History → Run → Prop}
    (step : ∀ {past r q reply}, Holds past r → r.request = some q → q.Takes reply →
      Holds (past ++ [(q, reply)]) (r.resume reply))
    {past es : History} {r r' : Run} (h : Exchange r es r') (start : Holds past r) :
    Holds (past ++ es) r' := by
  -- each answer goes from the front of what is to come to the end of the past
  induction h generalizing past with
  | refl =>
    rw [List.append_nil]
    exact start
  | step asks takes rest ih =>
    have hrest := ih (step start asks takes)
    rw [List.append_assoc, List.singleton_append] at hrest
    exact hrest

/-! ## What a history tells -/

/-- The event that is told. -/
def Request.event? : Request → Option Event
  | .emit event => some event
  | _ => none

/-- The line that is read. -/
def Reply.line? : Reply → Option Line
  | .line text => if h : text ≠ "" then some ⟨text, h⟩ else none
  | _ => none

/-- The time that the clock shows. -/
def Reply.time? : Reply → Option Double
  | .time now => some now
  | _ => none

theorem Reply.time?_eq_some {reply : Reply} {now : Double} :
    reply.time? = some now ↔ reply = .time now := by
  cases reply <;> simp [time?]

namespace History

/-- What was told. -/
def told (es : History) : List Event := es.filterMap (·.1.event?)

/-- The lines that were read. -/
def lines (es : History) : List Line := es.filterMap (·.2.line?)

/-- The times that the clock showed. The first one is when the run began. -/
def times (es : History) : List Double := es.filterMap (·.2.time?)

/-- How often the run looked for something to read. -/
def looks (es : History) : Nat := es.countP (·.1 = .select)

theorem filterMap_concat {α β : Type} (f : α → Option β) (l : List α) (a : α) :
    (l ++ [a]).filterMap f = l.filterMap f ++ (f a).toList := by
  rw [List.filterMap_append, List.filterMap_cons]
  cases f a <;> rfl

variable (es es' : History) (e : Request × Reply)

theorem told_concat : told (es ++ [e]) = es.told ++ e.1.event?.toList := filterMap_concat _ _ _

theorem lines_concat : lines (es ++ [e]) = es.lines ++ e.2.line?.toList := filterMap_concat _ _ _

/-- What is no line leaves the lines as they are. -/
theorem lines_concat_of_none {e : Request × Reply} (h : e.2.line? = none) :
    lines (es ++ [e]) = es.lines := by
  rw [lines_concat, h, Option.toList_none, List.append_nil]

theorem lines_append : lines (es ++ es') = es.lines ++ es'.lines := List.filterMap_append

theorem times_append : times (es ++ es') = es.times ++ es'.times := List.filterMap_append

theorem times_concat : times (es ++ [e]) = es.times ++ e.2.time?.toList := filterMap_concat _ _ _

theorem looks_concat : looks (es ++ [e]) = es.looks + if e.1 = .select then 1 else 0 := by
  unfold looks
  rw [List.countP_append, List.countP_singleton]
  simp

end History

/-! ## Lines -/

theorem dropWhile_newline {cs : List Char} (none : '\n' ∉ cs) :
    cs.dropWhile (· = '\n') = cs := by
  cases cs with
  | nil => rfl
  | cons c cs =>
    have hc : c ≠ '\n' := fun h => none (h ▸ List.mem_cons_self)
    simp [hc]

/-- A line as it is told has no end of line. What can be read in one piece has at most the one
behind it, and only that is left out. -/
theorem chomp_of_line {text : String} (one : '\n' ∉ text.toList.dropLast) :
    '\n' ∉ (chomp text).toList ∧ (text = chomp text ++ "\n" ∨ text = chomp text) := by
  unfold chomp
  rw [String.toList_ofList]
  rcases List.eq_nil_or_concat text.toList with hnil | ⟨cs, c, hcs⟩
  · rw [hnil]
    exact ⟨List.not_mem_nil, .inr (by rw [← String.toList_inj, hnil]; rfl)⟩
  · rw [List.concat_eq_append] at hcs
    rw [hcs, List.dropLast_concat] at one
    have hrest : '\n' ∉ cs.reverse := mt List.mem_reverse.mp one
    rw [hcs, List.reverse_concat]
    by_cases hc : c = '\n'
    · rw [List.dropWhile_cons_of_pos (by simpa using hc), dropWhile_newline hrest,
        List.reverse_reverse]
      refine ⟨one, .inl ?_⟩
      rw [← String.toList_inj, hcs, hc]
      simp
    · rw [List.dropWhile_cons_of_neg (by simpa using hc), ← List.reverse_concat,
        List.reverse_reverse]
      refine ⟨?_, .inr ?_⟩
      · simpa [one] using Ne.symm hc
      · rw [← hcs, String.ofList_toList]

section Recorded

variable {c : Config} {arguments : List String} {past es : History} {r r' : Run} {q : Request}
  {reply : Reply}

/-- A run has gone on by one answer. If a line was read, it is what is told next, and it is kept. -/
structure Run.Passes (r : Run) (line : Option Line) (r' : Run) : Prop where
  given : r'.config = r.config ∧ r'.arguments = r.arguments
  event : r'.request.bind Request.event? = line.map .ofLine
  tail : r'.tail = line.elim r.tail fun line => pushTail r.tail line.val

theorem Run.passes_turn (r : Run) : r.Passes none r.turn := by
  refine ⟨⟨rfl, rfl⟩, ?_, rfl⟩
  show (request (r.goto (if _ then _ else _))).bind _ = none
  split <;> rfl

theorem Run.passes_resume (asks : r.request = some q) (takes : q.Takes reply) :
    r.Passes reply.line? (r.resume reply) := by
  obtain ⟨config, arguments, tail, began, point⟩ := r
  cases point with
  | timing readable =>
    cases asks
    cases takes
    cases readable
    · exact ⟨⟨rfl, rfl⟩, rfl, rfl⟩
    · obtain ⟨-, hevent, -⟩ := passes_turn ⟨config, arguments, tail, _, .timing true⟩
      exact ⟨⟨rfl, rfl⟩, hevent, rfl⟩
  | checking =>
    cases asks
    cases takes
    refine ⟨⟨rfl, rfl⟩, ?_, rfl⟩
    show (request (goto _ (if _ then _ else _))).bind _ = none
    split <;> rfl
  | selecting =>
    cases asks
    cases takes with
    | ready isReady => cases isReady <;> exact ⟨⟨rfl, rfl⟩, rfl, rfl⟩
    | blind f => exact ⟨⟨rfl, rfl⟩, rfl, rfl⟩
  | reading =>
    cases asks
    cases takes with
    | line text =>
      -- the empty text is the end of the file and no line
      by_cases none : text = ""
      · subst none
        exact ⟨⟨rfl, rfl⟩, rfl, rfl⟩
      · have hline : (Reply.line text).line? = some ⟨text, none⟩ := dif_pos none
        rw [hline, resume_line rfl ⟨text, none⟩]
        exact ⟨⟨rfl, rfl⟩, rfl, by rw [Option.elim_some]⟩
    | unread f => exact ⟨⟨rfl, rfl⟩, rfl, rfl⟩
  | telling text =>
    cases asks
    cases takes with
    | told => exact passes_turn _
    | untold => exact ⟨⟨rfl, rfl⟩, rfl, rfl⟩
  | polling =>
    cases asks
    cases takes with
    | polled status =>
      cases status
      · exact passes_turn _
      · exact ⟨⟨rfl, rfl⟩, rfl, rfl⟩
  | pollingAfter f =>
    cases asks
    cases takes with
    | polled status => cases status <;> exact ⟨⟨rfl, rfl⟩, rfl, rfl⟩
  | finished => cases asks
  | _ =>
    cases asks
    cases takes <;> exact ⟨⟨rfl, rfl⟩, rfl, rfl⟩

/-- The lines that were read have been told in order behind the announcement, except for what the
run is about to tell; and the last of them are kept. -/
structure Recorded (c : Config) (arguments : List String) (es : History) (r : Run) : Prop where
  given : r.config = c ∧ r.arguments = arguments
  told : es.told ++ (r.request.bind Request.event?).toList =
    .announcement c arguments :: es.lines.map .ofLine
  tail : r.tail = lastTexts es.lines

theorem recorded_opened (c : Config) (arguments : List String) :
    Recorded c arguments [] (.opened c arguments) := ⟨⟨rfl, rfl⟩, rfl, rfl⟩

theorem Recorded.step (h : Recorded c arguments past r) (asks : r.request = some q)
    (takes : q.Takes reply) : Recorded c arguments (past ++ [(q, reply)]) (r.resume reply) := by
  obtain ⟨⟨hconfig, harguments⟩, hevent, htail⟩ := r.passes_resume asks takes
  have htold := h.told
  rw [asks, Option.bind_some] at htold
  refine ⟨⟨hconfig.trans h.given.1, harguments.trans h.given.2⟩, ?_, ?_⟩
  · rw [History.told_concat, htold, hevent, History.lines_concat]
    cases reply.line? <;> simp
  · rw [htail, h.tail, History.lines_concat]
    cases reply.line? with
    | none => simp
    | some line => rw [Option.elim_some, Option.toList_some, pushTail_lastTexts]

end Recorded

end TimedText.Encoder
