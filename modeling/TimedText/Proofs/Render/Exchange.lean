import TimedText.Proofs.Filter.Printed
import TimedText.Studio.Basic

/-!
# Exchanges of a render with the outside

A render asks and is answered. An `Exchange` is what was asked and answered on the way from one
point to another, whatever the answers were. An `Outside` is one behaviour of everything that a
render deals with: the font file, the encoder with any number of log lines, and listeners that
return. It decides every answer, so that a render has one exchange with it (`Exchange.unique`).
-/

namespace TimedText.Render

/-! ## Compiling -/

theorem compiled_of_written {c : Config} {cues : List Cue} (h : Filter.IsWritten c.box cues) :
    Run.compiled c cues = .ok (Filter.compile c.font c.box cues) := by
  unfold Run.compiled
  rw [Filter.compile?_eq_ok_iff.mpr ⟨h, rfl⟩]
  rfl

theorem compiled_of_not_written {c : Config} {cues : List Cue}
    (h : ¬ Filter.IsWritten c.box cues) : Run.compiled c cues = .error Filter.notWritten := by
  unfold Run.compiled
  rcases Filter.compile?_cases c.font c.box cues with ⟨hwritten, -⟩ | ⟨-, i, hi⟩
  · exact absurd hwritten h
  · rw [hi]
    rfl

/-- Once it is to compile, a render begins to encode with the expression of its cues, or it
fails. -/
theorem compile_cases (c : Config) (o : Orchestrator) (r : Run) :
    Filter.IsWritten c.box r.cues ∧
        Run.compile c o r = Run.beginEncoding o r (Filter.compile c.font c.box r.cues) ∨
      ¬ Filter.IsWritten c.box r.cues ∧
        Run.compile c o r = Run.fail o (r.ended "compile") Filter.notWritten := by
  unfold Run.compile
  by_cases hwritten : Filter.IsWritten c.box r.cues
  · rw [compiled_of_written hwritten]
    exact .inl ⟨hwritten, rfl⟩
  · rw [compiled_of_not_written hwritten]
    exact .inr ⟨hwritten, rfl⟩

/-! ## Exchanges -/

/-- What was asked and answered between two points of a render. What is readable beside the render
is carried along; nobody else changes it. -/
inductive Exchange (c : Config) :
    Orchestrator → Run → List (Request × Reply) → Orchestrator → Run → Prop
  | refl {o : Orchestrator} {r : Run} : Exchange c o r [] o r
  | step {o o' : Orchestrator} {r r' : Run} {q : Request} {reply : Reply}
      {es : List (Request × Reply)} (asks : r.request c = some q)
      (rest : Exchange c (r.resume c o reply).1 (r.resume c o reply).2.1 es o' r') :
      Exchange c o r ((q, reply) :: es) o' r'

/-- The state that listeners are told of. -/
def Request.stateTold : Request → Option State
  | .tellState s => some s
  | _ => none

/-- The failure that listeners are told of. -/
def Request.failureTold : Request → Option (Option String)
  | .tellFailure message => some message
  | _ => none

/-- The states that listeners were told of. -/
def statesTold (es : List (Request × Reply)) : List State := es.filterMap (·.1.stateTold)

/-- The failures that listeners were told of. -/
def failuresTold (es : List (Request × Reply)) : List (Option String) :=
  es.filterMap (·.1.failureTold)

theorem statesTold_cons (q : Request) (reply : Reply) (es : List (Request × Reply)) :
    statesTold ((q, reply) :: es) = q.stateTold.toList ++ statesTold es := by
  unfold statesTold
  rw [List.filterMap_cons]
  cases q.stateTold <;> rfl

theorem failuresTold_cons (q : Request) (reply : Reply) (es : List (Request × Reply)) :
    failuresTold ((q, reply) :: es) = q.failureTold.toList ++ failuresTold es := by
  unfold failuresTold
  rw [List.filterMap_cons]
  cases q.failureTold <;> rfl

/-! ## The outside -/

/-- How everything that a render deals with behaves while the render goes on. -/
structure Outside where
  font : Except Fault Bytes
  /-- How the next file is taken in, -/
  stage : Except Fault Unit
  /-- and how the one after it is. -/
  stageNext : Except Fault Unit
  /-- The log events that the encoder still has to tell, by kind and message. -/
  lines : List (String × String)
  encode : Except Fault Unit
  read : Except Fault Bytes

namespace Outside

/-- The answer to a request, and what is to come after it. Listeners return, and so does whoever
keeps the metrics. -/
def answer (x : Outside) : Request → Reply × Outside
  | .readFont => (Studio.replyOfBytes x.font, x)
  | .stage .. => (Studio.replyOf x.stage, { x with stage := x.stageNext })
  | .encode _ =>
    match x.lines with
    | [] => (Studio.replyOf x.encode, x)
    | (kind, message) :: lines => (.line kind message, { x with lines })
  | .read _ => (Studio.replyOfBytes x.read, x)
  | .turn | .tellState _ | .tellProgress _ | .tellFailure _ | .record _ => (.done, x)

/-- Whether the answers of an exchange are those of an outside. -/
def Gives : Outside → List (Request × Reply) → Prop
  | _, [] => True
  | x, (q, reply) :: es => reply = (x.answer q).1 ∧ (x.answer q).2.Gives es

/-- How the files are taken in: the first fault on the way, if there is one. A font that the system
refuses is a fault of staging. -/
def staged (x : Outside) : Except Fault Unit := do
  let _ ← x.font.mapError fun f =>
    if f.kind.isSystem then ⟨.staging, "Font resource unreadable: " ++ f.message, ""⟩ else f
  x.stage
  x.stageNext

/-- What the encoder's work comes to. A result that is not there is a fault of encoding. -/
def encoded (x : Outside) : Except Fault Bytes := do
  x.encode
  x.read.mapError fun f =>
    if f.kind = .notFound then ⟨.encode, "Output missing after encode: " ++ f.message, ""⟩ else f

/-- What a render comes to whose cues are compiled like this: the bytes that are read at the end, or
the first fault on the way. -/
def result (x : Outside) (compiled : Except Fault Filter.Graph) : Except Fault Bytes := do
  x.staged
  let _ ← compiled
  x.encoded

/-- Whether everything that the outside has to do succeeds, and these bytes are read. -/
def Succeeds (x : Outside) (data : Bytes) : Prop :=
  (∃ font, x.font = .ok font) ∧ x.stage = .ok () ∧ x.stageNext = .ok () ∧ x.encode = .ok () ∧
    x.read = .ok data

/-- The states between staging and the last one. -/
def statesBetween (x : Outside) (compiled : Except Fault Filter.Graph) : List State :=
  match x.staged with
  | .error _ => []
  | .ok () => .compiling :: match compiled with
    | .error _ => []
    | .ok _ => [.encoding]

theorem staged_eq_ok_iff {x : Outside} :
    x.staged = .ok () ↔ (∃ font, x.font = .ok font) ∧ x.stage = .ok () ∧ x.stageNext = .ok () := by
  obtain ⟨font, stage, stageNext, lines, encode, read⟩ := x
  constructor
  · intro h
    cases font with
    | error f => cases h
    | ok font =>
      cases stage with
      | error f => cases h
      | ok => exact ⟨⟨font, rfl⟩, rfl, h⟩
  · rintro ⟨⟨bytes, rfl⟩, rfl, rfl⟩
    rfl

theorem encoded_eq_ok_iff {x : Outside} {data : Bytes} :
    x.encoded = .ok data ↔ x.encode = .ok () ∧ x.read = .ok data := by
  unfold encoded
  rw [bind_eq_ok]
  constructor
  · rintro ⟨_, hencode, hread⟩
    exact ⟨hencode, mapError_eq_ok.mp hread⟩
  · rintro ⟨hencode, hread⟩
    exact ⟨(), hencode, mapError_eq_ok.mpr hread⟩

theorem succeeds_iff {x : Outside} {data : Bytes} :
    x.Succeeds data ↔ x.staged = .ok () ∧ x.encoded = .ok data := by
  rw [staged_eq_ok_iff, encoded_eq_ok_iff]
  exact ⟨fun ⟨h1, h2, h3, h4, h5⟩ => ⟨⟨h1, h2, h3⟩, h4, h5⟩,
    fun ⟨⟨h1, h2, h3⟩, h4, h5⟩ => ⟨h1, h2, h3, h4, h5⟩⟩

end Outside

/-- A render that is over has had only one exchange with an outside. -/
theorem Exchange.unique {c : Config} {o o₁ o₂ : Orchestrator} {r r₁ r₂ : Run} {x : Outside}
    {es₁ es₂ : List (Request × Reply)}
    (h₁ : Exchange c o r es₁ o₁ r₁) (g₁ : x.Gives es₁) (over₁ : r₁.request c = none)
    (h₂ : Exchange c o r es₂ o₂ r₂) (g₂ : x.Gives es₂) (over₂ : r₂.request c = none) :
    es₁ = es₂ ∧ o₁ = o₂ ∧ r₁ = r₂ := by
  induction h₁ generalizing x es₂ with
  | refl =>
    cases h₂ with
    | refl => exact ⟨rfl, rfl, rfl⟩
    | step asks rest => rw [over₁] at asks; cases asks
  | step asks rest ih =>
    cases h₂ with
    | refl => rw [over₂] at asks; cases asks
    | step asks₂ rest₂ =>
      rw [asks] at asks₂
      cases asks₂
      obtain ⟨rfl, g₁⟩ := g₁
      obtain ⟨rfl, g₂⟩ := g₂
      obtain ⟨rfl, ho, hr⟩ := ih g₁ over₁ rest₂ g₂
      exact ⟨rfl, ho, hr⟩

/-! ## Following a render to its end -/

/-- From here a render comes to its end: what listeners are told on the way, what is readable then,
and how it ended. -/
def Ends (c : Config) (x : Outside) (o : Orchestrator) (r : Run) (states : List State)
    (failures : List (Option String)) (o' : Orchestrator) (outcome : Outcome) : Prop :=
  ∃ es r', Exchange c o r es o' r' ∧ x.Gives es ∧ r'.point = .finished outcome ∧
    statesTold es = states ∧ failuresTold es = failures

section Ends

variable {c : Config} {x : Outside} {o o' : Orchestrator} {r : Run} {states : List State}
  {failures : List (Option String)} {outcome : Outcome}

theorem Ends.over : Ends c x o (r.goto (.finished outcome)) [] [] o outcome :=
  ⟨[], r.goto (.finished outcome), .refl, trivial, rfl, rfl, rfl⟩

/-- One request more. -/
theorem Ends.step (q : Request) (asks : r.request c = some q)
    (h : Ends c (x.answer q).2 (r.resume c o (x.answer q).1).1 (r.resume c o (x.answer q).1).2.1
      states failures o' outcome) :
    Ends c x o r (q.stateTold.toList ++ states) (q.failureTold.toList ++ failures) o' outcome := by
  obtain ⟨es, r', hex, hgives, hpoint, rfl, rfl⟩ := h
  exact ⟨(q, (x.answer q).1) :: es, r', .step asks hex, ⟨rfl, hgives⟩, hpoint,
    statesTold_cons _ _ _, failuresTold_cons _ _ _⟩

/-- Log lines are passed over, whether or not they tell of progress. -/
theorem Ends.lines {graph : Filter.Graph} (lines : List (String × String))
    (h : Ends c { x with lines := [] } o (r.goto (.encoding graph)) states failures o' outcome) :
    Ends c { x with lines } o (r.goto (.encoding graph)) states failures o' outcome := by
  induction lines with
  | nil => exact h
  | cons line lines ih =>
    refine .step (.encode graph.encoderArguments) rfl ?_
    show Ends c { x with lines } (Run.hear c o (r.goto (.encoding graph)) graph line.1 line.2).1
      (Run.hear c o (r.goto (.encoding graph)) graph line.1 line.2).2.1 states failures o' outcome
    unfold Run.hear
    split
    · next percent _ => exact .step (.tellProgress percent) rfl ih
    · exact ih

end Ends

end TimedText.Render
