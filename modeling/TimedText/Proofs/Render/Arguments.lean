import TimedText.Proofs.Render.Course

/-!
# What the encoder is asked for

The cues of a render are those it was given, from its first answer to its last, and a graph that it
carries is the one they compile to. So the arguments of the encoder are known when the render is
accepted, whoever answers and whatever else becomes readable meanwhile.
-/

namespace TimedText.Render

/-- The graph that a point carries. -/
def Point.graph? : Point → Option Filter.Graph
  | .enteringEncoding graph | .encoding graph | .reporting graph _ => some graph
  | _ => none

/-- A graph that the render carries is that of its cues. -/
def Run.Compiled (c : Config) (r : Run) : Prop :=
  ∀ graph, r.point.graph? = some graph → graph = Filter.compile c.font c.box r.cues

theorem Run.compiled_queue (c : Config) (source : Bytes) (cues : List Cue) :
    (Run.queue source cues).Compiled c := by
  intro graph h
  cases h

section Resume

variable (c : Config) (o : Orchestrator) (r : Run) (reply : Reply)

theorem Run.cues_resume : (r.resume c o reply).2.1.cues = r.cues := by
  obtain ⟨source, cues, metrics, point⟩ := r
  cases point with
  | enteringCompiling =>
    cases reply with
    | done =>
      simp only [Run.resume, Run.compile]
      split <;> rfl
    | _ => rfl
  | encoding graph =>
    cases reply with
    | line kind message =>
      simp only [Run.resume, Run.hear]
      split <;> rfl
    | _ => rfl
  | _ => cases reply <;> rfl

variable {c r}

/-- One answer: a graph is compiled from the cues when encoding begins, and is handed on as it
is. -/
theorem Run.Compiled.resume (h : r.Compiled c) : (r.resume c o reply).2.1.Compiled c := by
  obtain ⟨source, cues, metrics, point⟩ := r
  intro graph' hgraph
  rw [Run.cues_resume]
  cases point with
  | enteringCompiling =>
    cases reply with
    | done =>
      simp only [Run.resume] at hgraph
      rcases compile_cases c o ⟨source, cues, metrics, .enteringCompiling⟩ with
        ⟨-, hcompiled⟩ | ⟨-, hcompiled⟩
      · rw [hcompiled] at hgraph
        cases hgraph
        rfl
      · rw [hcompiled] at hgraph
        cases hgraph
    | _ => cases hgraph
  | enteringEncoding graph | reporting graph =>
    cases reply <;> first | exact h graph' hgraph | cases hgraph
  | encoding graph =>
    cases reply with
    | line kind message =>
      have hhear : (Run.hear c o ⟨source, cues, metrics, .encoding graph⟩ graph kind
          message).2.1.point.graph? = some graph := by
        unfold Run.hear
        split <;> rfl
      cases hhear.symm.trans hgraph
      exact h _ rfl
    | done => cases hgraph
    | fault f => cases hgraph
    | bytes data => exact h graph' hgraph
  | _ => cases reply <;> cases hgraph

end Resume

theorem Course.cues_eq {c : Config} {r r' : Run} {ds : List Dealing} (h : Course c r ds r') :
    r'.cues = r.cues := by
  induction h with
  | refl => rfl
  | step asks rest ih => rw [ih, Run.cues_resume]

/-- However a render is answered, the encoder is asked for what the cues compile to. -/
theorem Course.arguments_eq {c : Config} {r r' : Run} {ds : List Dealing} (h : Course c r ds r')
    (compiled : r.Compiled c) {d : Dealing} (hd : d ∈ ds) {arguments : List String}
    (asked : d.request = .encode arguments) :
    arguments = (Filter.compile c.font c.box r.cues).encoderArguments := by
  induction h with
  | refl => cases hd
  | @step r r' d' ds asks rest ih =>
    rcases List.mem_cons.mp hd with rfl | hd
    · rw [asked] at asks
      obtain ⟨source, cues, metrics, point⟩ := r
      cases point with
      | encoding graph =>
        cases asks
        rw [compiled graph rfl]
      | _ => cases asks
    · rw [ih (compiled.resume d'.seen d'.reply) hd, Run.cues_resume]

end TimedText.Render
