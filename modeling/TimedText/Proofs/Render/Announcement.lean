import TimedText.Proofs.Encoder.Ending
import TimedText.Proofs.Filter.Guarded
import TimedText.Proofs.Render.Arguments

/-!
# The announcement of an encoder

Before an encoder starts it announces its command line, and a render listens to that as it listens
to every other line. The texts of the cues stand in the command line, those that imitate a status
line too. Still no announcement is taken for progress, as long as the names that a studio is given
are written without a colon.
-/

namespace TimedText.Encoder

open TimedText.Filter (ColonsGuarded)

variable {c : Config} {arguments : List String}

/-- The only command that a run tells of is its announcement. -/
theorem Exchange.command_eq {es : History} {r : Run} {event : Event}
    (h : Exchange (.opened c arguments) es r) (tells : r.request = some (.emit event))
    (command : event.kind = "command") : event = .announcement c arguments := by
  have htold := h.reached.told
  rw [tells] at htold
  have hevent : event ∈ Event.announcement c arguments :: es.lines.map .ofLine := by
    rw [← htold]
    exact List.mem_append_right _ List.mem_cons_self
  rcases List.mem_cons.mp hevent with hfirst | hline
  · exact hfirst
  · -- everything else is a line of the process
    obtain ⟨line, -, rfl⟩ := List.mem_map.mp hline
    have hkind : "stderr" = "command" := command
    exact absurd hkind (by decide)

theorem colonsGuarded_announcement (binary : ':' ∉ c.binary.toList)
    (guarded : ∀ argument ∈ arguments, ColonsGuarded argument.toList) :
    ColonsGuarded (Event.announcement c arguments).message.toList := by
  show ColonsGuarded (String.intercalate " " (command c arguments)).toList
  rw [String.toList_intercalate]
  have hflags : ∀ flag ∈ ["-y", "-hide_banner"], ':' ∉ flag.toList := by decide
  apply Filter.colonsGuarded_intercalate (Filter.colonsGuarded_of_not_mem (by decide))
  intro part hpart
  obtain ⟨word, hword, rfl⟩ := List.mem_map.mp hpart
  rcases List.mem_append.mp hword with hword | hword
  · apply Filter.colonsGuarded_of_not_mem
    rcases List.mem_cons.mp hword with rfl | hword
    · exact binary
    · exact hflags word hword
  · exact guarded word hword

end TimedText.Encoder

namespace TimedText.Render

section Course

variable {c : Config} {r r' : Run} {ds : List Dealing}

theorem Course.compiled (h : Course c r ds r') (compiled : r.Compiled c) : r'.Compiled c := by
  induction h with
  | refl => exact compiled
  | @step r r' d ds asks rest ih => exact ih (compiled.resume d.seen d.reply)

theorem Run.point_of_encode {arguments : List String}
    (asks : r.request c = some (.encode arguments)) :
    ∃ graph, r.point = .encoding graph ∧ arguments = graph.encoderArguments := by
  obtain ⟨source, cues, metrics, point⟩ := r
  cases point with
  | encoding graph =>
    cases asks
    exact ⟨graph, rfl, rfl⟩
  | _ => cases asks

/-- A line that tells no progress is noted, and changes nothing. -/
theorem Run.resume_line {o : Orchestrator} {graph : Filter.Graph} {kind message : String}
    (point : r.point = .encoding graph) (quiet : Progress.ofLine? message (some o.total) = none) :
    r.resume c o (.line kind message) =
      (o, r, [Log.record .debug .render ("transcoder " ++ kind ++ ": " ++ message)]) := by
  obtain ⟨source, cues, metrics, _⟩ := r
  subst point
  simp only [resume, hear, quiet, ite_self, goto]

end Course

/-- Whatever the texts of the cues are and however long the video is, the command line that the
encoder of a render announces tells no progress: it holds no stamp, and the render that listens to
it changes nothing and goes on to want what it wanted before. -/
theorem announcement_tells_no_progress {c : Config} {e : Encoder.Config}
    (font : ':' ∉ c.font.toList) (color : ':' ∉ c.box.color.toList)
    (binary : ':' ∉ e.binary.toList) {source : Bytes} {cues : List Cue} {ds : List Dealing}
    {r : Run} (course : Course c (.queue source cues) ds r) {arguments : List String}
    (asks : r.request c = some (.encode arguments)) {es : Encoder.History} {x : Encoder.Run}
    (exchange : Encoder.Exchange (.opened e arguments) es x) {event : Encoder.Event}
    (tells : x.request = some (.emit event)) (command : event.kind = "command") :
    event.message = String.intercalate " "
        (Encoder.command e (Filter.compile c.font c.box cues).encoderArguments) ∧
      (∀ total, Progress.ofLine? event.message total = none) ∧
      ∀ o, (r.resume c o (.line event.kind event.message)).1 = o ∧
        (r.resume c o (.line event.kind event.message)).2.1 = r ∧
        ∀ percent, (r.resume c o (.line event.kind event.message)).2.1.request c ≠
          some (.tellProgress percent) := by
  obtain ⟨graph, hpoint, rfl⟩ := Run.point_of_encode asks
  have hgraph : graph = Filter.compile c.font c.box cues := by
    have hcompiled := course.compiled (Run.compiled_queue c source cues) graph
    rw [course.cues_eq, hpoint] at hcompiled
    exact hcompiled rfl
  subst hgraph
  obtain rfl := exchange.command_eq tells command
  have hguarded := Encoder.colonsGuarded_announcement binary
    (Filter.colonsGuarded_arguments font color cues)
  have hquiet := Progress.ofLine?_of_findElapsed? hguarded.findElapsed?
  refine ⟨rfl, hquiet, fun o => ?_⟩
  rw [Run.resume_line hpoint (hquiet _)]
  refine ⟨rfl, rfl, fun percent hasks => ?_⟩
  rw [asks] at hasks
  cases hasks

/-- Where everything is answered and the cues are compiled, a render comes to wait for the
encoder. -/
theorem exists_course_to_encoding (hwritten : Filter.IsWritten c.box cues) (source : Bytes)
    (o : Orchestrator) :
    ∃ ds r, Course c (.queue source cues) ds r ∧ r.request c =
      some (.encode (Filter.compile c.font c.box cues).encoderArguments) := by
  have hcompiled (r : Run) (hcues : r.cues = cues) :
      Run.compile c o r = Run.beginEncoding o r (Filter.compile c.font c.box cues) := by
    subst hcues
    exact (compile_cases c o r).elim And.right fun h => absurd hwritten h.1
  let staged : Run := (Run.enterCompiling o
    { Run.queue source cues with
      metrics := { (Run.queue source cues).metrics with duration := .double o.total } }).2.1
  have hrest : Course c staged [⟨o, .tellState .compiling, .done⟩, ⟨o, .tellState .encoding, .done⟩]
      ((Run.beginEncoding o staged (Filter.compile c.font c.box cues)).2.1.goto
        (.encoding (Filter.compile c.font c.box cues))) := by
    refine .step rfl ?_
    show Course c (Run.compile c o staged).2.1 _ _
    rw [hcompiled staged rfl]
    exact .step rfl .refl
  exact ⟨⟨o, _, .done⟩ :: ⟨o, _, .bytes []⟩ :: ⟨o, _, .done⟩ :: ⟨o, _, .done⟩ :: _, _,
    .step rfl (.step rfl (.step rfl (.step rfl hrest))), rfl⟩

/-- The text of the cue would be taken for progress if it were a line of its own. -/
theorem text_like_a_status_line_tells_no_progress :
    let text := "frame=25 time=00:00:01.00 speed=1x"
    let c : Config := { font := "Studio.ttf" }
    let e : Encoder.Config := { binary := "ffmpeg" }
    let total := Double.ofNat 4
    Progress.ofLine? text (some total) = some (.ofNat 25) ∧
      ∃ ds r arguments, Course c (.queue [1] [{ Cue.blank with text }]) ds r ∧
        r.request c = some (.encode arguments) ∧
        Progress.ofLine? (Encoder.Event.announcement e arguments).message (some total) = none ∧
        ∀ o percent, (r.resume c o (.line "command"
            (Encoder.Event.announcement e arguments).message)).2.1.request c ≠
          some (.tellProgress percent) := by
  intro text c e total
  have hwritten : Filter.IsWritten c.box [{ Cue.blank with text }] := by decide +kernel
  obtain ⟨ds, r, hcourse, hasks⟩ := exists_course_to_encoding hwritten [1] { total }
  obtain ⟨-, hquiet, hgoes⟩ := announcement_tells_no_progress (e := e) (by decide) (by decide)
    (by decide) hcourse hasks .refl rfl rfl
  exact ⟨by decide +kernel, ds, r, _, hcourse, hasks, hquiet _, fun o => (hgoes o).2.2⟩

end TimedText.Render
