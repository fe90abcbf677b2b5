import TimedText.CommandLine.Execution
import TimedText.Proofs.Filter.Printed
import TimedText.Proofs.Filter.Reading

/-!
# What is left of a line that is written

A line goes out without the sequences that control a terminal. It is written as it is exactly if no
such sequence begins anywhere in it (`plain_eq_self_iff`), which nothing keeps out of the text of a
cue. The first letter of an expression stays in any case, so that an expression is never mistaken
for the words that say there is none (`lineOf_eq_noOverlay_iff`).
-/

namespace TimedText

namespace Text

section Step

variable {c : Char} {cs : List Char}

theorem withoutSequences_cons (h : sequenceLength (c :: cs) = 0) :
    withoutSequences 0 (c :: cs) = c :: withoutSequences 0 cs := by
  simp only [withoutSequences, h]

theorem withoutSequences_sequence {n : Nat} (h : sequenceLength (c :: cs) = n + 1) :
    withoutSequences 0 (c :: cs) = withoutSequences n cs := by
  simp only [withoutSequences, h]

end Step

theorem length_withoutSequences_le (n : Nat) (cs : List Char) :
    (withoutSequences n cs).length ≤ cs.length := by
  induction cs generalizing n with
  | nil => exact Nat.le_refl _
  | cons c cs ih =>
    cases n with
    | succ n => exact Nat.le_succ_of_le (ih n)
    | zero =>
      cases hlen : sequenceLength (c :: cs) with
      | zero =>
        rw [withoutSequences_cons hlen]
        exact Nat.succ_le_succ (ih 0)
      | succ n =>
        rw [withoutSequences_sequence hlen]
        exact Nat.le_succ_of_le (ih n)

/-- Only a text in which no sequence begins is left as it is. -/
theorem withoutSequences_eq_self_iff (cs : List Char) :
    withoutSequences 0 cs = cs ↔ ∀ t, t <:+ cs → sequenceLength t = 0 := by
  induction cs with
  | nil =>
    refine iff_of_true rfl fun t ht => ?_
    rw [List.suffix_nil.mp ht]
    rfl
  | cons c cs ih =>
    cases hlen : sequenceLength (c :: cs) with
    | zero =>
      rw [withoutSequences_cons hlen, List.cons_inj_right, ih]
      constructor
      · intro h t ht
        rcases List.suffix_cons_iff.mp ht with rfl | ht
        · exact hlen
        · exact h t ht
      · exact fun h t ht => h t (ht.trans (List.suffix_cons c cs))
    | succ n =>
      refine iff_of_false (fun h => ?_) fun h => ?_
      · -- what is left out makes the text shorter
        have hshort := length_withoutSequences_le n cs
        rw [← withoutSequences_sequence hlen, h, List.length_cons] at hshort
        omega
      · rw [h _ List.suffix_rfl] at hlen
        cases hlen

theorem plain_eq_self_iff (s : String) :
    plain s = s ↔ ∀ t, t <:+ s.toList → sequenceLength t = 0 := by
  rw [← withoutSequences_eq_self_iff, plain, ← String.toList_inj, String.toList_ofList]

end Text

namespace Filter

/-- The expression of a graph that draws something. -/
def Graph.overlay? (g : Graph) : Option String := if g.isEmpty then none else some g.expression

/-- The encoder is asked for the expression, or for no filter at all. -/
theorem encoderArguments_eq (g : Graph) :
    g.encoderArguments =
      ["-i", inputName] ++ g.overlay?.elim [] (["-vf", ·]) ++ ["-c:a", "copy", outputName] := by
  unfold Graph.encoderArguments Graph.overlay?
  cases g.isEmpty <;> rfl

theorem exists_toList_overlay {font : String} {box : Box} {cues : List Cue} {expression : String}
    (h : (compile font box cues).overlay? = some expression) :
    ∃ rest, expression.toList = 'd' :: rest := by
  have hchars := toList_compile font box cues
  unfold Graph.overlay? Graph.isEmpty at h
  split at h
  · cases h
  · next hne =>
    cases h
    cases hshown : cues.filter fun c => !c.isBlank with
    | nil =>
      -- without a clause the expression is empty
      rw [hshown] at hchars
      exact absurd (String.isEmpty_iff.mpr (String.toList_eq_nil_iff.mp hchars)) hne
    | cons c cs =>
      have hfirst : ∃ tail, (clause font box c).toList = 'd' :: tail := by
        have hclause := toList_clause font box c []
        rw [List.append_nil] at hclause
        exact ⟨_, hclause⟩
      obtain ⟨tail, hfirst⟩ := hfirst
      rw [hchars, hshown, List.map_cons]
      cases cs with
      | nil => exact ⟨tail, by rw [List.map_nil, List.intercalate_singleton, hfirst]⟩
      | cons d ds =>
        rw [List.map_cons, List.intercalate_cons_cons, hfirst]
        exact ⟨_, rfl⟩

end Filter

namespace CommandLine.Surroundings

/-- What is said where nothing is burned in. -/
def noOverlay : String := "(no overlay stage)"

theorem filtergraph_of_written {s : Surroundings} {cues : List Cue}
    (h : Filter.IsWritten s.settings.box cues) :
    s.filtergraph cues =
      s.say ((Filter.compile (PathText.lastName s.settings.fontPath) s.settings.box
        cues).overlay?.getD noOverlay) := by
  unfold filtergraph Filter.Graph.overlay?
  simp only [Filter.compile?_eq_ok_iff.mpr ⟨h, rfl⟩]
  split <;> rfl

theorem filtergraph_of_not_written {s : Surroundings} {cues : List Cue}
    (h : ¬ Filter.IsWritten s.settings.box cues) :
    s.filtergraph cues = s.refuse (.fault Filter.notWritten) := by
  unfold filtergraph
  rcases Filter.compile?_cases (PathText.lastName s.settings.fontPath) s.settings.box cues with
    ⟨hwritten, -⟩ | ⟨-, i, hi⟩
  · exact absurd hwritten h
  · simp only [hi]
    rfl

theorem disk_filtergraph (s : Surroundings) (cues : List Cue) :
    (s.filtergraph cues).disk = s.place.disk := by
  unfold filtergraph
  simp only
  split <;> rfl

/-- No expression is written as the words that say there is none. -/
theorem lineOf_eq_noOverlay_iff (font : String) (box : Filter.Box) (cues : List Cue) :
    lineOf ((Filter.compile font box cues).overlay?.getD noOverlay) = noOverlay ++ "\n" ↔
      (Filter.compile font box cues).overlay? = none := by
  constructor
  · intro hline
    cases hoverlay : (Filter.compile font box cues).overlay? with
    | none => rfl
    | some expression =>
      obtain ⟨rest, hrest⟩ := Filter.exists_toList_overlay hoverlay
      have hchars := congrArg String.toList hline
      rw [hoverlay, Option.getD_some, lineOf, Text.plain, String.toList_ofList,
        String.toList_append, hrest, List.cons_append, Text.withoutSequences_cons rfl] at hchars
      cases hchars
  · intro hnone
    rw [hnone]
    decide +kernel

end CommandLine.Surroundings

end TimedText
