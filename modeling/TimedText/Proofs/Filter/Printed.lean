import Mathlib.Algebra.Group.Nat.Defs
import TimedText.Filter.Clause
import TimedText.Proofs.Cue.Values

/-!
# Which filter expressions are written

Values of a cue have a known position, so that only the lengths of numbers can keep the expression
of cues from being written (`compile?_eq_ok_iff`), and then a number is told that is not printed
(`compile?_cases`).
-/

namespace TimedText

theorem isPrinted_iff {i : Int} : IsPrinted i ↔ i.natAbs < 10 ^ maxPrintedDigits :=
  Nat.length_toDigits_le_iff (by decide) (by decide)

namespace Filter

theorem printed_eq_ok_iff {i : Int} {s : String} :
    printed i = .ok s ↔ IsPrinted i ∧ toString i = s := by
  unfold printed
  split
  · next h => exact ⟨fun heq => ⟨h, Except.ok.inj heq⟩, fun ⟨_, heq⟩ => congrArg _ heq⟩
  · next h => exact iff_of_false nofun fun ⟨hi, _⟩ => h hi

theorem printed_eq_error_iff {i : Int} {e : Obstacle} :
    printed i = .error e ↔ ¬ IsPrinted i ∧ .tooManyDigits i = e := by
  unfold printed
  split
  · next h => exact iff_of_false nofun fun ⟨hi, _⟩ => hi h
  · next h => exact ⟨fun heq => ⟨h, Except.error.inj heq⟩, fun ⟨_, heq⟩ => congrArg _ heq⟩

theorem heightOf_name (p : Position) : heightOf p.name = .ok (positionY p) := by
  cases p <;> rfl

/-- Beside the lengths of the numbers nothing keeps the clause of a cue from being written. -/
theorem clause?_eq_ok_iff {font : String} {box : Box} {c : Cue} {s : String} :
    clause? font box c.values = .ok s ↔
      (IsPrinted c.fontSize ∧ IsPrinted box.border) ∧ clause font box c = s := by
  have hheight : heightOf c.values.position = .ok (positionY c.position) := heightOf_name _
  unfold clause?
  simp only [bind_eq_ok, printed_eq_ok_iff, hheight]
  constructor
  · rintro ⟨_, ⟨hsize, rfl⟩, _, hposition, _, ⟨hborder, rfl⟩, hs⟩
    cases hposition
    exact ⟨⟨hsize, hborder⟩, Except.ok.inj hs⟩
  · rintro ⟨⟨hsize, hborder⟩, rfl⟩
    exact ⟨_, ⟨hsize, rfl⟩, _, rfl, _, ⟨hborder, rfl⟩, rfl⟩

/-- Where the clause of a cue is not written, a number is too long. -/
theorem clause?_eq_error {font : String} {box : Box} {c : Cue} {e : Obstacle}
    (h : clause? font box c.values = .error e) : ∃ i, e = .tooManyDigits i := by
  have hheight : heightOf c.values.position = .ok (positionY c.position) := heightOf_name _
  unfold clause? at h
  rw [hheight] at h
  rcases bind_eq_error.mp h with hsize | ⟨_, -, h⟩
  · exact ⟨_, (printed_eq_error_iff.mp hsize).2.symm⟩
  · rcases bind_eq_error.mp h with hposition | ⟨_, -, h⟩
    · cases hposition
    · rcases bind_eq_error.mp h with hborder | ⟨_, -, h⟩
      · exact ⟨_, (printed_eq_error_iff.mp hborder).2.symm⟩
      · cases h

/-- The fault of cues whose expression cannot be written. -/
def notWritten : Fault := ⟨.value, notPrintedMessage, ""⟩

/-- The whole numbers in the expression of cues are printed: the sizes of the letters that are to be
seen, and the border of the box behind them. -/
def IsWritten (box : Box) (cues : List Cue) : Prop :=
  ∀ c ∈ cues, c.isBlank = false → IsPrinted c.fontSize ∧ IsPrinted box.border

instance (box : Box) (cues : List Cue) : Decidable (IsWritten box cues) :=
  inferInstanceAs (Decidable (∀ c ∈ cues, _ → _))

/-- An expression is written from the values of cues exactly if the sizes of the letters that are to
be seen, and the border of the box behind them, are printed; it is the expression of these cues. -/
theorem compile?_eq_ok_iff {font : String} {box : Box} {cues : List Cue} {g : Graph} :
    compile? font box (cues.map Cue.values) = .ok g ↔
      IsWritten box cues ∧ compile font box cues = g := by
  have hshown : ((cues.map Cue.values).filter fun v => !Text.allBlank v.text) =
      (cues.filter fun c => !c.isBlank).map Cue.values := List.filter_map
  have hclause (c : Cue) (_ : c ∈ cues.filter fun c => !c.isBlank) (s : String) :
      (clause? font box ∘ Cue.values) c = .ok s ↔
        (IsPrinted c.fontSize ∧ IsPrinted box.border) ∧ clause font box c = s :=
    clause?_eq_ok_iff
  unfold compile?
  rw [hshown, List.mapM_map, bind_eq_ok]
  simp only [mapM_eq_ok_iff hclause]
  constructor
  · rintro ⟨_, ⟨hprinted, rfl⟩, hg⟩
    refine ⟨fun c hc hblank => ?_, Except.ok.inj hg⟩
    exact hprinted c (List.mem_filter.mpr ⟨hc, by rw [hblank]; rfl⟩)
  · rintro ⟨hprinted, rfl⟩
    refine ⟨_, ⟨fun c hc => ?_, rfl⟩, rfl⟩
    obtain ⟨hc, hblank⟩ := List.mem_filter.mp hc
    rw [Bool.not_eq_true'] at hblank
    exact hprinted c hc hblank

/-- The expression of cues is written, or it is told which number is too long. -/
theorem compile?_cases (font : String) (box : Box) (cues : List Cue) :
    IsWritten box cues ∧ compile? font box (cues.map Cue.values) = .ok (compile font box cues) ∨
      ¬ IsWritten box cues ∧
        ∃ i, compile? font box (cues.map Cue.values) = .error (.tooManyDigits i) := by
  by_cases hwritten : IsWritten box cues
  · exact .inl ⟨hwritten, compile?_eq_ok_iff.mpr ⟨hwritten, rfl⟩⟩
  · refine .inr ⟨hwritten, ?_⟩
    cases hcompiled : compile? font box (cues.map Cue.values) with
    | ok g => exact absurd (compile?_eq_ok_iff.mp hcompiled).1 hwritten
    | error e =>
      unfold compile? at hcompiled
      rcases bind_eq_error.mp hcompiled with hclauses | ⟨_, -, hrest⟩
      · obtain ⟨v, hv, hclause⟩ := exists_of_mapM_eq_error hclauses
        obtain ⟨c, -, rfl⟩ := List.mem_map.mp (List.mem_filter.mp hv).1
        obtain ⟨i, rfl⟩ := clause?_eq_error hclause
        exact ⟨i, rfl⟩
      · cases hrest

end Filter

end TimedText
