import TimedText.CommandLine.Execution
import TimedText.Proofs.Cue.Option
import TimedText.Proofs.Filter.Printed

/-!
# Sizes that are typed

A whole number that is read from text has no more digits than are printed. So where cues are typed
on a command line, nothing but the border of the box behind them can keep their expression from
being written (`isWritten_iff_of_readCues`).
-/

namespace TimedText

theorem Double.ofDigits_lt_pow {ds : List Nat} (h : ∀ d ∈ ds, d < 10) :
    ofDigits ds < 10 ^ ds.length := by
  -- the digits that were read before stand in front of those that follow
  have hfold (n : Nat) : ds.foldl (fun n d => 10 * n + d) n < (n + 1) * 10 ^ ds.length := by
    induction ds generalizing n with
    | nil => simp
    | cons d ds ih =>
      obtain ⟨hd, hds⟩ := List.forall_mem_cons.mp h
      calc
        _ < (10 * n + d + 1) * 10 ^ ds.length := ih hds (10 * n + d)
        _ ≤ ((n + 1) * 10) * 10 ^ ds.length := Nat.mul_le_mul_right _ (by omega)
        _ = (n + 1) * 10 ^ (d :: ds).length := by
          rw [List.length_cons, Nat.pow_succ', Nat.mul_assoc]
  exact (hfold 0).trans_eq (by rw [Nat.zero_add, Nat.one_mul])

theorem Double.asciiDigit_lt {c : Char} {d : Nat} (h : asciiDigit c = some d) : d < 10 := by
  unfold asciiDigit at h
  split at h
  · next hrange =>
    have hc : c.toNat ≤ '9'.toNat := hrange.2
    cases h
    have hnine : '9'.toNat = 57 := rfl
    have hzero : '0'.toNat = 48 := rfl
    omega
  · cases h

namespace Field

theorem plainInteger_printed {negative : Bool} {cs : List Char} {i : Int}
    (h : plainInteger negative cs = .ok i) : IsPrinted i := by
  unfold plainInteger at h
  generalize (cs.span fun c => (Double.asciiDigit c).isSome) = parts at h
  obtain ⟨ds, rest⟩ := parts
  simp only at h
  split at h
  · cases h
  split at h
  · cases h
  next hlength =>
  split at h
  · cases h
  have hdigits : ∀ d ∈ ds.filterMap Double.asciiDigit, d < 10 := by
    intro d hd
    obtain ⟨c, -, hc⟩ := List.mem_filterMap.mp hd
    exact Double.asciiDigit_lt hc
  have hbound : Double.ofDigits (ds.filterMap Double.asciiDigit) < 10 ^ maxPrintedDigits :=
    Nat.lt_of_lt_of_le (Double.ofDigits_lt_pow hdigits)
      (Nat.pow_le_pow_right (by decide) ((List.length_filterMap_le _ _).trans
        ((Nat.le_add_right _ _).trans (Nat.le_of_not_lt hlength))))
  rw [isPrinted_iff, ← Except.ok.inj h]
  split
  · rwa [Int.natAbs_neg, Int.natAbs_natCast]
  · rwa [Int.natAbs_natCast]

theorem integerOfText_printed {text : String} {i : Int} (h : integerOfText text = .ok i) :
    IsPrinted i := by
  unfold integerOfText at h
  simp only at h
  split at h
  · exact plainInteger_printed h
  · exact plainInteger_printed h
  · cases h

end Field

namespace CommandLine

/-- The size that is typed, or else the one that letters have where none is. -/
theorem fontSize_printed {w : Words} {size : Int} (h : w.fontSize = .ok size) : IsPrinted size := by
  unfold Words.fontSize optional at h
  split at h
  · next text _ =>
    unfold readFontSize at h
    obtain ⟨n, hread, hrange⟩ := bind_eq_ok.mp h
    have hprinted : IsPrinted n := Field.integerOfText_printed (mapError_eq_ok.mp hread)
    split at hrange
    · cases hrange
    · cases hrange
      exact hprinted
  · cases h
    decide

theorem printed_of_readCues {w : Words} {style : Cue.Style} (hstyle : w.style = .ok style)
    {values : List String} {cues : List Cue} (hread : readCues values style = .ok cues) :
    ∀ c ∈ cues, IsPrinted c.fontSize := by
  unfold Words.style at hstyle
  obtain ⟨size, hsize, hrest⟩ := bind_eq_ok.mp hstyle
  obtain ⟨position, -, hmade⟩ := bind_eq_ok.mp hrest
  cases hmade
  intro c hc
  obtain ⟨value, -, htyped⟩ := exists_of_mapM_eq_ok hread c hc
  have hworn := (Cue.ofOption_eq_ok_iff.mp (mapError_eq_ok.mp htyped)).2.fontSize
  -- the size of the letters is the number that was typed, which is above zero
  obtain ⟨read, hsame, hrange⟩ := bind_eq_ok.mp hworn
  cases hsame
  split at hrange
  · next hpos =>
    have hnat : (c.fontSize : Int) = size := by
      rw [← Except.ok.inj hrange]
      exact Int.toNat_of_nonneg (Int.le_of_lt hpos)
    rw [hnat]
    exact fontSize_printed hsize
  · cases hrange

/-- The expression of typed cues is written if the border of the box behind the texts is printed,
should there be a text to be seen. -/
theorem isWritten_iff_of_readCues {w : Words} {style : Cue.Style} (hstyle : w.style = .ok style)
    {values : List String} {cues : List Cue} (hread : readCues values style = .ok cues)
    (box : Filter.Box) :
    Filter.IsWritten box cues ↔ ∀ c ∈ cues, c.isBlank = false → IsPrinted box.border :=
  ⟨fun h c hc hshown => (h c hc hshown).2,
    fun h c hc hshown => ⟨printed_of_readCues hstyle hread c hc, h c hc hshown⟩⟩

end CommandLine

end TimedText
