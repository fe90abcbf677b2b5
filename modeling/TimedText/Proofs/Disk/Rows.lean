import TimedText.Proofs.Disk.Directory

/-!
# A file that grows by rows

Where rows can be written once they can be written ever after: writing a row makes the directories
above the file and leaves them there, and the file stays where it is. So a file to which rows are
written holds what it held and behind it the rows, in the order in which they came (`Accepts.rows`).
-/

namespace TimedText

namespace Disk

variable {d : Disk} {p path place : Path}

/-! ## The directory of a file -/

theorem textBytes_append (p q : Path) : textBytes (p ++ q) = textBytes p + textBytes q := by
  induction p with
  | nil => exact (Nat.zero_add _).symm
  | cons name p ih =>
    show name.bytes.length + 1 + textBytes (p ++ q) = name.bytes.length + 1 + textBytes p + _
    omega

/-- A file is written to a directory. -/
theorem isDirectory_of_target (h : d.target? p = some place) : d.isDirectory p.dropLast = true := by
  obtain ⟨hlength, hlocate, hfree⟩ := target?_eq_some.mp h
  have hp : p ≠ [] := by
    rintro rfl
    cases hlocate
    exact hfree d.node?_nil
  rw [← List.dropLast_concat_getLast hp] at hlocate hlength
  obtain ⟨middle, hmiddle, hlast⟩ := locate_append_ok hlocate
  have haccess : d.access p.dropLast = .ok (middle, some .directory) := by
    refine access_eq_ok.mpr ⟨?_, hmiddle, (locate_cons_ok hlast).1⟩
    rw [textBytes_append] at hlength
    omega
  unfold isDirectory
  rw [haccess]

/-! ## Rows -/

theorem accepts_of_target (h : d.target? path = some place) : d.Accepts path place := by
  rw [Accepts, makeDirectories_of_isDirectory (isDirectory_of_target h)]
  exact ⟨rfl, h⟩

theorem Accepts.not_tooDeep (h : d.Accepts path place) : ¬ d.IsTooDeep path.dropLast :=
  fun deep => nomatch h.1.symm.trans (makeDirectories_eq_tooDeep_iff.mpr deep)

/-- A row is written behind what was there, and the next one can be written. -/
theorem Accepts.withRow (h : d.Accepts path place) (row : Bytes) :
    (d.withRow path row).Accepts path place ∧
      (d.withRow path row).held place = some ((d.held place).getD [] ++ row) := by
  obtain ⟨hmade, htarget⟩ := h
  have hheld := d.held_makeDirectories path.dropLast place
  unfold Disk.withRow
  generalize d.makeDirectories path.dropLast = made at hmade htarget hheld ⊢
  obtain ⟨result, d₁⟩ := made
  obtain rfl : result = .ok () := hmade
  have hfree := (target?_eq_some.mp htarget).2.2
  have hplace := ne_nil_of_free hfree
  simp only [append_of_target htarget]
  refine ⟨accepts_of_target ?_, ?_⟩
  · rw [target?_put_file hfree]
    exact htarget
  · rw [held_put_file hplace, hheld]

/-- A file holds what it held, and behind it the rows in order. -/
theorem Accepts.rows (h : d.Accepts path place) (rows : List Bytes) :
    ((rows.foldl (fun d row => d.withRow path row) d).held place).getD [] =
      (d.held place).getD [] ++ rows.flatten := by
  induction rows generalizing d with
  | nil => exact (List.append_nil _).symm
  | cons row rows ih =>
    obtain ⟨haccepts, hheld⟩ := h.withRow row
    rw [List.foldl_cons, ih haccepts, hheld, List.flatten_cons, ← List.append_assoc]
    rfl

end Disk

end TimedText
