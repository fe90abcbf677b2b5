import TimedText.Render.Metrics
import TimedText.Proofs.Disk.Frame
import TimedText.Proofs.Disk.Name

/-!
# The encoder's directory on a disk

A directory stays at its place whatever is written. Staging a file under one name, and writing rows
of metrics, leaves the files of other names alone. What the encoder itself writes can go anywhere:
behind it a place holds what was written there last, and if nothing was, what it held before.
-/

namespace TimedText

/-! ## Rows of metrics -/

/-- The disk with a row at the end of the file, as far as it does not refuse. -/
def Disk.withRow (d : Disk) (path : Path) (row : Bytes) : Disk :=
  match d.makeDirectories path.dropLast with
  | (.error _, d) => d
  | (.ok (), d) =>
    match d.append path row with
    | .error _ => d
    | .ok d => d

theorem Disk.append_of_target {d : Disk} {p place : Path} (h : d.target? p = some place)
    (data : Bytes) :
    d.append p data = .ok (d.put place (.file ((d.held place).getD [] ++ data))) := by
  obtain ⟨hlength, hlocate, hfree⟩ := target?_eq_some.mp h
  unfold append held
  rw [access_eq_ok.mpr ⟨hlength, hlocate, rfl⟩]
  cases hnode : d.node? place with
  | none => rfl
  | some n =>
    cases n with
    | directory => exact absurd hnode hfree
    | file old => rfl

/-- A row can be written to the path, and goes to the place. -/
def Disk.Accepts (d : Disk) (path place : Path) : Prop :=
  (d.makeDirectories path.dropLast).1 = .ok () ∧
    (d.makeDirectories path.dropLast).2.target? path = some place

/-- The file can be opened. -/
def Disk.Opens (d : Disk) (path : Path) : Prop := ∃ place, d.Accepts path place

namespace Render.MetricsPolicy

variable {p : MetricsPolicy} {d : Disk} {path : Path} {line : Except Fault LooseText} {f : Fault}

/-- What of a line reaches the file: nothing, if it cannot be written. -/
def rowBytes (line : Except Fault LooseText) : Bytes := (line.bind encoded).toOption.getD []

theorem disk_append (d : Disk) (path : Path) (line : Except Fault LooseText) :
    (append d path line).2 = d.withRow path (rowBytes line) := by
  unfold append Disk.withRow rowBytes
  generalize d.makeDirectories path.dropLast = made
  obtain ⟨result, d₁⟩ := made
  cases result with
  | error e => cases e <;> rfl
  | ok =>
    cases hline : line.bind encoded with
    | error f =>
      show _ = match d₁.append path [] with | .error _ => d₁ | .ok d => d
      cases happend : d₁.append path [] <;> simp only [happend]
    | ok bytes =>
      show _ = match d₁.append path bytes with | .error _ => d₁ | .ok d => d
      cases happend : d₁.append path bytes <;> simp only [happend]

/-- A line that cannot be written is told of only if the file can be opened. -/
theorem append_eq_error_iff : (append d path line).1 = .error f ↔
    d.IsTooDeep path.dropLast ∧ f = PathText.tooDeepFault ∨
      d.Opens path ∧ line.bind encoded = .error f := by
  rw [← Disk.makeDirectories_eq_tooDeep_iff]
  unfold append Disk.Opens Disk.Accepts
  generalize d.makeDirectories path.dropLast = made
  obtain ⟨result, d₁⟩ := made
  cases result with
  | error e =>
    cases e with
    | tooDeep =>
      constructor
      · rintro ⟨⟩
        exact .inl ⟨rfl, rfl⟩
      · rintro (⟨-, rfl⟩ | ⟨⟨_, h, _⟩, _⟩)
        · rfl
        · cases h
    | refused cause q =>
      refine iff_of_false nofun ?_
      rintro (⟨h, -⟩ | ⟨⟨_, h, _⟩, _⟩) <;> cases h
  | ok =>
    rw [or_iff_right fun h => nomatch h.1]
    cases hline : line.bind encoded with
    | ok bytes =>
      refine iff_of_false ?_ nofun
      simp only
      split <;> nofun
    | error g =>
      cases htarget : d₁.target? path with
      | some place =>
        simp only [Disk.append_of_target htarget, Except.error.injEq]
        exact (and_iff_right ⟨place, trivial, rfl⟩).symm
      | none =>
        refine iff_of_false ?_ fun ⟨⟨_, _, h⟩, _⟩ => nomatch h
        cases happend : d₁.append path [] with
        | error cause => simp only [happend]; nofun
        | ok d₂ =>
          obtain ⟨place, content, hsome, -⟩ := Disk.append_eq_ok happend
          rw [htarget] at hsome
          cases hsome

/-- A line that can be written is a row at the end of the file, if there is a way to the file. -/
theorem append_of_encoded {bytes : Bytes} (h : line.bind encoded = .ok bytes)
    (shallow : ¬ d.IsTooDeep path.dropLast) : append d path line = (.ok (), d.withRow path bytes) := by
  have hrow : rowBytes line = bytes := by rw [rowBytes, h]; rfl
  refine Prod.ext ?_ ((disk_append d path line).trans (by rw [hrow]))
  cases hresult : (append d path line).1 with
  | ok => rfl
  | error f =>
    rcases append_eq_error_iff.mp hresult with ⟨deep, -⟩ | ⟨-, hfault⟩
    · exact absurd deep shallow
    · rw [h] at hfault
      cases hfault

/-- A line changes a disk at most by a row at the end of the file. -/
theorem disk_write (p : MetricsPolicy) (d : Disk) (line : Except Fault LooseText) :
    (p.write d line).2 = d ∨ p.isOn = true ∧ ∃ path, p.file = .ok path ∧
      (p.write d line).2 = d.withRow path (rowBytes line) := by
  unfold write
  cases hon : p.isOn with
  | false => exact .inl rfl
  | true =>
    cases hfile : p.file with
    | error reason => exact .inl rfl
    | ok path => exact .inr ⟨rfl, path, rfl, disk_append d path line⟩

end Render.MetricsPolicy

/-- Rows are written to no file at the place or below. -/
def Render.MetricsPolicy.Avoids (m : Render.MetricsPolicy) (o : Path) : Prop :=
  m.isOn = true → ∀ path, m.file = .ok path → Disk.Name.dots ∉ path ∧ ¬ o <+: path

theorem Disk.leaves_withRow {d : Disk} {path o : Path} (plain : Disk.Name.dots ∉ path)
    (other : ¬ o <+: path) (row : Bytes) : d.Leaves (d.withRow path row) o := by
  have hdirs : d.Leaves (d.makeDirectories path.dropLast).2 o :=
    d.leaves_makeDirectories (fun h => plain (List.dropLast_subset path h))
      (fun h => other (h.trans (List.dropLast_prefix path)))
  unfold withRow
  generalize d.makeDirectories path.dropLast = made at hdirs
  obtain ⟨result, d₁⟩ := made
  cases result with
  | error e => exact hdirs
  | ok =>
    cases happend : d₁.append path row with
    | error cause => simpa only [happend] using hdirs
    | ok d₂ =>
      simp only [happend]
      obtain ⟨place, content, htarget, rfl⟩ := Disk.append_eq_ok happend
      exact hdirs.trans (.put (Disk.target?_eq_some.mp htarget).2.2
        (Disk.ne_of_target plain other htarget) _)

theorem Render.MetricsPolicy.Avoids.leaves {m : Render.MetricsPolicy} {o : Path}
    (h : m.Avoids o) (d : Disk) (line : Except Fault LooseText) :
    d.Leaves (m.write d line).2 o := by
  rcases m.disk_write d line with hsame | ⟨hon, path, hfile, hrow⟩
  · rw [hsame]
    exact .refl d o
  · rw [hrow]
    obtain ⟨hplain, hother⟩ := h hon path hfile
    exact Disk.leaves_withRow hplain hother _

/-! ## The encoder's directory -/

namespace Workspace

variable {w : Workspace} {d d' : Disk} {home : Path} {name : Name} {file : Disk.Name}

/-- The directory is at a place of the disk. -/
def IsAt (w : Workspace) (d : Disk) (home : Path) : Prop :=
  d.access w.directory = .ok (home, some .directory)

instance (w : Workspace) (d : Disk) (home : Path) : Decidable (w.IsAt d home) :=
  decidable_of_iff ((d.access w.directory).toOption = some (home, some .directory)) (by
    unfold IsAt
    cases d.access w.directory <;> simp [Except.toOption])

theorem IsAt.grows (h : w.IsAt d home) (grows : d.Grows d') : w.IsAt d' home := by
  obtain ⟨hlength, hplace, hnode⟩ := Disk.access_eq_ok.mp h
  exact Disk.access_eq_ok.mpr ⟨hlength, Disk.locate_of_grows grows hplace, grows home hnode⟩

/-- A name of the directory leads to its place below it, as far as names may be that long. -/
theorem IsAt.locate (h : w.IsAt d home) (plain : file ≠ .dots) {place : Path}
    (found : d.locate [] (w.directory ++ [file]) = .ok place) : place = home ++ [file] := by
  obtain ⟨-, hplace, hnode⟩ := Disk.access_eq_ok.mp h
  rw [Disk.locate_append hplace] at found
  exact Disk.locate_plain (by simpa using plain.symm) found

theorem IsAt.makeDirectories (h : w.IsAt d home) : d.makeDirectories w.directory = (.ok (), d) := by
  have haccess : d.access w.directory = .ok (home, some .directory) := h
  apply Disk.makeDirectories_of_isDirectory
  unfold Disk.isDirectory
  rw [haccess]

theorem IsAt.prepare (h : w.IsAt d home) (name : Name) : w.prepare d name = (.ok (), d) := by
  rw [Workspace.prepare, h.makeDirectories]

/-- Staging a file leaves those of other names alone. -/
theorem IsAt.leaves_stage (h : w.IsAt d home) {other : Disk.Name} (hne : name.file? ≠ some other)
    (data : Bytes) : d.Leaves (w.stage d name data).2 (home ++ [other]) := by
  unfold stage
  split
  · next accepts =>
    have isName := accepts_iff.mp accepts
    rw [h.prepare, isName.pathOf?]
    cases hfile : name.file? with
    | none => exact .refl d _
    | some file =>
      simp only [Option.map_some]
      cases hwrite : d.write (w.directory ++ [file]) data with
      | error cause => exact .refl d _
      | ok d' =>
        refine .write hwrite ?_
        intro htarget
        have hplace := h.locate (isName.ne_dots hfile) (Disk.target?_eq_some.mp htarget).2.1
        simp only [List.append_cancel_left_eq, List.cons.injEq, and_true] at hplace
        exact hne (hplace ▸ hfile)
  · exact .refl d _

/-- A name of the directory leads to its place, if it is not too long. -/
theorem IsAt.locate_file (h : w.IsAt d home) (plain : file ≠ .dots)
    (short : ¬ Disk.maxNameBytes < file.bytes.length) :
    d.locate [] (w.directory ++ [file]) = .ok (home ++ [file]) := by
  obtain ⟨-, hplace, hnode⟩ := Disk.access_eq_ok.mp h
  rw [Disk.locate_append hplace, Disk.locate, hnode]
  simp only [if_neg plain, if_neg short, Disk.locate]

/-- What is read back under a name is what is held at its place. -/
theorem IsAt.read (h : w.IsAt d home) (isName : IsName name) (hfile : name.file? = some file)
    (short : ¬ Disk.maxNameBytes < file.bytes.length)
    (fits : ¬ Disk.maxPathBytes < Disk.textBytes (w.directory ++ [file])) :
    w.read d name =
      match d.held (home ++ [file]) with
      | some data => .ok data
      | none => .error (.notProduced name) := by
  have hlocate := h.locate_file (isName.ne_dots hfile) short
  unfold Workspace.read readUnless Disk.held
  rw [if_pos (accepts_iff.mpr isName), isName.pathOf?, hfile]
  simp only [Option.map_some, Disk.access_eq_ok.mpr ⟨fits, hlocate, rfl⟩]
  cases d.node? (home ++ [file]) with
  | none => rfl
  | some n => cases n <;> rfl

/-! ## Files that the encoder writes -/

section Produce

variable {name : String}

theorem produce_of_target {place : Path} (h : d.target? (PathText.join w.directory name) = some place)
    (data : Bytes) : w.produce d name data = d.put place (.file data) := by
  unfold produce
  rw [Disk.write_of_target h]

theorem produce_of_no_target (h : d.target? (PathText.join w.directory name) = none)
    (data : Bytes) : w.produce d name data = d := by
  unfold produce
  cases hwrite : d.write (PathText.join w.directory name) data with
  | error cause => rfl
  | ok d' =>
    obtain ⟨place, htarget, -⟩ := Disk.write_eq_ok hwrite
    rw [h] at htarget
    cases htarget

/-- What is written last to a place, if anything is. -/
def lastWrite (w : Workspace) (d : Disk) (o : Path) : List (String × Bytes) → Option Bytes
  | [] => none
  | (name, data) :: rest =>
    (w.lastWrite d o rest).or
      (if d.target? (PathText.join w.directory name) = some o then some data else none)

/-- The disk behind all that the encoder writes. -/
def produceAll (w : Workspace) (d : Disk) (files : List (String × Bytes)) : Disk :=
  files.foldl (fun d (name, data) => w.produce d name data) d

theorem target?_produce (w : Workspace) (d : Disk) (name : String) (data : Bytes) (p : Path) :
    (w.produce d name data).target? p = d.target? p := by
  cases htarget : d.target? (PathText.join w.directory name) with
  | none => rw [produce_of_no_target htarget]
  | some place =>
    rw [produce_of_target htarget]
    exact Disk.target?_put_file (Disk.target?_eq_some.mp htarget).2.2 data p

theorem lastWrite_produce (w : Workspace) (d : Disk) (name : String) (data : Bytes) (o : Path)
    (files : List (String × Bytes)) :
    w.lastWrite (w.produce d name data) o files = w.lastWrite d o files := by
  induction files with
  | nil => rfl
  | cons file files ih => rw [lastWrite, ih, target?_produce, lastWrite]

theorem grows_produce (w : Workspace) (d : Disk) (name : String) (data : Bytes) :
    d.Grows (w.produce d name data) := by
  cases htarget : d.target? (PathText.join w.directory name) with
  | none => rw [produce_of_no_target htarget]; exact fun _ h => h
  | some place =>
    rw [produce_of_target htarget]
    exact Disk.grows_put (Disk.target?_eq_some.mp htarget).2.2 _

theorem held_produce (w : Workspace) (d : Disk) (name : String) (data : Bytes) (o : Path)
    (below : o ≠ []) :
    (w.produce d name data).held o =
      if d.target? (PathText.join w.directory name) = some o then some data else d.held o := by
  cases htarget : d.target? (PathText.join w.directory name) with
  | none => rw [produce_of_no_target htarget]; rfl
  | some place =>
    rw [produce_of_target htarget, Disk.held, Disk.node?_put]
    by_cases ho : o = place
    · subst ho
      simp [below]
    · have : ¬ (some place = some o) := fun h => ho (Option.some.inj h).symm
      rw [if_neg (fun h => ho h.1), if_neg this, Disk.held]

theorem grows_produceAll (w : Workspace) (d : Disk) (files : List (String × Bytes)) :
    d.Grows (w.produceAll d files) := by
  induction files generalizing d with
  | nil => exact fun _ h => h
  | cons file files ih =>
    exact fun p hp => ih _ p (w.grows_produce d file.1 file.2 p hp)

/-- What was written last is held; and if nothing was, what was there before is. -/
theorem held_produceAll (w : Workspace) (d : Disk) (files : List (String × Bytes)) (o : Path)
    (below : o ≠ []) : (w.produceAll d files).held o = (w.lastWrite d o files).or (d.held o) := by
  induction files generalizing d with
  | nil => rfl
  | cons file files ih =>
    obtain ⟨name, data⟩ := file
    have hrest := ih (w.produce d name data)
    rw [lastWrite_produce, held_produce w d name data o below] at hrest
    rw [lastWrite, Option.or_assoc]
    refine hrest.trans ?_
    split <;> rfl

end Produce

end Workspace

end TimedText
