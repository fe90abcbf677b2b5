import TimedText.Render.Save
import TimedText.Proofs.Disk.Directory
import TimedText.Proofs.Disk.Resolved
import TimedText.Proofs.Except

/-!
# Files outside a directory

What is written below a directory, without double dots on the way, changes no file outside of it;
nor does making or removing directories there. A row of metrics is added to one file, and leaves the
others (`SameOutside`). Saving a video writes one file; where it fails it changes none, unless the
writing breaks off, which leaves a front of the video (`save_cases`).
-/

namespace TimedText

namespace Disk

variable {d d' d'' : Disk} {dir p o place : Path} {data : Bytes}

/-! ## One file -/

/-- One file is written, and all others are as they were. -/
def Writes (d d' : Disk) (p : Path) (data : Bytes) : Prop :=
  d'.held p = some data ∧ ∀ o, o ≠ p → d'.held o = d.held o

theorem writes_write (plain : Name.dots ∉ p) (h : d.write p data = .ok d') :
    d.Writes d' p data := by
  obtain ⟨place, htarget, rfl⟩ := write_eq_ok h
  obtain ⟨-, hlocate, hfree⟩ := target?_eq_some.mp htarget
  cases locate_plain plain hlocate
  exact ⟨held_put_file (ne_nil_of_free hfree) data, fun o ho => held_put_of_ne ho _⟩

/-- A file is written as a whole, or not at all, or up to where the writing breaks off. -/
theorem overwrite_cases (plain : Name.dots ∉ p) (d : Disk) (data : Bytes) (broken : Option Break) :
    match d.overwrite p data broken with
    | (.ok (), d') => d.Writes d' p data
    | (.error cause, d') =>
      d' = d ∨ ∃ b, broken = some b ∧ cause = b.cause ∧ d.Writes d' p (data.take b.written) := by
  cases broken with
  | none =>
    cases hwrite : d.write p data with
    | error cause => simp only [overwrite, hwrite, true_or]
    | ok d' =>
      simp only [overwrite, hwrite]
      exact writes_write plain hwrite
  | some b =>
    cases hwrite : d.write p (data.take b.written) with
    | error cause => simp only [overwrite, hwrite, true_or]
    | ok d' =>
      simp only [overwrite, hwrite]
      exact .inr ⟨b, rfl, rfl, writes_write plain hwrite⟩

/-- A row is added to the end of its file, and all others stay. -/
theorem held_withRow (plain : Name.dots ∉ p) (d : Disk) (row : Bytes) :
    (∀ o, o ≠ p → (d.withRow p row).held o = d.held o) ∧
      ((d.withRow p row).held p = d.held p ∨
        (d.withRow p row).held p = some ((d.held p).getD [] ++ row)) := by
  -- directories are made in front of the row, which changes no file
  have hmade := d.held_makeDirectories p.dropLast
  unfold withRow
  generalize d.makeDirectories p.dropLast = made at hmade
  obtain ⟨result, d₁⟩ := made
  cases result with
  | error e => exact ⟨fun o _ => hmade o, .inl (hmade p)⟩
  | ok =>
    cases happend : d₁.append p row with
    | error cause => simp only [happend]; exact ⟨fun o _ => hmade o, .inl (hmade p)⟩
    | ok d₂ =>
      obtain ⟨place, -, htarget, -⟩ := append_eq_ok happend
      cases (append_of_target htarget row).symm.trans happend
      obtain ⟨-, hlocate, hfree⟩ := target?_eq_some.mp htarget
      obtain rfl : place = p := locate_plain plain hlocate
      simp only [happend]
      refine ⟨fun o ho => (held_put_of_ne ho _).trans (hmade o), .inr ?_⟩
      rw [held_put_file (ne_nil_of_free hfree), hmade place]

/-- What is not below a directory stays where the directory is removed. -/
theorem held_remove (d : Disk) (outside : ¬ dir <+: o) : (d.remove dir).held o = d.held o := by
  have hkept (entries : List (Path × Node)) :
      (entries.filter fun e => !dir.isPrefixOf e.1).lookup o = entries.lookup o := by
    induction entries with
    | nil => rfl
    | cons entry entries ih =>
      obtain ⟨q, n⟩ := entry
      cases hq : dir.isPrefixOf q with
      | true =>
        have hne : (o == q) = false :=
          beq_false_of_ne fun heq => outside (heq ▸ List.isPrefixOf_iff_prefix.mp hq)
        rw [List.filter_cons_of_neg (by simp [hq]), ih, List.lookup_cons, hne]
      | false =>
        rw [List.filter_cons_of_pos (by simp [hq]), List.lookup_cons, List.lookup_cons, ih]
  unfold held node? remove
  rw [hkept]

/-! ## All files outside -/

/-- A file holds what it held, and perhaps more behind it; it may be new. -/
def Grown (before after : Option Bytes) : Prop :=
  after = before ∨ ∃ more, after = some (before.getD [] ++ more)

theorem Grown.trans {before between after : Option Bytes} (h : Grown before between)
    (h' : Grown between after) : Grown before after := by
  obtain rfl | ⟨more, rfl⟩ := h
  · exact h'
  · obtain rfl | ⟨rest, rfl⟩ := h'
    · exact .inr ⟨more, rfl⟩
    · exact .inr ⟨more ++ rest, by simp⟩

/-- Outside the directory every file is as it was, and none is there that was not; but for the file
of rows, if there is one, which may have grown. -/
def SameOutside (dir : Path) (rows : Option Path) (d d' : Disk) : Prop :=
  ∀ o, ¬ dir <+: o → d'.held o = d.held o ∨ rows = some o ∧ Grown (d.held o) (d'.held o)

namespace SameOutside

variable {rows : Option Path}

theorem of_same (h : ∀ o, ¬ dir <+: o → d'.held o = d.held o) : SameOutside dir rows d d' :=
  fun o ho => .inl (h o ho)

theorem refl (dir : Path) (rows : Option Path) (d : Disk) : SameOutside dir rows d d :=
  of_same fun _ _ => rfl

theorem trans (h : SameOutside dir rows d d') (h' : SameOutside dir rows d' d'') :
    SameOutside dir rows d d'' := by
  intro o ho
  rcases h o ho with hsame | ⟨hrows, hgrown⟩ <;> rcases h' o ho with hsame' | ⟨hrows', hgrown'⟩
  · exact .inl (hsame'.trans hsame)
  · exact .inr ⟨hrows', hsame ▸ hgrown'⟩
  · exact .inr ⟨hrows, hsame' ▸ hgrown⟩
  · exact .inr ⟨hrows, hgrown.trans hgrown'⟩

theorem makeDirectories (dir : Path) (rows : Option Path) (d : Disk) (p : Path) :
    SameOutside dir rows d (d.makeDirectories p).2 := of_same fun o _ => d.held_makeDirectories p o

theorem write (inside : dir <+: p) (plain : Name.dots ∉ p) (h : d.write p data = .ok d') :
    SameOutside dir rows d d' := by
  refine of_same fun o ho => (writes_write plain h).2 o ?_
  rintro rfl
  exact ho inside

/-- A row is added to the file of rows. -/
theorem withRow (plain : Name.dots ∉ p) (dir : Path) (d : Disk) (row : Bytes) :
    SameOutside dir (some p) d (d.withRow p row) := by
  intro o _
  obtain ⟨hothers, hrow⟩ := held_withRow plain d row
  by_cases ho : o = p
  · subst ho
    exact .inr ⟨rfl, hrow.imp_right fun h => ⟨row, h⟩⟩
  · exact .inl (hothers o ho)

end SameOutside

/-- Outside the directory one file is written, if it is there, and all others are as they were, but
for the file of rows. -/
structure WritesOutside (dir : Path) (rows : Option Path) (d d' : Disk) (target : Path)
    (data : Bytes) : Prop where
  written : ¬ dir <+: target → d'.held target = some data
  others : ∀ o, o ≠ target → ¬ dir <+: o →
    d'.held o = d.held o ∨ rows = some o ∧ Grown (d.held o) (d'.held o)

/-- A file is written behind what only lets the file of rows grow, and in front of what changes no
file. -/
theorem Writes.outside {d₀ d₃ : Disk} {rows : Option Path} (h : d.Writes d' p data)
    (before : SameOutside dir rows d₀ d) (after : ∀ o, ¬ dir <+: o → d₃.held o = d'.held o) :
    WritesOutside dir rows d₀ d₃ p data where
  written hp := (after p hp).trans h.1
  others o hne ho := by
    rw [(after o ho).trans (h.2 o hne)]
    exact before o ho

end Disk

/-! ## The encoder's directory -/

namespace Workspace

open Disk (SameOutside)

variable {w : Workspace} {d : Disk} {data : Bytes}

theorem sameOutside_prepare (w : Workspace) (rows : Option Path) (d : Disk) (name : Name) :
    SameOutside w.directory rows d (w.prepare d name).2 := by
  have hmade := SameOutside.makeDirectories w.directory rows d w.directory
  unfold prepare
  split <;> next h => rw [h] at hmade; exact hmade

/-- Files are staged inside the directory. -/
theorem sameOutside_stage (plain : Disk.Name.dots ∉ w.directory) (rows : Option Path) (d : Disk)
    (name : Name) (data : Bytes) : SameOutside w.directory rows d (w.stage d name data).2 := by
  have hprepared := w.sameOutside_prepare rows d name
  unfold stage
  split
  · next accepts =>
    have isName := accepts_iff.mp accepts
    split
    · next h => rw [h] at hprepared; exact hprepared
    · next d₁ h =>
      rw [h] at hprepared
      rw [isName.pathOf?]
      cases hfile : name.file? with
      | none => exact hprepared
      | some file =>
        have hpath : Disk.Name.dots ∉ w.directory ++ [file] := by
          simpa [plain] using (isName.ne_dots hfile).symm
        simp only [Option.map_some]
        split
        · next hwrite => exact hprepared.trans (.write (List.prefix_append _ _) hpath hwrite)
        · exact hprepared
  · exact .refl _ _ d

theorem sameOutside_produce {name : String} (inside : w.directory <+: PathText.join w.directory name)
    (plain : Disk.Name.dots ∉ PathText.join w.directory name) (rows : Option Path) (d : Disk)
    (data : Bytes) : SameOutside w.directory rows d (w.produce d name data) := by
  unfold produce
  split
  · next hwrite => exact .write inside plain hwrite
  · exact .refl _ _ d

theorem sameOutside_produceAll {files : List (String × Bytes)}
    (inside : ∀ file ∈ files, w.directory <+: PathText.join w.directory file.1 ∧
      Disk.Name.dots ∉ PathText.join w.directory file.1) (rows : Option Path) (d : Disk) :
    SameOutside w.directory rows d (w.produceAll d files) := by
  induction files generalizing d with
  | nil => exact .refl _ _ d
  | cons file files ih =>
    obtain ⟨hfile, hfiles⟩ := List.forall_mem_cons.mp inside
    exact (sameOutside_produce hfile.1 hfile.2 rows d file.2).trans (ih hfiles _)

theorem same_close (w : Workspace) (d : Disk) {o : Path} (outside : ¬ w.directory <+: o) :
    (w.close d).held o = d.held o := by
  unfold close
  split
  · exact Disk.held_remove d outside
  · rfl

end Workspace

/-! ## Rows of metrics -/

namespace Render.MetricsPolicy

/-- The file of rows, if rows are written and it is found. -/
def rowFile (p : MetricsPolicy) : Option Path := if p.isOn then p.file.toOption else none

theorem dots_not_mem_file {p : MetricsPolicy} {path : Path} (h : p.file = .ok path) :
    Disk.Name.dots ∉ path := by
  unfold file at h
  split at h
  · obtain ⟨names, hnames, rfl⟩ := map_eq_ok h
    exact PathText.dots_not_mem_path (PathText.dots_not_mem_follow hnames)
  · obtain ⟨names, hnames, rfl⟩ := map_eq_ok h
    exact PathText.dots_not_mem_path (PathText.dots_not_mem_resolve hnames)

theorem sameOutside_write (p : MetricsPolicy) (dir : Path) (d : Disk)
    (line : Except Fault LooseText) : Disk.SameOutside dir p.rowFile d (p.write d line).2 := by
  rcases p.disk_write d line with hsame | ⟨hon, path, hfile, hrow⟩
  · rw [hsame]
    exact .refl _ _ d
  · have hrows : p.rowFile = some path := by
      rw [rowFile, if_pos hon, hfile]
      rfl
    rw [hrow, hrows]
    exact .withRow (dots_not_mem_file hfile) dir d _

end Render.MetricsPolicy

/-! ## Saving a video -/

namespace Render

/-- A saved video is held at its path, and all other files stay. A video that is not saved changes
no file, unless the writing broke off: then a front of it is held at its path. -/
theorem Artifact.save_cases (a : Artifact) (d : Disk) (origin : PathText.Origin) (path : String)
    (broken : Option Disk.Break) :
    match a.save d origin path broken with
    | (.ok target, d') =>
      origin.resolve path = .ok target ∧ d.Writes d' (Path.ofTexts target) a.data
    | (.error e, d') =>
      (∀ o, d'.held o = d.held o) ∨ ∃ b target, broken = some b ∧ e = .disk b.cause ∧
        origin.resolve path = .ok target ∧
        d.Writes d' (Path.ofTexts target) (a.data.take b.written) := by
  unfold Artifact.save
  cases hresolve : origin.resolve path with
  | error reason => exact .inl fun _ => rfl
  | ok target =>
    have plain := PathText.dots_not_mem_path (PathText.dots_not_mem_resolve hresolve)
    have hmade := d.held_makeDirectories (Path.ofTexts target.dropLast)
    simp only
    generalize d.makeDirectories (Path.ofTexts target.dropLast) = made at hmade
    obtain ⟨result, d₁⟩ := made
    -- making directories changes no file, so what is written behind it is written to `d` as well
    have hwrites {d' : Disk} {data : Bytes} (h : d₁.Writes d' (Path.ofTexts target) data) :
        d.Writes d' (Path.ofTexts target) data :=
      ⟨h.1, fun o ho => (h.2 o ho).trans (hmade o)⟩
    cases result with
    | error e => cases e <;> exact .inl hmade
    | ok =>
      have hover := Disk.overwrite_cases plain d₁ a.data broken
      simp only
      generalize d₁.overwrite (Path.ofTexts target) a.data broken = done at hover
      obtain ⟨result, d₂⟩ := done
      cases result with
      | ok => exact ⟨rfl, hwrites hover⟩
      | error cause =>
        rcases hover with rfl | ⟨b, hb, rfl, hfront⟩
        · exact .inl hmade
        · exact .inr ⟨b, target, hb, rfl, rfl, hwrites hfront⟩

end Render

end TimedText
