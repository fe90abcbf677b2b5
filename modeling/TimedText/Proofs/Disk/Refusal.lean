import Mathlib.Data.List.Basic
import TimedText.Studio.Engine
import TimedText.Proofs.Disk.Contents
import TimedText.Proofs.Disk.Outside

/-!
# Refusals of the encoder's directory

Staging a file stores its bytes or changes no file, and reading one gives the bytes that are there
or none, whatever the disk looks like: the directory may be missing, a file may be in its way, or a
directory may have the name. `Stages` and `Reads` have a constructor for each of the endings.

What is refused is told as a fault of staging, or as a file that is not found. Four endings are
told otherwise. A name with NUL, or with letters that cannot be spelled, is accepted and then
refused by the operating system's interface, before any file is written. Where too many directories
are missing none is made. And a name or a path that is too long is refused when it is looked for
(`other_fault_of_directory_iff`).
-/

namespace TimedText

namespace Disk

variable {d d' : Disk} {p place : Path} {data : Bytes}

/-- What was written to a path is what it leads to, and no other file is changed. -/
theorem access_of_write (h : d.write p data = .ok d') :
    ∃ place, d'.access p = .ok (place, some (.file data)) ∧
      ∀ o, o ≠ place → d'.held o = d.held o := by
  obtain ⟨place, htarget, rfl⟩ := write_eq_ok h
  obtain ⟨-, -, hfree⟩ := target?_eq_some.mp htarget
  -- the path leads where it led before
  have htarget' := (target?_put_file hfree data p).trans htarget
  obtain ⟨hfits, hlocate, -⟩ := target?_eq_some.mp htarget'
  refine ⟨place, access_eq_ok.mpr ⟨hfits, hlocate, ?_⟩, fun o ho => held_put_of_ne ho _⟩
  rw [node?_put, if_pos ⟨rfl, ne_nil_of_free hfree⟩]

/-- A name behind a path is too long on the way to a directory, or below it. -/
theorem locate_concat_tooLong {here names : Path} {name : Name} (plain : name ≠ .dots) :
    d.locate here (names ++ [name]) = .error .nameTooLong ↔
      d.locate here names = .error .nameTooLong ∨
        ∃ place, d.locate here names = .ok place ∧ d.node? place = some .directory ∧
          maxNameBytes < name.bytes.length := by
  cases hplace : d.locate here names with
  | error cause =>
    rw [locate_append_error hplace]
    constructor
    · exact .inl
    · rintro (h | ⟨place, h, -⟩)
      · exact h
      · cases h
  | ok place =>
    rw [locate_append hplace, locate]
    constructor
    · intro h
      refine .inr ⟨place, rfl, ?_⟩
      split at h
      · cases h
      · cases h
      · next hnode =>
        rw [if_neg plain] at h
        split at h
        · next long => exact ⟨hnode, long⟩
        · cases h
    · rintro (h | ⟨place', h, hnode, long⟩)
      · cases h
      · cases h
        rw [hnode]
        simp only [if_neg plain, if_pos long]

end Disk

namespace Workspace

open Text (Letter)
open PathText (nulFault tooDeepFault)

variable {w : Workspace} {d d' : Disk} {name : Name} {file : Disk.Name} {data : Bytes}

/-! ## Names that are no names of files -/

/-- What is said of a path that cannot be spelled. -/
def spellingFault (w : Workspace) (name : Name) : Fault :=
  ⟨.other "UnicodeEncodeError", (w.textOf name).notSpelledMessage fun l => l.bytes?.isSome, ""⟩

theorem escaped_ofText (s : String) : LooseText.escaped s = s := by
  have hchars (cs : List Char) : (cs.map Letter.char).flatMap Letter.escaped = cs := by
    induction cs with
    | nil => rfl
    | cons c cs ih => rw [List.map_cons, List.flatMap_cons, ih]; rfl
  unfold LooseText.escaped LooseText.ofText
  rw [hchars, String.ofList_toList]

theorem fault_of_noFile (w : Workspace) (name : Name) :
    Studio.stagingFault (w.noFile name) =
      if name.bytes? = none then w.spellingFault name else nulFault := by
  unfold noFile
  cases name.bytes? with
  | none =>
    simp only [Studio.stagingFault, Error.message, escaped_ofText, spellingFault, if_true]
  | some bytes =>
    simp only [Studio.stagingFault, Error.message, escaped_ofText, nulFault, reduceCtorEq, if_false]

theorem fault_of_notLookedFor (reason : Disk.Error) :
    Studio.readingFault (.notLookedFor reason) = ⟨.os, reason.message, ""⟩ := by
  simp only [Studio.readingFault, Error.message, escaped_ofText]

theorem Name.file?_eq_none : name.file? = none ↔ Letter.char '\x00' ∈ name ∨ name.bytes? = none := by
  unfold file?
  split
  · next nul => simp [nul]
  · next clean => simp [clean]

/-! ## Staging -/

/-- How staging a file ends, and the disk behind it. -/
inductive Stages (w : Workspace) (d : Disk) (name : Name) (data : Bytes) :
    Except Error Unit → Disk → Prop
  | refused (bad : ¬ IsName name) : Stages w d name data (.error (.badName name)) d
  /-- There is no directory, and none can be made, -/
  | unmade (isName : IsName name) {cause : Disk.Cause} {above : Path}
      (blocked : (d.makeDirectories w.directory).1 = .error (.refused cause above)) :
      Stages w d name data (.error (.notStaged name ⟨cause, w.textAbove above⟩)) (w.ready d)
  /-- or too many above it would have to be made. -/
  | tooDeep (isName : IsName name) (deep : d.IsTooDeep w.directory) :
      Stages w d name data (.error .tooDeep) (w.ready d)
  /-- There is no such file. -/
  | unnamed (isName : IsName name) (made : (d.makeDirectories w.directory).1 = .ok ())
      (none : name.file? = none) : Stages w d name data (.error (w.noFile name)) (w.ready d)
  | unwritten (isName : IsName name) {file : Disk.Name} (hfile : name.file? = some file)
      {cause : Disk.Cause} (lost : (w.ready d).write (w.directory ++ [file]) data = .error cause) :
      Stages w d name data (.error (.notStaged name ⟨cause, w.textOf name⟩)) (w.ready d)
  | written (isName : IsName name) {file : Disk.Name} (hfile : name.file? = some file) {d' : Disk}
      (kept : (w.ready d).write (w.directory ++ [file]) data = .ok d') :
      Stages w d name data (.ok ()) d'

theorem stages (w : Workspace) (d : Disk) (name : Name) (data : Bytes) :
    Stages w d name data (w.stage d name data).1 (w.stage d name data).2 := by
  by_cases isName : IsName name
  · cases hmade : d.makeDirectories w.directory with
    | mk result ready =>
      have hready : w.ready d = ready := congrArg Prod.snd hmade
      unfold stage prepare
      rw [if_pos (accepts_iff.mpr isName), hmade, ← hready]
      cases result with
      | error e =>
        cases e with
        | refused cause p => exact .unmade isName (congrArg Prod.fst hmade)
        | tooDeep =>
          exact .tooDeep isName (Disk.makeDirectories_eq_tooDeep_iff.mp (congrArg Prod.fst hmade))
      | ok =>
        rw [isName.pathOf?]
        cases hfile : name.file? with
        | none => exact .unnamed isName (congrArg Prod.fst hmade) hfile
        | some file =>
          simp only [Option.map_some]
          cases hwrite : (w.ready d).write (w.directory ++ [file]) data with
          | error cause => exact .unwritten isName hfile hwrite
          | ok d' => exact .written isName hfile hwrite
  · rw [stage_of_not_isName isName]
    exact .refused isName

namespace Stages

variable {answer : Except Error Unit}

/-- A file that is not staged changes no file, though directories may have been made for it. -/
theorem held_of_error (h : Stages w d name data answer d') {e : Error} (failed : answer = .error e)
    (o : Path) : d'.held o = d.held o := by
  cases h with
  | refused => rfl
  | written => cases failed
  | _ => exact d.held_makeDirectories w.directory o

/-- What was staged is read back, and all other files stay. -/
theorem read_of_ok (h : Stages w d name data answer d') (done : answer = .ok ()) :
    w.read d' name = .ok data ∧
      ∃ path place, w.pathOf? name = some path ∧ d'.access path = .ok (place, some (.file data)) ∧
        ∀ o, o ≠ place → d'.held o = d.held o := by
  cases h with
  | written isName hfile kept =>
    obtain ⟨place, haccess, hothers⟩ := Disk.access_of_write kept
    have hpath : w.pathOf? name = some _ := isName.pathOf?.trans (congrArg _ hfile)
    refine ⟨?_, _, place, hpath, haccess, ?_⟩
    · unfold Workspace.read readUnless
      rw [if_pos (accepts_iff.mpr isName), hpath]
      simp only [haccess]
      rfl
    · exact fun o ho => (hothers o ho).trans (d.held_makeDirectories w.directory o)
  | _ => cases done

/-- The two endings that are no faults of staging. -/
theorem cases_of_other (h : Stages w d name data answer d') {e : Error} (failed : answer = .error e)
    (other : (Studio.stagingFault e).kind ≠ .staging) :
    e = w.noFile name ∧ IsName name ∧ (d.makeDirectories w.directory).1 = .ok () ∧
        name.file? = none ∨
      e = .tooDeep ∧ IsName name ∧ d.IsTooDeep w.directory := by
  cases h with
  | unnamed isName made none =>
    cases failed
    exact .inl ⟨rfl, isName, made, none⟩
  | tooDeep isName deep =>
    cases failed
    exact .inr ⟨rfl, isName, deep⟩
  | written => cases failed
  | _ =>
    cases failed
    exact absurd rfl other

end Stages

/-! ## Reading -/

/-- A file is not even looked for: the text of its path is too long, or a name on the way to the
directory is, or its own name, if the directory is there. -/
def Overlong (w : Workspace) (d : Disk) (file : Disk.Name) : Prop :=
  Disk.maxPathBytes < Disk.textBytes (w.directory ++ [file]) ∨
    d.locate [] w.directory = .error .nameTooLong ∨
    ∃ home, d.locate [] w.directory = .ok home ∧ d.node? home = some .directory ∧
      Disk.maxNameBytes < file.bytes.length

theorem access_tooLong (plain : file ≠ .dots) :
    d.access (w.directory ++ [file]) = .error .nameTooLong ↔ w.Overlong d file := by
  rw [Disk.access_eq_error, Disk.locate_concat_tooLong plain]
  unfold Overlong
  by_cases hlength : Disk.maxPathBytes < Disk.textBytes (w.directory ++ [file])
  · simp [hlength]
  · simp [hlength]

/-- How reading a file ends. -/
inductive Reads (denied : Bool) (w : Workspace) (d : Disk) (name : Name) :
    Except Error Bytes → Prop
  | refused (bad : ¬ IsName name) : Reads denied w d name (.error (.badName name))
  /-- There is no such file, or the path leads nowhere, or to a directory. -/
  | missing (none : ∀ path place data, w.pathOf? name = some path →
      d.access path ≠ .ok (place, some (.file data))) :
      Reads denied w d name (.error (.notProduced name))
  | tooLong (isName : IsName name) {file : Disk.Name} (hfile : name.file? = some file)
      (long : w.Overlong d file) :
      Reads denied w d name (.error (.notLookedFor ⟨.nameTooLong, w.textOf name⟩))
  | closed (unreadable : denied = true) :
      Reads denied w d name (.error (.notRead name ⟨.permission, w.textOf name⟩))
  | found (readable : denied = false) (isName : IsName name) {path place : Path} {data : Bytes}
      (hpath : w.pathOf? name = some path) (there : d.access path = .ok (place, some (.file data))) :
      Reads denied w d name (.ok data)

theorem reads (denied : Bool) (w : Workspace) (d : Disk) (name : Name) :
    Reads denied w d name (w.readUnless denied d name) := by
  unfold readUnless
  by_cases isName : IsName name
  · rw [if_pos (accepts_iff.mpr isName)]
    have hpath := isName.pathOf? (w := w)
    cases hfile : name.file? with
    | none =>
      rw [hfile, Option.map_none] at hpath
      rw [hpath]
      exact .missing fun path place data h => absurd (hpath.symm.trans h) nofun
    | some file =>
      rw [hfile, Option.map_some] at hpath
      rw [hpath]
      simp only
      split
      · next lost => exact .tooLong isName hfile ((access_tooLong (isName.ne_dots hfile)).mp lost)
      · next place data there =>
        cases denied
        · exact .found rfl isName hpath there
        · exact .closed rfl
      · next none =>
        refine .missing fun path place data h there => ?_
        obtain rfl : w.directory ++ [file] = path := Option.some.inj (hpath.symm.trans h)
        exact none place data there
  · rw [if_neg (mt accepts_iff.mp isName)]
    exact .refused isName

namespace Reads

variable {denied : Bool} {answer : Except Error Bytes}

/-- The one ending that is not told as a file that is not found. -/
theorem tooLong_of_other (h : Reads denied w d name answer) {e : Error} (failed : answer = .error e)
    (other : (Studio.readingFault e).kind ≠ .notFound) :
    e = .notLookedFor ⟨.nameTooLong, w.textOf name⟩ ∧ IsName name ∧
      ∃ file, name.file? = some file ∧ w.Overlong d file := by
  cases h with
  | tooLong isName hfile long =>
    cases failed
    exact ⟨rfl, isName, _, hfile, long⟩
  | found => cases failed
  | _ =>
    cases failed
    exact absurd rfl other

end Reads

/-! ## The faults -/

theorem stage_of_noFile (isName : IsName name)
    (made : (d.makeDirectories w.directory).1 = .ok ()) (none : name.file? = none) :
    (w.stage d name data).1 = .error (w.noFile name) := by
  cases hmade : d.makeDirectories w.directory with
  | mk result ready =>
    rw [hmade] at made
    subst made
    unfold stage prepare
    rw [if_pos (accepts_iff.mpr isName), hmade, isName.pathOf?, none]
    rfl

theorem stage_of_tooDeep (isName : IsName name) (deep : d.IsTooDeep w.directory) :
    (w.stage d name data).1 = .error .tooDeep := by
  replace deep := Disk.makeDirectories_eq_tooDeep_iff.mpr deep
  cases hmade : d.makeDirectories w.directory with
  | mk result ready =>
    rw [hmade] at deep
    subst deep
    unfold stage prepare
    rw [if_pos (accepts_iff.mpr isName), hmade]

theorem readUnless_of_overlong {denied : Bool} (isName : IsName name)
    (hfile : name.file? = some file) (long : w.Overlong d file) :
    w.readUnless denied d name = .error (.notLookedFor ⟨.nameTooLong, w.textOf name⟩) := by
  unfold readUnless
  rw [if_pos (accepts_iff.mpr isName), isName.pathOf?, hfile]
  simp only [Option.map_some, (access_tooLong (isName.ne_dots hfile)).mpr long]

/-- Staging a file either stores its bytes, so that they are read back and no other file is changed,
or fails and changes no file; a name that is refused changes nothing at all. Reading gives the bytes
at the name's path, if that may be opened. Of all that can fail, three things are told otherwise
than as a fault of staging: a name that cannot be spelled, and else a name with NUL, as soon as the
directory is there or made; and a directory that is missing with too many above it. One is told
otherwise than as a file that is not found: a name or a path that is too long. -/
theorem other_fault_of_directory_iff (w : Workspace) (d : Disk) (name : Name) (data : Bytes)
    (denied : Bool) :
    let answer := (w.stage d name data).1
    let after := (w.stage d name data).2
    (answer = .ok () → w.read after name = .ok data ∧
      ∃ path place, w.pathOf? name = some path ∧ after.access path = .ok (place, some (.file data)) ∧
        ∀ p, p ≠ place → after.held p = d.held p) ∧
    (∀ e, answer = .error e → ∀ p, after.held p = d.held p) ∧
    (¬ IsName name → answer = .error (.badName name) ∧ after = d) ∧
    (∀ f, (∃ e, answer = .error e ∧ Studio.stagingFault e = f ∧ f.kind ≠ .staging) ↔
      f = (if name.bytes? = none then w.spellingFault name else nulFault) ∧ IsName name ∧
          (d.makeDirectories w.directory).1 = .ok () ∧
          (Letter.char '\x00' ∈ name ∨ name.bytes? = none) ∨
        f = tooDeepFault ∧ IsName name ∧ d.IsTooDeep w.directory) ∧
    (∀ bytes, w.readUnless denied d name = .ok bytes ↔
      denied = false ∧ IsName name ∧
        ∃ path place, w.pathOf? name = some path ∧ d.access path = .ok (place, some (.file bytes))) ∧
    ∀ f, (∃ e, w.readUnless denied d name = .error e ∧ Studio.readingFault e = f ∧
        f.kind ≠ .notFound) ↔
      f = ⟨.os, (Disk.Error.mk .nameTooLong (w.textOf name)).message, ""⟩ ∧ IsName name ∧
        ∃ file, name.file? = some file ∧ w.Overlong d file := by
  intro answer after
  have hstages : Stages w d name data answer after := w.stages d name data
  have hreads := reads denied w d name
  refine ⟨hstages.read_of_ok, fun e failed => hstages.held_of_error failed, ?_, ?_, ?_, ?_⟩
  · intro bad
    have hrefused := stage_of_not_isName (w := w) (d := d) bad data
    exact ⟨congrArg Prod.fst hrefused, congrArg Prod.snd hrefused⟩
  · intro f
    constructor
    · rintro ⟨e, failed, rfl, other⟩
      rcases hstages.cases_of_other failed other with ⟨rfl, isName, made, none⟩ | ⟨rfl, deep⟩
      · exact .inl ⟨fault_of_noFile w name, isName, made, Name.file?_eq_none.mp none⟩
      · exact .inr ⟨rfl, deep⟩
    · rintro (⟨rfl, isName, made, unnamed⟩ | ⟨rfl, isName, deep⟩)
      · refine ⟨w.noFile name, stage_of_noFile isName made (Name.file?_eq_none.mpr unnamed),
          fault_of_noFile w name, ?_⟩
        split <;> nofun
      · exact ⟨.tooDeep, stage_of_tooDeep isName deep, rfl, nofun⟩
  · intro bytes
    constructor
    · intro done
      rw [done] at hreads
      cases hreads with
      | found readable isName hpath there => exact ⟨readable, isName, _, _, hpath, there⟩
    · rintro ⟨rfl, isName, path, place, hpath, there⟩
      unfold readUnless
      rw [if_pos (accepts_iff.mpr isName), hpath]
      simp only [there]
      rfl
  · intro f
    constructor
    · rintro ⟨e, failed, rfl, other⟩
      obtain ⟨rfl, hname⟩ := hreads.tooLong_of_other failed other
      exact ⟨fault_of_notLookedFor _, hname⟩
    · rintro ⟨rfl, isName, file, hfile, long⟩
      exact ⟨_, readUnless_of_overlong isName hfile long, fault_of_notLookedFor _, nofun⟩

/-- The directory is made for the first file that is staged, and a directory that has the file's
name is left as it is. -/
theorem file_in_missing_directory_is_read_back :
    let w : Workspace := { directory := ["a", "work"], label := "a/work" }
    let taken : Disk := ⟨[(["a"], .directory), (["a", "work"], .directory),
      (["a", "work", "x"], .directory), (["a", "work", "y"], .file [1])]⟩
    w.read (w.stage {} "x" [3]).2 "x" = .ok [3] ∧
      (w.stage taken "x" [3]).1 = .error (.notStaged "x" ⟨.isDirectory, "a/work/x"⟩) ∧
      (w.stage taken "x" [3]).2.held ["a", "work", "y"] = some [1] := by
  intro w taken
  have htaken : (w.stage taken "x" [3]).1 =
      .error (.notStaged "x" ⟨.isDirectory, "a/work/x"⟩) := by decide +kernel
  obtain ⟨hstored, -⟩ := other_fault_of_directory_iff w {} "x" [3] false
  obtain ⟨-, hkept, -⟩ := other_fault_of_directory_iff w taken "x" [3] false
  exact ⟨(hstored (by decide +kernel)).1, htaken, (hkept _ htaken _).trans (by decide +kernel)⟩

/-- A name with NUL and a name that cannot be spelled are staged in an empty directory, and a name
of 256 characters is looked for: none of the faults is one of those that are expected. -/
theorem names_refused_by_the_system :
    let w : Workspace := { directory := ["work"], label := "work" }
    let d : Disk := ⟨[(["work"], .directory)]⟩
    let long : Name := List.replicate 256 (.char 'a')
    (∃ e, (w.stage d "a\x00b" [120]).1 = .error e ∧
        Studio.stagingFault e = ⟨.value, "embedded null byte", ""⟩) ∧
      (∃ e, (w.stage d [.half 0] [120]).1 = .error e ∧
        Studio.stagingFault e = ⟨.other "UnicodeEncodeError",
          "'utf-8' codec can't encode character '\\ud800' in position 5: surrogates not allowed",
          ""⟩) ∧
      ∃ e, w.read d long = .error e ∧ (Studio.readingFault e).kind = .os := by
  intro w d long
  have hname : IsName long := by decide +kernel
  have hfile : long.file? = some ⟨List.replicate 256 97⟩ := by decide +kernel
  have hlong : w.Overlong d ⟨List.replicate 256 97⟩ := .inr (.inr ⟨["work"], by decide +kernel⟩)
  exact ⟨⟨.nulInName, by decide +kernel⟩, ⟨w.noFile [.half 0], by decide +kernel⟩,
    _, readUnless_of_overlong hname hfile hlong, rfl⟩

end Workspace

end TimedText
