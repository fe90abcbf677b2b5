import Mathlib.Control.Monad.Basic
import TimedText.Proofs.Disk.Directory

/-!
# The encoder's directory is a map from names to bytes

`Contents` is what the directory looks like from outside: bytes under names as the file system
spells them, and calls that stage and read are answered from it. On a directory that is there, or
that can be made, every sequence of calls is answered as the map answers it (`Usable.calls`), so
that a name is read as what was last staged under a name of its spelling. A directory that is still
to be made is not told from the one that staging makes (`Usable.calls_ready`), and on a directory
that is there one call is one step of the map (`IsAt.call`).

Names without lone halves are told apart by their spelling. Others are not: the two halves that
stand for the bytes of a character name the file of that character
(`halves_name_file_of_character`).

Files have no long names, no names that hold NUL, and none that cannot be spelled. The first is a
failure of the operating system and is left out by `Suits`; the others are refused by the program
itself, and the map refuses them too.
-/

namespace TimedText.Workspace

/-! ## Calls -/

/-- A call on the directory. -/
inductive Call where
  | stage (name : Name) (data : Bytes)
  | read (name : Name)
  deriving DecidableEq

/-- The name that a call is about. -/
def Call.name : Call → Name
  | .stage name _ => name
  | .read name => name

/-- What a call is answered: the bytes that were read, if it reads. -/
abbrev Answer := Except Error (Option Bytes)

/-- One call: its answer, and the disk behind it. -/
def call (w : Workspace) (d : Disk) : Call → Answer × Disk
  | .stage name data => ((w.stage d name data).1.map fun _ => none, (w.stage d name data).2)
  | .read name => ((w.read d name).map some, d)

/-- Calls one after another. -/
def calls (w : Workspace) : Disk → List Call → List Answer × Disk
  | d, [] => ([], d)
  | d, c :: cs =>
    ((w.call d c).1 :: (calls w (w.call d c).2 cs).1, (calls w (w.call d c).2 cs).2)

/-! ## The map -/

/-- Bytes under names, as the file system has them. -/
abbrev Contents := Disk.Name → Option Bytes

namespace Contents

/-- The answer to a call, and the map behind it. -/
def call (m : Contents) (w : Workspace) (c : Call) : Answer × Contents :=
  if IsName c.name then
    match c with
    | .stage name data =>
      match name.file? with
      | none => (.error (w.noFile name), m)
      | some file => (.ok none, fun other => if other = file then some data else m other)
    | .read name =>
      (match name.file?.bind m with
        | some data => .ok (some data)
        | none => .error (.notProduced name), m)
  else (.error (.badName c.name), m)

/-- Calls one after another. -/
def calls : Contents → Workspace → List Call → List Answer × Contents
  | m, _, [] => ([], m)
  | m, w, c :: cs =>
    ((m.call w c).1 :: (calls (m.call w c).2 w cs).1, (calls (m.call w c).2 w cs).2)

variable {w : Workspace} {m : Contents} {name : Name} {file : Disk.Name}

theorem call_of_not_isName {c : Call} (h : ¬ IsName c.name) :
    m.call w c = (.error (.badName c.name), m) := if_neg h

theorem call_read (h : IsName name) :
    m.call w (.read name) =
      (match name.file?.bind m with
        | some data => .ok (some data)
        | none => .error (.notProduced name), m) := if_pos h

theorem call_stage_of_none (h : IsName name) (none : name.file? = none) (data : Bytes) :
    m.call w (.stage name data) = (.error (w.noFile name), m) := by
  refine (if_pos h).trans ?_
  simp only [none]

theorem call_stage (h : IsName name) (hfile : name.file? = some file) (data : Bytes) :
    m.call w (.stage name data) =
      (.ok none, fun other => if other = file then some data else m other) := by
  refine (if_pos h).trans ?_
  simp only [hfile]

end Contents

/-- What a call stages under the name of a file, if that succeeds. -/
def staged (file : Disk.Name) : Call → Answer → Option Bytes
  | .stage name data, .ok _ => if name.file? = some file then some data else none
  | _, _ => none

/-- The bytes that were last staged with success under a name of this spelling, by the calls and
their answers. -/
def lastStaged (file : Disk.Name) : List (Call × Answer) → Option Bytes
  | [] => none
  | (c, answer) :: rest => (lastStaged file rest).or (staged file c answer)

theorem Contents.call_apply (m : Contents) (w : Workspace) (c : Call) (file : Disk.Name) :
    (m.call w c).2 file = (staged file c (m.call w c).1).or (m file) := by
  by_cases h : IsName c.name
  · cases c with
    | read name =>
      have h : IsName name := h
      rw [call_read h]
      rfl
    | stage name data =>
      have h : IsName name := h
      cases hfile : name.file? with
      | none =>
        rw [call_stage_of_none h hfile]
        rfl
      | some own =>
        rw [call_stage h hfile]
        simp only [staged, hfile, Option.some.injEq]
        by_cases hown : file = own
        · rw [if_pos hown, if_pos hown.symm, Option.some_or]
        · rw [if_neg hown, if_neg (Ne.symm hown), Option.none_or]
  · rw [call_of_not_isName h]
    cases c <;> rfl

/-- The map holds what was last staged, and under other names what it held before. -/
theorem Contents.calls_apply (m : Contents) (w : Workspace) (cs : List Call) (file : Disk.Name) :
    (m.calls w cs).2 file = (lastStaged file (cs.zip (m.calls w cs).1)).or (m file) := by
  induction cs generalizing m with
  | nil => rfl
  | cons c cs ih =>
    rw [calls, List.zip_cons_cons, lastStaged, Option.or_assoc, ← call_apply]
    exact ih (m.call w c).2

/-! ## What a disk holds -/

variable {w : Workspace} {d d' : Disk} {home : Path} {name : Name} {file : Disk.Name}

/-- The map that a directory is. -/
def contents (d : Disk) (home : Path) : Contents := fun file => d.held (home ++ [file])

/-- The operating system does not refuse a name: it is not too long, and no directory has it. -/
structure Suits (w : Workspace) (d : Disk) (home : Path) (file : Disk.Name) : Prop where
  short : ¬ Disk.maxNameBytes < file.bytes.length
  fits : ¬ Disk.maxPathBytes < Disk.textBytes (w.directory ++ [file])
  free : d.node? (home ++ [file]) ≠ some .directory

instance (w : Workspace) (d : Disk) (home : Path) (file : Disk.Name) :
    Decidable (w.Suits d home file) :=
  decidable_of_iff (¬ Disk.maxNameBytes < file.bytes.length ∧
      ¬ Disk.maxPathBytes < Disk.textBytes (w.directory ++ [file]) ∧
      d.node? (home ++ [file]) ≠ some .directory)
    ⟨fun h => ⟨h.1, h.2.1, h.2.2⟩, fun h => ⟨h.short, h.fits, h.free⟩⟩

theorem Suits.of_grows (h : w.Suits d home file) (same : d'.Grows d) : w.Suits d' home file :=
  ⟨h.short, h.fits, fun hdir => h.free (same _ hdir)⟩

/-- The operating system does not refuse the name of a call that is accepted. -/
def Call.Suits (c : Call) (w : Workspace) (d : Disk) (home : Path) : Prop :=
  IsName c.name → ∀ file ∈ c.name.file?, w.Suits d home file

instance (c : Call) (w : Workspace) (d : Disk) (home : Path) : Decidable (c.Suits w d home) :=
  inferInstanceAs (Decidable (_ → _))

theorem stage_of_not_isName (h : ¬ IsName name) (data : Bytes) :
    w.stage d name data = (.error (.badName name), d) := by
  unfold stage
  rw [if_neg (mt accepts_iff.mp h)]

theorem read_of_not_isName (h : ¬ IsName name) : w.read d name = .error (.badName name) := by
  unfold Workspace.read readUnless
  rw [if_neg (mt accepts_iff.mp h)]

theorem call_of_not_isName {c : Call} (h : ¬ IsName c.name) :
    w.call d c = (.error (.badName c.name), d) := by
  cases c with
  | stage name data =>
    have h : ¬ IsName name := h
    simp only [Workspace.call, stage_of_not_isName h]
    rfl
  | read name =>
    have h : ¬ IsName name := h
    simp only [Workspace.call, read_of_not_isName h]
    rfl

theorem read_of_none (h : IsName name) (none : name.file? = none) :
    w.read d name = .error (.notProduced name) := by
  unfold Workspace.read readUnless
  rw [if_pos (accepts_iff.mpr h), h.pathOf?, none]
  rfl

/-- Two names denote one file: there are paths for them, and both lead to one place. -/
def SameFile (w : Workspace) (d : Disk) (a b : Name) : Prop :=
  ∃ p q place, w.pathOf? a = some p ∧ w.pathOf? b = some q ∧
    d.locate [] p = .ok place ∧ d.locate [] q = .ok place

/-- Two names denote one file only if they are spelled alike. -/
theorem SameFile.file?_eq {a b : Name} (h : w.SameFile d a b) (ha : IsName a) (hb : IsName b) :
    ∃ file, a.file? = some file ∧ b.file? = some file := by
  obtain ⟨p, q, place, hp, hq, foundA, foundB⟩ := h
  rw [ha.pathOf?, Option.map_eq_some_iff] at hp
  rw [hb.pathOf?, Option.map_eq_some_iff] at hq
  obtain ⟨file, hfile, rfl⟩ := hp
  obtain ⟨file', hfile', rfl⟩ := hq
  -- both paths lead through the directory to one place, and from there by a name that is no dots
  obtain ⟨middle, hmiddle, hplaceA⟩ := Disk.locate_append_ok foundA
  obtain ⟨middle', hmiddle', hplaceB⟩ := Disk.locate_append_ok foundB
  cases hmiddle.symm.trans hmiddle'
  have hA := Disk.locate_plain (by simpa using (ha.ne_dots hfile).symm) hplaceA
  have hB := Disk.locate_plain (by simpa using (hb.ne_dots hfile').symm) hplaceB
  have heq : file = file' := by simpa using hA.symm.trans hB
  exact ⟨file, hfile, heq ▸ hfile'⟩

/-! ## A directory that is there -/

namespace IsAt

theorem stage (h : w.IsAt d home) (isName : IsName name) (hfile : name.file? = some file)
    (suits : w.Suits d home file) (data : Bytes) :
    w.stage d name data = (.ok (), d.put (home ++ [file]) (.file data)) := by
  have hlocate := h.locate_file (isName.ne_dots hfile) suits.short
  have htarget : d.target? (w.directory ++ [file]) = some (home ++ [file]) :=
    Disk.target?_eq_some.mpr ⟨suits.fits, hlocate, suits.free⟩
  unfold Workspace.stage
  rw [if_pos (accepts_iff.mpr isName), h.prepare, isName.pathOf?, hfile]
  simp only [Option.map_some, Disk.write_of_target htarget]

theorem stage_of_none (h : w.IsAt d home) (isName : IsName name) (none : name.file? = none)
    (data : Bytes) : w.stage d name data = (.error (w.noFile name), d) := by
  unfold Workspace.stage
  rw [if_pos (accepts_iff.mpr isName), h.prepare, isName.pathOf?, none]
  rfl

theorem contents_put (data : Bytes) :
    contents (d.put (home ++ [file]) (.file data)) home =
      fun other => if other = file then some data else contents d home other := by
  funext other
  unfold contents
  by_cases hother : other = file
  · subst hother
    simp [Disk.held, Disk.node?_put]
  · simp [hother, Disk.held, Disk.node?_put]

/-- One call is one step of the map. Directories stay what they are. -/
theorem call (h : w.IsAt d home) (c : Call) (suits : c.Suits w d home) :
    (w.call d c).1 = ((contents d home).call w c).1 ∧
      contents (w.call d c).2 home = ((contents d home).call w c).2 ∧
      d.Grows (w.call d c).2 ∧ (w.call d c).2.Grows d := by
  have keeps : d.Grows d := fun _ hp => hp
  by_cases isName : IsName c.name
  · have hsuits := suits isName
    cases c with
    | read name =>
      have isName : IsName name := isName
      rw [Contents.call_read isName]
      refine ⟨?_, rfl, keeps, keeps⟩
      show (w.read d name).map some = _
      cases hfile : name.file? with
      | none =>
        rw [read_of_none isName hfile]
        rfl
      | some file =>
        have hown : w.Suits d home file := hsuits file hfile
        rw [h.read isName hfile hown.short hown.fits, Option.bind_some, contents]
        cases d.held (home ++ [file]) <;> rfl
    | stage name data =>
      have isName : IsName name := isName
      cases hfile : name.file? with
      | none =>
        rw [Contents.call_stage_of_none isName hfile, Workspace.call, h.stage_of_none isName hfile]
        exact ⟨rfl, rfl, keeps, keeps⟩
      | some file =>
        have hown : w.Suits d home file := hsuits file hfile
        rw [Contents.call_stage isName hfile, Workspace.call, h.stage isName hfile hown]
        refine ⟨rfl, contents_put data, Disk.grows_put hown.free _, ?_⟩
        intro p hp
        rw [Disk.node?_put] at hp
        split at hp
        · cases hp
        · exact hp
  · rw [Contents.call_of_not_isName isName, call_of_not_isName isName]
    exact ⟨rfl, rfl, keeps, keeps⟩

/-- Any calls are answered as the map answers them, which the directory goes on being. -/
theorem calls (h : w.IsAt d home) (cs : List Call) (suits : ∀ c ∈ cs, c.Suits w d home) :
    (w.calls d cs).1 = ((contents d home).calls w cs).1 ∧
      contents (w.calls d cs).2 home = ((contents d home).calls w cs).2 ∧
      w.IsAt (w.calls d cs).2 home ∧ (w.calls d cs).2.Grows d := by
  induction cs generalizing d with
  | nil => exact ⟨rfl, rfl, h, fun _ hp => hp⟩
  | cons c cs ih =>
    obtain ⟨hanswer, hcontents, hgrows, hback⟩ := h.call c (suits c List.mem_cons_self)
    obtain ⟨hanswers, hafter, hat, hback'⟩ := ih (h.grows hgrows) fun c' hc' hname file hfile =>
      (suits c' (List.mem_cons_of_mem _ hc') hname file hfile).of_grows hback
    -- the map behind the first call is the directory behind it, where the other calls start
    rw [Workspace.calls, Contents.calls, ← hcontents, hanswer, hanswers]
    exact ⟨rfl, hafter, hat, fun p hp => hback p (hback' p hp)⟩

/-- A call changes no file but the one of its own name. -/
theorem changed_of_call (h : w.IsAt d home) (c : Call) :
    d.Grows (w.call d c).2 ∧
      ∀ p, (w.call d c).2.held p ≠ d.held p →
        ∃ name data file, c = .stage name data ∧ IsName name ∧ name.file? = some file ∧
          p = home ++ [file] := by
  have same : d.Grows d ∧ ∀ p, d.held p ≠ d.held p →
      ∃ name data file, c = .stage name data ∧ IsName name ∧ name.file? = some file ∧
        p = home ++ [file] :=
    ⟨fun _ hp => hp, fun _ hp => absurd rfl hp⟩
  cases c with
  | read name => exact same
  | stage name data =>
    show d.Grows (w.stage d name data).2 ∧ ∀ p, (w.stage d name data).2.held p ≠ d.held p → _
    unfold Workspace.stage
    split
    · next accepts =>
      have isName := accepts_iff.mp accepts
      rw [h.prepare, isName.pathOf?]
      cases hfile : name.file? with
      | none => exact same
      | some file =>
        simp only [Option.map_some]
        cases hwrite : d.write (w.directory ++ [file]) data with
        | error cause => exact same
        | ok d' =>
          obtain ⟨place, htarget, rfl⟩ := Disk.write_eq_ok hwrite
          obtain ⟨-, hplace, hfree⟩ := Disk.target?_eq_some.mp htarget
          cases h.locate (isName.ne_dots hfile) hplace
          refine ⟨Disk.grows_put hfree _, ?_⟩
          intro p hp
          refine ⟨name, data, file, rfl, isName, hfile, ?_⟩
          by_cases hplace : p = home ++ [file]
          · exact hplace
          · refine absurd ?_ hp
            show (d.put (home ++ [file]) (.file data)).held p = d.held p
            rw [Disk.held, Disk.node?_put, if_neg fun h => hplace h.1, Disk.held]
    · exact same

theorem changed_of_calls (h : w.IsAt d home) (cs : List Call) :
    ∀ p, (w.calls d cs).2.held p ≠ d.held p →
      ∃ name data file, .stage name data ∈ cs ∧ IsName name ∧ name.file? = some file ∧
        p = home ++ [file] := by
  induction cs generalizing d with
  | nil => exact fun _ hp => absurd rfl hp
  | cons c cs ih =>
    obtain ⟨hgrows, hchanged⟩ := h.changed_of_call c
    intro p hp
    by_cases hlater : (w.calls d (c :: cs)).2.held p = (w.call d c).2.held p
    · -- no later call changed the file, so the first one did
      obtain ⟨name, data, file, rfl, hname⟩ := hchanged p fun hnow => hp (hlater.trans hnow)
      exact ⟨name, data, file, List.mem_cons_self, hname⟩
    · obtain ⟨name, data, file, hmem, hname⟩ := ih (h.grows hgrows) p hlater
      exact ⟨name, data, file, List.mem_cons_of_mem _ hmem, hname⟩

end IsAt

/-! ## A directory that may still have to be made -/

/-- The disk with the directory, which is made if it is missing. -/
def ready (w : Workspace) (d : Disk) : Disk := (d.makeDirectories w.directory).2

/-- The directory is there or can be made, and is then at a place of the disk. Nothing is below it
as long as it is not there. -/
structure Usable (w : Workspace) (d : Disk) (home : Path) : Prop where
  made : (d.makeDirectories w.directory).1 = .ok ()
  isAt : w.IsAt (w.ready d) home
  empty : w.isThere d = false → ∀ file, d.held (home ++ [file]) = none

theorem IsAt.ready_eq (h : w.IsAt d home) : w.ready d = d := by
  unfold ready
  rw [h.makeDirectories]

theorem IsAt.usable (h : w.IsAt d home) : w.Usable d home where
  made := by rw [h.makeDirectories]
  isAt := by rw [h.ready_eq]; exact h
  empty := by
    intro missing
    have haccess : d.access w.directory = .ok (home, some .directory) := h
    unfold isThere Disk.isDirectory at missing
    rw [haccess] at missing
    cases missing

theorem contents_ready (w : Workspace) (d : Disk) (home : Path) :
    contents (w.ready d) home = contents d home := by
  funext file
  unfold contents ready
  rw [Disk.held_makeDirectories]

namespace Usable

theorem stage_ready (h : w.Usable d home) (isName : IsName name) (data : Bytes) :
    w.stage d name data = w.stage (w.ready d) name data := by
  have hprepare : w.prepare d name = (.ok (), w.ready d) := by
    unfold prepare ready
    cases hdirs : d.makeDirectories w.directory with
    | mk result d' =>
      have hmade := h.made
      rw [hdirs] at hmade
      cases hmade
      rfl
  unfold stage
  rw [if_pos (accepts_iff.mpr isName), if_pos (accepts_iff.mpr isName), hprepare,
    h.isAt.prepare]

/-- In a directory that is not there nothing is found, as in one that has just been made. -/
theorem read_ready (h : w.Usable d home) (isName : IsName name)
    (suits : ∀ file ∈ name.file?, w.Suits (w.ready d) home file) :
    w.read d name = w.read (w.ready d) name := by
  cases hfile : name.file? with
  | none => rw [read_of_none isName hfile, read_of_none isName hfile]
  | some file =>
  have hown : w.Suits (w.ready d) home file := suits file hfile
  cases hthere : w.isThere d with
  | true =>
    have hat : ∃ place, w.IsAt d place := by
      unfold isThere Disk.isDirectory at hthere
      split at hthere
      · next place haccess => exact ⟨place, haccess⟩
      · cases hthere
    obtain ⟨place, hat⟩ := hat
    rw [hat.ready_eq]
  | false =>
    have hheld : (w.ready d).held (home ++ [file]) = none := by
      unfold ready
      rw [Disk.held_makeDirectories]
      exact h.empty hthere file
    have hlost : d.access (w.directory ++ [file]) = .error .notFound := by
      have hlocate : d.locate [] (w.directory ++ [file]) = .error .notFound := by
        rcases Disk.access_of_made h.made hthere with ⟨place, haccess⟩ | haccess
        · obtain ⟨-, hplace, hnode⟩ := Disk.access_eq_ok.mp haccess
          rw [Disk.locate_append hplace, Disk.locate, hnode]
        · exact Disk.locate_append_error (Disk.locate_of_access_notFound haccess)
      unfold Disk.access
      rw [if_neg hown.fits, hlocate]
      rfl
    rw [h.isAt.read isName hfile hown.short hown.fits, hheld]
    unfold Workspace.read readUnless
    rw [if_pos (accepts_iff.mpr isName), isName.pathOf?, hfile]
    simp only [Option.map_some, hlost]

/-- Until something is staged nothing changes; what is staged first finds the directory made. -/
theorem calls_ready (h : w.Usable d home) (cs : List Call) :
    (w.calls d cs).2 = d ∨ (w.calls d cs).2 = (w.calls (w.ready d) cs).2 := by
  induction cs with
  | nil => exact .inl rfl
  | cons c cs ih =>
    by_cases isName : IsName c.name
    · cases c with
      | read name => exact ih
      | stage name data =>
        have isName : IsName name := isName
        right
        simp only [Workspace.calls, Workspace.call, h.stage_ready isName]
    · simp only [Workspace.calls, call_of_not_isName isName]
      exact ih

/-- Any calls are answered as the map answers them, which the directory goes on being. -/
theorem calls (h : w.Usable d home) (cs : List Call)
    (suits : ∀ c ∈ cs, c.Suits w (w.ready d) home) :
    (w.calls d cs).1 = ((contents d home).calls w cs).1 ∧
      contents (w.calls d cs).2 home = ((contents d home).calls w cs).2 := by
  induction cs with
  | nil => exact ⟨rfl, rfl⟩
  | cons c cs ih =>
    have hc := suits c List.mem_cons_self
    obtain ⟨hanswers, hafter⟩ := ih fun c' hc' => suits c' (List.mem_cons_of_mem _ hc')
    by_cases isName : IsName c.name
    · cases c with
      | read name =>
        have isName : IsName name := isName
        obtain ⟨hanswer, -, -, -⟩ := h.isAt.call (.read name) hc
        rw [contents_ready] at hanswer
        have hanswer : (w.call d (.read name)).1 = ((contents d home).call w (.read name)).1 := by
          rw [← hanswer]
          simp only [Workspace.call, h.read_ready isName (hc isName)]
        have hmap : ((contents d home).call w (.read name)).2 = contents d home := by
          rw [Contents.call_read isName]
        rw [Workspace.calls, Contents.calls, hmap, hanswer]
        exact ⟨congrArg _ hanswers, hafter⟩
      | stage name data =>
        have isName : IsName name := isName
        -- the first staging makes the directory, and the rest happens in one that is there
        have hready : w.calls d (.stage name data :: cs) =
            w.calls (w.ready d) (.stage name data :: cs) := by
          simp only [Workspace.calls, Workspace.call, h.stage_ready isName]
        obtain ⟨hall, hend, -, -⟩ := h.isAt.calls (.stage name data :: cs) suits
        rw [hready, ← contents_ready w]
        exact ⟨hall, hend⟩
    · rw [Workspace.calls, Contents.calls, call_of_not_isName isName,
        Contents.call_of_not_isName isName]
      exact ⟨congrArg _ hanswers, hafter⟩

/-- The directory stays usable, for all names for which it was. -/
theorem after_calls (h : w.Usable d home) (cs : List Call)
    (suits : ∀ c ∈ cs, c.Suits w (w.ready d) home) :
    w.Usable (w.calls d cs).2 home ∧ (w.ready (w.calls d cs).2).Grows (w.ready d) := by
  obtain ⟨-, -, hat, hback⟩ := h.isAt.calls cs suits
  rcases h.calls_ready cs with hsame | hmade
  · rw [hsame]
    exact ⟨h, fun _ hp => hp⟩
  · rw [hmade, hat.ready_eq]
    exact ⟨hat.usable, hback⟩

end Usable

/-- What is read under a name is what the map holds. -/
theorem Usable.read_eq (h : w.Usable d home) (isName : IsName name)
    (suits : ∀ file ∈ name.file?, w.Suits (w.ready d) home file) :
    w.read d name =
      match name.file?.bind (contents d home) with
      | some data => .ok data
      | none => .error (.notProduced name) := by
  rw [h.read_ready isName suits]
  cases hfile : name.file? with
  | none => exact read_of_none isName hfile
  | some file =>
    have hown : w.Suits (w.ready d) home file := suits file hfile
    rw [h.isAt.read isName hfile hown.short hown.fits, Option.bind_some, contents]
    cases hheld : d.held (home ++ [file]) <;>
      simp only [ready, Disk.held_makeDirectories, hheld]

theorem stage_badName_iff (data : Bytes) :
    (w.stage d name data).1 = .error (.badName name) ↔ ¬ IsName name := by
  constructor
  · intro h isName
    unfold stage prepare at h
    rw [if_pos (accepts_iff.mpr isName)] at h
    split at h
    · next e d' hprepare =>
      split at hprepare
      · cases hprepare
      · cases hprepare; cases h
      · cases hprepare; cases h
    · split at h
      · unfold noFile at h
        split at h <;> cases h
      · split at h <;> cases h
  · intro h
    rw [stage_of_not_isName h]

theorem read_badName_iff : w.read d name = .error (.badName name) ↔ ¬ IsName name := by
  constructor
  · intro h isName
    unfold Workspace.read readUnless at h
    rw [if_pos (accepts_iff.mpr isName)] at h
    split at h
    · cases h
    · split at h
      · cases h
      · cases h
      · cases h
  · intro h
    exact read_of_not_isName h

/-! ## The directory as a map -/

/-- On a directory that is there or can be made, any calls are answered as a map from names, as the
file system spells them, to bytes answers them. Behind them a name is read as what was last staged
with success under a name of its spelling, or else as what was there before; a name is refused
exactly if it is not one name by itself; two names denote one file only if they are spelled alike,
so that two texts without lone halves never do; and no file has changed but such that are right
below the directory and were staged. -/
theorem directory_is_map_of_names (usable : w.Usable d home) (cs : List Call)
    (suits : ∀ c ∈ cs, c.Suits w (w.ready d) home) :
    let after := (w.calls d cs).2
    let history := cs.zip (w.calls d cs).1
    (w.calls d cs).1 = ((contents d home).calls w cs).1 ∧
      (∀ name, IsName name → (∀ file ∈ name.file?, w.Suits (w.ready d) home file) →
        w.read after name =
          match name.file?.bind fun file => (lastStaged file history).or (contents d home file) with
          | some data => .ok data
          | none => .error (.notProduced name)) ∧
      (∀ name : Name, (∀ data, (w.stage after name data).1 = .error (.badName name) ↔
          ¬ (name ≠ [] ∧ Text.Letter.char '/' ∉ name ∧ name ≠ "." ∧ name ≠ "..")) ∧
        (w.read after name = .error (.badName name) ↔
          ¬ (name ≠ [] ∧ Text.Letter.char '/' ∉ name ∧ name ≠ "." ∧ name ≠ ".."))) ∧
      (∀ a b, IsName a → IsName b → w.SameFile after a b →
        ∃ file, a.file? = some file ∧ b.file? = some file) ∧
      (∀ s t : String, IsName s → IsName t → w.SameFile after s t → s = t) ∧
      ∀ p, after.held p ≠ d.held p →
        ∃ name data file, .stage name data ∈ cs ∧ IsName name ∧ name.file? = some file ∧
          p = home ++ [file] := by
  intro after history
  obtain ⟨hanswers, hcontents⟩ := usable.calls cs suits
  obtain ⟨husable, hback⟩ := usable.after_calls cs suits
  refine ⟨hanswers, ?_, ?_, ?_, ?_, ?_⟩
  · intro name isName hsuits
    have hread := husable.read_eq isName fun file hfile => (hsuits file hfile).of_grows hback
    have hmap : contents after home =
        fun file => (lastStaged file history).or (contents d home file) := by
      funext file
      rw [hcontents, Contents.calls_apply, ← hanswers]
    rw [hread, hmap]
  · exact fun name => ⟨fun data => stage_badName_iff data, read_badName_iff⟩
  · exact fun a b ha hb same => same.file?_eq ha hb
  · intro s t hs ht same
    obtain ⟨file, hfile, hfile'⟩ := same.file?_eq hs ht
    exact Name.file?_ofText_inj hfile hfile'
  · intro p hp
    rcases usable.calls_ready cs with hsame | hmade
    · exact absurd (congrArg (·.held p) hsame) hp
    · refine usable.isAt.changed_of_calls cs p ?_
      rw [← hmade, ready, Disk.held_makeDirectories]
      exact hp

/-- A directory that is still to be made, and calls with names that are accepted and names that are
not: a slash at the end or doubled, the two dots, and three dots, which are a name. -/
theorem missing_directory_is_map_of_names :
    let w : Workspace := { directory := ["a", "work"], label := "a/work" }
    let cs : List Call :=
      [.read "x", .stage "x/" [1], .stage ".." [2], .stage "x" [3], .stage "..." [4],
        .stage "x" [5], .stage "//x" [6], .read "x", .read "y"]
    w.isThere {} = false ∧ w.Usable {} ["a", "work"] ∧
      (∀ c ∈ cs, c.Suits w (w.ready {}) ["a", "work"]) ∧
      (w.calls {} cs).1 =
        [.error (.notProduced "x"), .error (.badName "x/"), .error (.badName ".."), .ok none,
          .ok none, .ok none, .error (.badName "//x"), .ok (some [5]),
          .error (.notProduced "y")] ∧
      w.read (w.calls {} cs).2 "..." = .ok [4] := by
  intro w cs
  have usable : w.Usable {} ["a", "work"] :=
    ⟨by decide +kernel, by decide +kernel, fun _ _ => rfl⟩
  have suits : ∀ c ∈ cs, c.Suits w (w.ready {}) ["a", "work"] := by
    decide +kernel
  obtain ⟨hanswers, hread, -⟩ := directory_is_map_of_names usable cs suits
  have hstaged : (Name.file? "...").bind (fun file => (lastStaged file (cs.zip (w.calls {} cs).1)).or
      (contents {} ["a", "work"] file)) = some [4] := by
    rw [hanswers]
    decide +kernel
  have hthree := hread "..." (by decide +kernel) (by decide +kernel)
  rw [hstaged] at hthree
  exact ⟨by decide +kernel, usable, suits, hanswers.trans (by decide +kernel), hthree⟩

/-- A character of two bytes, and the two halves that stand for these bytes, are different names
that are accepted and denote one file: what is staged under the one is read under the other. And a
name is accepted that no file has, since it holds NUL. -/
theorem halves_name_file_of_character :
    let w : Workspace := { directory := ["work"], label := "work" }
    let d : Disk := ⟨[(["work"], .directory)]⟩
    let halves : Name := [.half 0x4c3, .half 0x4a9]
    w.Usable d ["work"] ∧ IsName "\u00e9" ∧ IsName halves ∧ halves ≠ "\u00e9" ∧
      w.SameFile d "\u00e9" halves ∧ (w.stage d "\u00e9" [120]).1 = .ok () ∧
      w.read d halves = .error (.notProduced halves) ∧
      w.read (w.stage d "\u00e9" [120]).2 halves = .ok [120] ∧
      IsName "a\x00b" ∧ (w.stage d "a\x00b" [120]).1 = .error .nulInName := by
  intro w d halves
  have hat : w.IsAt d ["work"] := by decide +kernel
  exact ⟨hat.usable, by decide +kernel, by decide +kernel, by decide +kernel,
    ⟨["work", "\u00e9"], ["work", "\u00e9"], ["work", "\u00e9"], by decide +kernel⟩,
    by decide +kernel, by decide +kernel, by decide +kernel, by decide +kernel, by decide +kernel⟩

end TimedText.Workspace
