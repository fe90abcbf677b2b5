import TimedText.Disk.PathText

/-!
# The encoder's directory

Files are staged into one directory and results read back from it, by name. A name is accepted if it
reads as a path of that one name, other than the two dots. Seen from outside, the directory is a
finite map from names, as the file system spells them, to bytes.
-/

namespace TimedText

/-- A directory for the encoder. An owned one is made for it and goes away with it. -/
structure Workspace where
  /-- Where the directory is on a disk. -/
  directory : Path
  /-- How the directory is written in messages. -/
  label : String
  owned : Bool := false
  deriving DecidableEq, Inhabited

namespace Workspace

open Text (Letter)

/-! ## Names -/

/-- A name that a file is asked for by. Nothing is known of it: it may be any text. -/
abbrev Name := LooseText

/-- The names that a name reads as if it is read as a path. -/
def Name.parts (name : Name) : List Name := PathText.namesOn (.char '/') (.char '.') name

/-- Whether a name is accepted: it says something, it is the last name of the path that it reads
as, and it is not one of the two dots. -/
def Accepts (name : Name) : Prop :=
  name ≠ [] ∧ (name.parts.getLast?).getD [] = name ∧ name ≠ "." ∧ name ≠ ".."

instance (name : Name) : Decidable (Accepts name) :=
  inferInstanceAs (Decidable (_ ∧ _ ∧ _ ∧ _))

/-- The name as the file system has it. It has none with the character that ends a name for it, and
none with letters that it cannot spell. -/
def Name.file? (name : Name) : Option Disk.Name :=
  if Letter.char '\x00' ∈ name then none else name.bytes?.map Disk.Name.mk

/-! ## Errors -/

/-- Why a file is not staged or not read. -/
inductive Error where
  | badName (name : Name)
  | notStaged (name : Name) (reason : Disk.Error)
  /-- The file system cannot spell the path. -/
  | notSpelled (path : LooseText)
  /-- The name holds the character that ends a name for the operating system. -/
  | nulInName
  | notProduced (name : Name)
  | notRead (name : Name) (reason : Disk.Error)
  /-- The operating system refuses to look for the name. -/
  | notLookedFor (reason : Disk.Error)
  /-- A directory is not made. -/
  | notMade (reason : Disk.Error)
  /-- Too many directories are missing one above another. -/
  | tooDeep
  deriving DecidableEq

/-- What is said about an error. -/
def Error.message : Error → LooseText
  | .badName name => ("Invalid transcoder file name: " ++ name.quoted : String)
  | .notStaged name reason => "Could not stage " ++ name ++ (": " ++ reason.message : String)
  | .notSpelled path => path.notSpelledMessage fun l => l.bytes?.isSome
  | .nulInName => "embedded null byte"
  | .notProduced name => name ++ (" was not produced by ffmpeg" : LooseText)
  | .notRead name reason => "Could not read " ++ name ++ (": " ++ reason.message : String)
  | .notLookedFor reason | .notMade reason => reason.message
  | .tooDeep => Disk.tooDeepMessage

/-! ## Places -/

/-- Where a name is on the disk, if there can be such a file. -/
def pathOf? (w : Workspace) (name : Name) : Option Path :=
  (name.parts.mapM Name.file?).map fun names =>
    if name.head? = some (.char '/') then names else w.directory ++ names

/-- How the path of a name is written. -/
def textOf (w : Workspace) (name : Name) : LooseText := (w.label ++ "/" : String) ++ name

/-- Why there can be no file of a name. -/
def noFile (w : Workspace) (name : Name) : Error :=
  match name.bytes? with
  | none => .notSpelled (w.textOf name)
  | some _ => .nulInName

/-- How a path of the disk is written that is the directory or above it: the directory's own text
without the names that the path lacks. -/
def textAbove (w : Workspace) (p : Path) : String :=
  let parts := w.label.splitOn "/"
  String.intercalate "/" (parts.take (parts.length - (w.directory.length - p.length)))

/-- Whether the directory is there. -/
def isThere (w : Workspace) (d : Disk) : Bool := d.isDirectory w.directory

/-- The files of the directory by their paths from there; none if there is no directory. -/
def files? (w : Workspace) (d : Disk) : Option (List (Path × Bytes)) :=
  if w.isThere d then some (d.filesBelow w.directory) else none

/-! ## Staging and reading -/

/-- Makes the directory if it is missing, so that a file can be staged. -/
def prepare (w : Workspace) (d : Disk) (name : Name) : Except Error Unit × Disk :=
  match d.makeDirectories w.directory with
  | (.ok (), d) => (.ok (), d)
  | (.error (.refused cause p), d) => (.error (.notStaged name ⟨cause, w.textAbove p⟩), d)
  | (.error .tooDeep, d) => (.error .tooDeep, d)

/-- Writes a file of the directory. The second part is the disk after the call, on which the
directory may have been made even when the file was not written. -/
def stage (w : Workspace) (d : Disk) (name : Name) (data : Bytes) : Except Error Unit × Disk :=
  if Accepts name then
    match w.prepare d name with
    | (.error e, d) => (.error e, d)
    | (.ok (), d) =>
      match w.pathOf? name with
      | none => (.error (w.noFile name), d)
      | some path =>
        match d.write path data with
        | .ok d => (.ok (), d)
        | .error cause => (.error (.notStaged name ⟨cause, w.textOf name⟩), d)
  else (.error (.badName name), d)

/-- The bytes of a file of the directory. `denied` says that the file is there but may not be
opened. -/
def readUnless (denied : Bool) (w : Workspace) (d : Disk) (name : Name) : Except Error Bytes :=
  if Accepts name then
    match w.pathOf? name with
    | none => .error (.notProduced name)
    | some path =>
      match d.access path with
      | .error .nameTooLong => .error (.notLookedFor ⟨.nameTooLong, w.textOf name⟩)
      | .ok (_, some (.file data)) =>
        if denied then .error (.notRead name ⟨.permission, w.textOf name⟩) else .ok data
      | _ => .error (.notProduced name)
  else .error (.badName name)

/-- The bytes of a file of the directory, all of whose files may be opened. -/
def read (w : Workspace) (d : Disk) (name : Name) : Except Error Bytes :=
  w.readUnless false d name

/-! ## From outside -/

/-- Makes a directory inside the directory, from outside: its path is read from there, and the
directories above it are made if they are missing. -/
def makeDirectory (w : Workspace) (d : Disk) (path : String) : Except Error Unit × Disk :=
  if '\x00' ∈ path.toList then (.error .nulInName, d)
  else
    match d.makeNewDirectory (PathText.join w.directory path) with
    | (.ok (), d) => (.ok (), d)
    | (.error (.refused cause _), d) => (.error (.notMade ⟨cause, w.textOf path⟩), d)
    | (.error .tooDeep, d) => (.error .tooDeep, d)

/-- Takes an owned directory away. -/
def close (w : Workspace) (d : Disk) : Disk := if w.owned then d.remove w.directory else d

/-- A file that the encoder itself writes into its directory. -/
def produce (w : Workspace) (d : Disk) (name : String) (data : Bytes) : Disk :=
  match d.write (PathText.join w.directory name) data with
  | .ok d => d
  | .error _ => d

end Workspace

end TimedText
