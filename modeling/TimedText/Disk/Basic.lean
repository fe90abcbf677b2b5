import TimedText.Text.Letter

/-!
# Files and directories

A disk is a tree of named files and directories. Their names are bytes: of a text, its characters
are spelled in UTF-8, and 128 of the lone halves as the bytes that are no part of UTF-8. A path is
the list of names from the root, in which a double dot goes back to the directory above. Each
operation follows the names and fails for the first reason it meets: a path or a name that is too
long, a missing directory, or a file where a directory should be.
-/

namespace TimedText

/-- The contents of a file. -/
abbrev Bytes := List UInt8

/-- The bytes of a text in UTF-8. -/
def Bytes.ofText (s : String) : Bytes := s.toUTF8.toList

/-! ## Names -/

/-- The bytes that a letter is spelled by in a name. The halves from 0xDC80 on stand for the bytes
from 0x80 on. -/
def Text.Letter.bytes? : Letter → Option Bytes
  | .char c => some (String.utf8EncodeChar c)
  | .half n => if 0x480 ≤ n.val ∧ n.val < 0x500 then some [UInt8.ofNat (n.val - 0x400)] else none

namespace LooseText

/-- The bytes that a text is spelled by in a name, if it can be. -/
def bytes? (s : LooseText) : Option Bytes := (s.mapM Text.Letter.bytes?).map List.flatten

end LooseText

/-- The name of a file or directory. -/
structure Disk.Name where
  bytes : Bytes
  deriving DecidableEq, Inhabited

/-- The name that a text is. -/
def Disk.Name.ofText (s : String) : Name := ⟨Bytes.ofText s⟩

instance : Coe String Disk.Name := ⟨Disk.Name.ofText⟩

/-- The name that goes back to the directory above. -/
def Disk.Name.dots : Name := ".."

/-- Names from the root of a disk. -/
abbrev Path := List Disk.Name

/-- The path of names that are texts. -/
def Path.ofTexts (names : List String) : Path := names.map Disk.Name.ofText

/-! ## Disks -/

/-- What a path leads to. -/
inductive Node where
  | file (data : Bytes)
  | directory
  deriving DecidableEq, Inhabited

/-- Files and directories by their paths. The root is always there. -/
structure Disk where
  entries : List (Path × Node) := []
  deriving DecidableEq, Inhabited

namespace Disk

/-- Why a path cannot be used. -/
inductive Cause where
  | notFound
  | permission
  | alreadyThere
  | notDirectory
  | isDirectory
  | nameTooLong
  /-- Any other, with its number. -/
  | other (number : Nat) (text : String)
  deriving DecidableEq, Repr

/-- The number of a cause and what is said about it. -/
def Cause.describe : Cause → Nat × String
  | .notFound => (2, "No such file or directory")
  | .permission => (13, "Permission denied")
  | .alreadyThere => (17, "File exists")
  | .notDirectory => (20, "Not a directory")
  | .isDirectory => (21, "Is a directory")
  | .nameTooLong => (36, "File name too long")
  | .other number text => (number, text)

/-- A cause and the path it was met at, as the path was given. -/
structure Error where
  cause : Cause
  path : LooseText
  deriving DecidableEq, Repr

/-- What is said about an error. -/
def Error.message (e : Error) : String :=
  let (n, text) := e.cause.describe
  "[Errno " ++ toString n ++ "] " ++ text ++ ": " ++ e.path.quoted

/-- A name may have so many bytes. -/
def maxNameBytes : Nat := 255

/-- A path may have so many bytes when it is written as text. -/
def maxPathBytes : Nat := 4095

/-- How many bytes the text of a path has, with a slash in front of each name. -/
def textBytes (p : Path) : Nat := p.foldr (fun name n => name.bytes.length + 1 + n) 0

/-- What is at a place, a path without double dots. -/
def node? (d : Disk) (place : Path) : Option Node :=
  if place = [] then some .directory else d.entries.lookup place

/-- The place to which names lead from a directory. Every name but the last has to lead to a
directory; the last may be free. -/
def locate (d : Disk) (here : Path) : Path → Except Cause Path
  | [] => .ok here
  | name :: rest =>
    match d.node? here with
    | none => .error .notFound
    | some (.file _) => .error .notDirectory
    | some .directory =>
      if name = .dots then d.locate here.dropLast rest
      else if maxNameBytes < name.bytes.length then .error .nameTooLong
      else d.locate (here ++ [name]) rest

/-- The place to which a path leads, and what is there; or why it leads nowhere. -/
def access (d : Disk) (p : Path) : Except Cause (Path × Option Node) := do
  if maxPathBytes < textBytes p then throw .nameTooLong
  let place ← d.locate [] p
  return (place, d.node? place)

/-- The disk with a node at a place. -/
def put (d : Disk) (p : Path) (n : Node) : Disk :=
  ⟨d.entries.filter (·.1 ≠ p) ++ [(p, n)]⟩

/-- The contents of the file at a path. -/
def read (d : Disk) (p : Path) : Except Cause Bytes := do
  match ← d.access p with
  | (_, some (.file data)) => return data
  | (_, some .directory) => throw .isDirectory
  | (_, none) => throw .notFound

/-- Writes a file, in the place of an older one. -/
def write (d : Disk) (p : Path) (data : Bytes) : Except Cause Disk := do
  match ← d.access p with
  | (_, some .directory) => throw .isDirectory
  | (place, _) => return d.put place (.file data)

/-- How the writing of a file breaks off: so many bytes have reached the file, and why no more
do. -/
structure Break where
  written : Nat
  cause : Cause
  deriving DecidableEq, Repr

/-- Writes a file, in the place of an older one, which is gone as soon as the file is opened: where
the writing breaks off, the front of the bytes is left. -/
def overwrite (d : Disk) (p : Path) (data : Bytes) : Option Break → Except Cause Unit × Disk
  | none =>
    match d.write p data with
    | .ok d => (.ok (), d)
    | .error cause => (.error cause, d)
  | some b =>
    match d.write p (data.take b.written) with
    | .ok d => (.error b.cause, d)
    | .error cause => (.error cause, d)

/-- Adds to the end of a file, which may be missing. -/
def append (d : Disk) (p : Path) (data : Bytes) : Except Cause Disk := do
  match ← d.access p with
  | (_, some .directory) => throw .isDirectory
  | (place, some (.file old)) => return d.put place (.file (old ++ data))
  | (place, none) => return d.put place (.file data)

/-- Whether a path leads to a directory. -/
def isDirectory (d : Disk) (p : Path) : Bool :=
  match d.access p with
  | .ok (_, some .directory) => true
  | _ => false

/-! ## Making directories -/

/-- Makes a directory at a free path. -/
def makeDirectory (d : Disk) (p : Path) : Except Cause Disk := do
  match ← d.access p with
  | (_, some _) => throw .alreadyThere
  | (place, none) => return d.put place .directory

/-- So many directories may be missing one above another. Those above are made first, and each of
them goes a step down the stack of the program. -/
def maxMissing : Nat := 986

/-- What is said where more are missing. -/
def tooDeepMessage : String := "maximum recursion depth exceeded"

/-- Why directories are not made: one is refused, or too many are missing one above another. -/
inductive Unmade where
  | refused (cause : Cause) (path : Path)
  | tooDeep
  deriving DecidableEq

/-- Makes sure that there is a directory at a path, and makes those above it as far as they are
missing, if they are not too many. What was made before a refusal stays. -/
def makeWithin (d : Disk) (p : Path) : Nat → Except Unmade Unit × Disk
  | 0 => (.error .tooDeep, d)
  | room + 1 =>
    let unlessThere (d : Disk) (cause : Cause) : Except Unmade Unit × Disk :=
      (if d.isDirectory p then .ok () else .error (.refused cause p), d)
    match d.makeDirectory p with
    | .ok d => (.ok (), d)
    | .error .notFound =>
      if p = [] then (.error (.refused .notFound p), d)
      else
        match d.makeWithin p.dropLast room with
        | (.error e, d) => (.error e, d)
        | (.ok (), d) =>
          match d.makeDirectory p with
          | .ok d => (.ok (), d)
          | .error cause => unlessThere d cause
    | .error cause => unlessThere d cause

@[inherit_doc makeWithin]
def makeDirectories (d : Disk) (p : Path) : Except Unmade Unit × Disk := d.makeWithin p maxMissing

/-- Makes a directory at a free path, and those above it as far as they are missing. What was made
before a failure stays. -/
def makeNewDirectory (d : Disk) (p : Path) : Except Unmade Unit × Disk :=
  match d.makeDirectory p with
  | .ok d => (.ok (), d)
  | .error .notFound =>
    match d.makeDirectories p.dropLast with
    | (.error e, d) => (.error e, d)
    | (.ok (), d) =>
      match d.makeDirectory p with
      | .ok d => (.ok (), d)
      | .error cause => (.error (.refused cause p), d)
  | .error cause => (.error (.refused cause p), d)

/-! ## Directories as a whole -/

/-- The disk without what is at a place or below. -/
def remove (d : Disk) (p : Path) : Disk := ⟨d.entries.filter fun e => !p.isPrefixOf e.1⟩

/-- The files below a directory, by their paths from there. -/
def filesBelow (d : Disk) (dir : Path) : List (Path × Bytes) :=
  d.entries.filterMap fun (p, n) =>
    match n with
    | .file data => if dir.isPrefixOf p then some (p.drop dir.length, data) else none
    | .directory => none

end Disk

end TimedText
