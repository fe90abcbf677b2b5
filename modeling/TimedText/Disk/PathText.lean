import TimedText.Disk.Basic
import TimedText.Fault

/-!
# Paths as text

A path is written with slashes. Empty names and single dots say nothing and are left out when a
path is normalised; a double dot stays, since it leads nowhere if the name before it does. Resolving
a path against the directory it starts from also takes the double dots away.
-/

namespace TimedText.PathText

/-- The names between the slashes that say something, in a text of any letters. -/
def namesOn {α : Type} [DecidableEq α] (slash dot : α) (s : List α) : List (List α) :=
  (s.splitOn slash).filter fun n => n ≠ [] && n ≠ [dot]

/-- The names between the slashes that say something. -/
def names (s : String) : List String := (namesOn '/' '.' s.toList).map String.ofList

/-- The slashes that a normalised path begins with: two stay two, more are one. -/
def leading (s : String) : String :=
  match s.toList.takeWhile (· = '/') with
  | [] => ""
  | ['/', '/'] => "//"
  | _ => "/"

/-- The path in its shortest form; a path without names is a dot or the root. -/
def normalize (s : String) : String :=
  let text := leading s ++ String.intercalate "/" (names s)
  if text = "" then "." else text

/-- The last name of a path; empty for a root and a dot. -/
def lastName (s : String) : String := ((names s).getLast?).getD ""

/-- The names from the root of the path `s`, read from the directory `base`; double dots stay. -/
def join (base : Path) (s : String) : Path :=
  if (leading s).isEmpty then base ++ Path.ofTexts (names s) else Path.ofTexts (names s)

/-- Names without double dots: each takes the name before it away. -/
def collapse (ns : List String) : List String :=
  (ns.foldl (fun acc n => if n = ".." then acc.drop 1 else n :: acc) []).reverse

/-- An absolute path as text. -/
def ofPath (p : List String) : String := "/" ++ String.intercalate "/" p

/-! ## Resolving -/

/-- Where paths start from, and which of them lead nowhere. -/
structure Origin where
  /-- Where relative paths start from. -/
  directory : List String := []
  /-- The directory where relative paths start has been removed. -/
  isRemoved : Bool := false
  /-- The home directory of a user as it is written; the empty name is the user who runs the
  program. -/
  home : String → Option String := fun _ => none
  /-- Whether symbolic links on a path lead round in a circle. Other links are not followed here. -/
  isCircle : List String → Bool := fun _ => false

/-- Why a path is not resolved. -/
inductive Unresolved where
  /-- The path holds the character that ends a path for the operating system. -/
  | nul
  /-- The path starts from the home of a user who has none. -/
  | noHome
  /-- The directory that the path starts from has been removed. -/
  | noDirectory
  | circle (path : List String)
  deriving DecidableEq, Repr

/-- What is said where a user has no home. -/
def noHomeMessage : String := "Could not determine home directory."

/-- What is said of a path that holds NUL. -/
def nulFault : Fault := ⟨.value, "embedded null byte", ""⟩

/-- The fault that it is if too many directories are missing on a path. -/
def tooDeepFault : Fault := ⟨.other "RecursionError", Disk.tooDeepMessage, ""⟩

/-- The fault that a path which is not resolved is. -/
def Unresolved.fault : Unresolved → Fault
  | .nul => nulFault
  | .noHome => ⟨.runtime, noHomeMessage, ""⟩
  | .noDirectory => ⟨.other "FileNotFoundError", "[Errno 2] No such file or directory", ""⟩
  | .circle path => ⟨.runtime, "Symlink loop from " ++ Text.quoted (ofPath path), ""⟩

/-- Whether a name holds NUL. -/
def hasNul (name : String) : Bool := name.toList.contains '\x00'

/-- Where names lead, from the root or from where relative paths start. -/
def Origin.target (o : Origin) (isAbsolute : Bool) (ns : List String) : List String :=
  collapse (if isAbsolute then ns else o.directory ++ ns)

/-- The names from the root of where names lead, unless they lead nowhere. -/
def Origin.follow (o : Origin) (isAbsolute : Bool) (ns : List String) :
    Except Unresolved (List String) :=
  if ns.any hasNul then .error .nul
  else if !isAbsolute && o.isRemoved then .error .noDirectory
  else
    let path := o.target isAbsolute ns
    if o.isCircle path then .error (.circle path) else .ok path

/-- The names from the root of the path `s`. If its first name is a tilde and the name of a user,
the home of that user stands in its place. -/
def Origin.resolve (o : Origin) (s : String) : Except Unresolved (List String) :=
  match (leading s).isEmpty, names s with
  | true, first :: rest =>
    match first.toList with
    | '~' :: user =>
      if '\x00' ∈ user then .error .nul
      else
        match o.home (String.ofList user) with
        | none => .error .noHome
        | some dir => o.follow (!(leading dir).isEmpty) (names dir ++ rest)
    | _ => o.follow false (first :: rest)
  | isRelative, ns => o.follow (!isRelative) ns

/-- What the path `s` leads to, read from the directory `base`, or why it cannot be looked for. -/
def seek (d : Disk) (base : List String) (s : String) : Except Disk.Cause (Option Node) :=
  if Disk.maxPathBytes < (normalize s).utf8ByteSize then .error .nameTooLong
  else
    let here := if (leading s).isEmpty then Path.ofTexts base else []
    (d.locate here (Path.ofTexts (names s))).map d.node?

/-- What the path `s` leads to, if to anything. -/
def lookUp (d : Disk) (base : List String) (s : String) : Option Node :=
  (seek d base s).toOption.join

end TimedText.PathText
