import TimedText.Text.Word

/-!
# Messages without internal paths

A path below one of a few directories of the system is replaced by a mark before a message is shown.
A path is a slash, the directory's name, a slash, and at least one path character; as many as follow
belong to it. Paths are replaced from left to right.
-/

namespace TimedText.Sanitize

/-- The directories whose paths are not shown. -/
def roots : List String :=
  ["app", "home", "var", "tmp", "usr", "etc", "opt", "root", "private"]

/-- What stands for a path. -/
def mark : String := "[INTERNAL_PATH]"

/-- The characters that continue a path. -/
def isPathChar (c : Char) : Bool := Text.isWord c || c = '-' || c = '.' || c = '/'

/-- What follows the root of a path at the front of a text. -/
def afterRoot? (cs : List Char) : Option (List Char) :=
  roots.findSome? fun r =>
    let root := '/' :: (r.toList ++ ['/'])
    if root.isPrefixOf cs then some (cs.drop root.length) else none

/-- What follows the path at the front of a text. -/
def afterPath? (cs : List Char) : Option (List Char) :=
  match afterRoot? cs with
  | some (c :: rest) => if isPathChar c then some (rest.dropWhile isPathChar) else none
  | _ => none

theorem length_of_afterRoot? {cs rest : List Char} (h : afterRoot? cs = some rest) :
    rest.length ≤ cs.length := by
  obtain ⟨r, -, hr⟩ := List.exists_of_findSome?_eq_some h
  dsimp only at hr
  split at hr
  · cases hr; simp
  · cases hr

theorem length_of_afterPath? {cs rest : List Char} (h : afterPath? cs = some rest) :
    rest.length < cs.length := by
  unfold afterPath? at h
  split at h
  · next c tail hroot =>
    split at h
    · cases h
      have h1 := length_of_afterRoot? hroot
      have h2 := (List.dropWhile_suffix (l := tail) isPathChar).length_le
      simp only [List.length_cons] at h1
      omega
    · cases h
  · cases h

/-- The text with each path replaced by the mark. -/
def chars (cs : List Char) : List Char :=
  match _h : afterPath? cs with
  | some rest => mark.toList ++ chars rest
  | none =>
    match cs with
    | [] => []
    | c :: rest => c :: chars rest
termination_by cs.length
decreasing_by
  · exact length_of_afterPath? _h
  · simp

/-- The message with each internal path replaced by the mark. -/
def message (s : String) : String := String.ofList (chars s.toList)

end TimedText.Sanitize
