import TimedText.Cue.Basic

/-!
# The timeline

The committed cues, in the order in which they were added, and the one draft. A draft either is a
new cue or edits the committed cue at the target. Operations that name an index fail, and change
nothing, exactly when there is no cue at it.
-/

namespace TimedText

/-- Committed cues, the draft, and which cue the draft edits. -/
structure Timeline where
  cues : List Cue := []
  draft : Cue := .blank
  target : Option Nat := none
  deriving DecidableEq, Inhabited

namespace Timeline

/-- An index at which there is no cue. -/
structure OutOfRange where
  index : Int
  size : Nat
  deriving DecidableEq, Repr

/-- What is said about an index without a cue. -/
def OutOfRange.message (e : OutOfRange) : String :=
  "Cue index " ++ toString e.index ++ " is out of range for " ++ toString e.size ++ " cue(s)"

/-- The position that an index names. -/
def locate (t : Timeline) (index : Int) : Except OutOfRange (Fin t.cues.length) :=
  if h : 0 ≤ index ∧ index < t.cues.length then .ok ⟨index.toNat, by omega⟩
  else .error ⟨index, t.cues.length⟩

/-- Adds a cue at the end; answers where it stands. -/
def add (t : Timeline) (c : Cue) : Nat × Timeline :=
  (t.cues.length, { t with cues := t.cues ++ [c] })

/-- Puts a cue in the place of another. -/
def update (t : Timeline) (index : Int) (c : Cue) : Except OutOfRange Timeline := do
  let i ← t.locate index
  return { t with cues := t.cues.set i c }

/-- Takes a cue out; answers it. -/
def delete (t : Timeline) (index : Int) : Except OutOfRange (Cue × Timeline) := do
  let i ← t.locate index
  return (t.cues[i], { t with cues := t.cues.eraseIdx i })

/-- Lets the draft edit a committed cue, beginning from what it is. -/
def beginEdit (t : Timeline) (index : Int) : Except OutOfRange Timeline := do
  let i ← t.locate index
  return { t with draft := t.cues[i], target := some i }

/-- Gives the draft up. -/
def cancelEdit (t : Timeline) : Timeline := { t with draft := .blank, target := none }

/-- Puts another draft in the place of the draft. -/
def setDraft (t : Timeline) (c : Cue) : Timeline := { t with draft := c }

/-- Writes the draft into the committed cues: over the one it edits, or at the end if it shows
something. Answers where it was written; a blank new cue is dropped. -/
def commitDraft (t : Timeline) : Except OutOfRange (Option Nat × Timeline) :=
  match t.target with
  | some i => do
    let t ← t.update i t.draft
    return (some i, t.cancelEdit)
  | none =>
    if t.draft.isBlank then return (none, { t with draft := .blank })
    else
      let (i, t) := t.add t.draft
      return (some i, { t with draft := .blank })

/-- The cues of the live preview: a new draft counts once it shows something; a draft that edits a
cue counts only when it is committed. -/
def effective (cues : List Cue) (draft : Cue) (target : Option Nat) : List Cue :=
  if target.isSome || draft.isBlank then cues else cues ++ [draft]

/-- The cues of the live preview. -/
def effectiveCues (t : Timeline) : List Cue := effective t.cues t.draft t.target

end Timeline

end TimedText
