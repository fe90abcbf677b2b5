import TimedText.Cue.Basic
import TimedText.Field.Reader

/-!
# Cues from raw fields

`build` reads each field by itself and reports every one that is wrong, in the order of the fields;
whether the span is reversed is looked at once all of them are read. `replace` builds anew from the
fields of a cue with some of them changed.
-/

namespace TimedText.Cue

open TimedText.Field (Cause Issue)

/-- The fields of a cue, in order. -/
def fieldNames : List String :=
  ["text", "start_time", "end_time", "font_size", "font_color", "position"]

/-- A time: a number, and at least zero. -/
def readTime (r : Raw) : Except Cause Double := do Field.atLeast 0 (← Field.readNumber r)

/-- A size of letters: a whole number above zero. -/
def readFontSize (r : Raw) : Except Cause Nat := do
  let i ← Field.readInteger r
  if 0 < i then return i.toNat else throw (.notAbove 0)

/-- A colour. -/
def readColor (r : Raw) : Except Cause String := do
  let s ← Field.readText r
  if IsColor s then return s else throw .badColor

/-- A position, by its name. -/
def readPosition : Raw → Except Cause Position
  | .text s =>
    match Position.ofName? s with
    | some p => .ok p
    | none => .error (.notOneOf (Position.all.map Position.name))
  | _ => .error (.notOneOf (Position.all.map Position.name))

/-- The value of a field that may be absent. -/
def fieldOr {α : Type} (fields : Fields) (name : String) (fallback : α)
    (read : Raw → Except Cause α) : Except Cause α :=
  match fields.lookup name with
  | none => .ok fallback
  | some r => read r

/-- The issue of a field that was not read. -/
def issueOf {α : Type} (name : String) : Except Cause α → List Issue
  | .ok _ => []
  | .error cause => [⟨some name, cause⟩]

/-- The cue that raw fields describe. Fields that are absent take their defaults, and names that
are no field are not looked at. -/
def build (fields : Fields) : Except (List Issue) Cue :=
  let text := fieldOr fields "text" "" Field.readText
  let start := fieldOr fields "start_time" .zero readTime
  let stop := fieldOr fields "end_time" .zero readTime
  let fontSize := fieldOr fields "font_size" defaultFontSize readFontSize
  let color := fieldOr fields "font_color" defaultColor readColor
  let position := fieldOr fields "position" .middle readPosition
  match text, start, stop, fontSize, color, position with
  | .ok text, .ok start, .ok stop, .ok fontSize, .ok color, .ok position =>
    if h : Double.zero ≤ start ∧ start ≤ stop ∧ 0 < fontSize ∧ IsColor color then
      .ok ⟨text, start, stop, fontSize, color, position, h.1, h.2.1, h.2.2.1, h.2.2.2⟩
    else .error [⟨none, .endsEarly start stop⟩]
  | _, _, _, _, _, _ =>
    .error (issueOf "text" text ++ issueOf "start_time" start ++ issueOf "end_time" stop
      ++ issueOf "font_size" fontSize ++ issueOf "font_color" color
      ++ issueOf "position" position)

/-- The fields of a cue as raw values. -/
def fields (c : Cue) : Fields :=
  [("text", .text c.text), ("start_time", .float c.start), ("end_time", .float c.stop),
   ("font_size", .int c.fontSize), ("font_color", .text c.color),
   ("position", .text c.position.name)]

/-- The cue with some of its fields changed, if that is still a cue. -/
def replace (c : Cue) (changes : Fields) : Except (List Issue) Cue :=
  build (changes ++ c.fields)

end TimedText.Cue
