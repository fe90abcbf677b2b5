import TimedText.Json.Reader
import TimedText.Text.Blank
import TimedText.Text.Digit

/-!
# The duration of a video

Another program is asked for the duration of a video and answers with a JSON text. The duration is
the number at `format.duration`; where that is missing or no number, the duration is not known.
-/

namespace TimedText.Probe

/-- How the other program answered. -/
inductive Reply where
  | output (text : String)
  | failed (status : Int)
  | notStarted (message : String)
  deriving DecidableEq

/-- Why no answer can be given, not even that the duration is not known. -/
inductive Error where
  | notStarted
  | failed
  | unreadable (reason : Json.ReadError)
  /-- The text, or its `format`, is no object. -/
  | notAnObject
  /-- A whole number past the range of doubles. -/
  | tooLarge
  deriving DecidableEq

/-- The command line that asks for the duration of the video at a path. -/
def command (binary path : String) : List String :=
  [binary, "-v", "error", "-show_entries", "format=duration", "-of", "json", path]

/-- Whether a value says nothing: nothing, no, zero, or empty. -/
def isNothing : Json → Bool
  | .null => true
  | .bool b => !b
  | .int i => i = 0
  | .float d => d.isZero
  | .str s => s = ""
  | .list items => items.isEmpty
  | .dict members => members.isEmpty

/-- The number that a value is read as. Text may have white space around the number. -/
def number : Json → Except Error (Option Double)
  | .bool b => .ok (some (Double.ofNat b.toNat))
  | .int i => (Double.ofInt? i).elim (.error .tooLarge) fun d => .ok (some d)
  | .float d => .ok (some d)
  | .str s => .ok (Double.read? Text.digitValue (Text.trimBy Text.isWhiteSpace s.toList))
  | _ => .ok none

/-- The duration in an answer. -/
def durationOf (payload : Json) : Except Error (Option Double) :=
  match payload with
  | .dict members =>
    let format := (members.lookup "format").getD .null
    if isNothing format then .ok none
    else
      match format with
      | .dict members => (members.lookup "duration").elim (.ok none) number
      | _ => .error .notAnObject
  | _ => .error .notAnObject

/-- What an answer tells about the duration. Without any output, nothing is known. -/
def duration (reply : Reply) : Except Error (Option Double) :=
  match reply with
  | .notStarted _ => .error .notStarted
  | .failed _ => .error .failed
  | .output text =>
    if text = "" then .ok none
    else
      match Json.read .allowed text with
      | .ok payload => durationOf payload
      | .error reason => .error (.unreadable reason)

/-- Whether an error only means that the duration is not known. -/
def Error.isTolerated : Error → Bool
  | .unreadable .tooDeep | .notAnObject | .tooLarge => false
  | .notStarted | .failed | .unreadable _ => true

end TimedText.Probe
