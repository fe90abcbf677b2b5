import TimedText.Cue.Build
import TimedText.Text.Digit

/-!
# Cues on a command line

A cue is typed as `START,END,TEXT`. Only the first two commas divide; whatever follows them is the
text. Both times are read as numbers, in decimal digits of any script.
-/

namespace TimedText.Cue

/-- The look that all cues of a command line share. Size and colour are still to be read. -/
structure Style where
  fontSize : Raw := .int defaultFontSize
  color : Raw := .text defaultColor
  position : Position := .middle
  deriving DecidableEq

/-- Why a typed cue is not accepted. -/
inductive OptionError where
  | notThreeParts (value : String)
  | notATime (part : String)
  | invalid (issues : List Field.Issue)
  deriving DecidableEq

/-- The part before the first comma and the part behind it. -/
def splitAtComma (cs : List Char) : Option (List Char × List Char) :=
  match cs.span (· ≠ ',') with
  | (before, _ :: after) => some (before, after)
  | (_, []) => none

/-- A typed number: white space around it does not count. -/
def readTypedNumber (cs : List Char) : Option Double :=
  Double.read? Text.digitValue (Text.trimBy Text.isWhiteSpace cs)

/-- The cue that a typed value describes. -/
def ofOption (style : Style) (value : String) : Except OptionError Cue :=
  match splitAtComma value.toList with
  | none => .error (.notThreeParts value)
  | some (first, rest) =>
    match splitAtComma rest with
    | none => .error (.notThreeParts value)
    | some (second, text) =>
      match readTypedNumber first with
      | none => .error (.notATime (String.ofList first))
      | some start =>
        match readTypedNumber second with
        | none => .error (.notATime (String.ofList second))
        | some stop =>
          match build [("text", .text (String.ofList text)), ("start_time", .float start),
            ("end_time", .float stop), ("font_size", style.fontSize),
            ("font_color", style.color), ("position", .text style.position.name)] with
          | .ok c => .ok c
          | .error issues => .error (.invalid issues)

/-- What is said about a value that is not accepted, if a single line is said about it. -/
def OptionError.message? : OptionError → Option String
  | .notThreeParts value => some ("Expected START,END,TEXT but got " ++ Text.quoted value)
  | .notATime part => some ("could not convert string to float: " ++ Text.quoted part)
  | .invalid _ => none

end TimedText.Cue
