import TimedText.Text.Quoted

/-!
# Faults

What can go wrong while a video is staged, encoded and read back. Four kinds are faults that the
encoder's contract knows; all others are accidents. A fault of an encoding carries the last lines
that the encoder wrote.
-/

namespace TimedText

namespace Fault

/-- The kinds of faults. -/
inductive Kind where
  | staging
  | encode
  | notFound
  | transcoder
  | os
  | permission
  | value
  | runtime
  | other (name : String)
  deriving DecidableEq, Repr

/-- The name of a kind. -/
def Kind.name : Kind → String
  | .staging => "StagingError"
  | .encode => "EncodeError"
  | .notFound => "NotFoundError"
  | .transcoder => "TranscoderError"
  | .os => "OSError"
  | .permission => "PermissionError"
  | .value => "ValueError"
  | .runtime => "RuntimeError"
  | .other name => name

/-- Whether the encoder's contract knows the kind. -/
def Kind.isExpected : Kind → Bool
  | .staging | .encode | .notFound | .transcoder => true
  | _ => false

/-- Whether the kind is a refusal of the operating system. -/
def Kind.isSystem : Kind → Bool
  | .os | .permission => true
  | _ => false

/-- The kind that has a name. -/
def Kind.ofName (name : String) : Kind :=
  let known : List Kind :=
    [.staging, .encode, .notFound, .transcoder, .os, .permission, .value, .runtime]
  (known.find? (·.name = name)).getD (.other name)

end Fault

/-- A fault: its kind, what is said about it, and what the encoder last wrote. -/
structure Fault where
  kind : Fault.Kind
  message : String
  diagnostic : String := ""
  deriving DecidableEq, Repr

namespace Fault

/-- Whether the fault is one that the encoder's contract knows. -/
def isExpected (f : Fault) : Bool := f.kind.isExpected

/-- A kind and a message on one line; a fault without a message is only named. -/
def headline (kind message : String) : String :=
  if message = "" then kind else kind ++ ": " ++ message

end Fault

end TimedText
