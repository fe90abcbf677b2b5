/-!
# Commands and their parameters

What can be asked for on a command line, and what can be said about it. A parameter is an option
with one or more spellings, or a word that stands free.
-/

namespace TimedText.CommandLine

/-- What can be said on a command line. -/
inductive Parameter where
  | help
  /-- To let the shell complete words of this program. -/
  | installCompletion
  /-- To see what the shell would be told for that. -/
  | showCompletion
  | logLevel
  | video
  | output
  | cue
  | fontSize
  | color
  | position
  | font
  /-- The time at which a preview is taken. -/
  | time
  deriving DecidableEq, Repr

namespace Parameter

/-- The spellings of an option. A parameter without any stands free. -/
def spellings : Parameter → List String
  | .help => ["--help"]
  | .installCompletion => ["--install-completion"]
  | .showCompletion => ["--show-completion"]
  | .logLevel => ["--log-level"]
  | .video => []
  | .output => ["--output", "-o"]
  | .cue => ["--cue", "-c"]
  | .fontSize => ["--font-size"]
  | .color => ["--color"]
  | .position => ["--position"]
  | .font => ["--font"]
  | .time => ["--at"]

/-- Whether an option stands by itself, without a value. -/
def isFlag : Parameter → Bool
  | .help | .installCompletion | .showCompletion => true
  | _ => false

/-- How a parameter is named where something is said about it. -/
def hint : Parameter → String
  | .video => "'input_video'"
  | p => String.intercalate " / " (p.spellings.map fun s => "'" ++ s ++ "'")

end Parameter

/-- What can be asked for. -/
inductive Command where
  /-- A video is made in which the cues are burned in. -/
  | render
  /-- The expression is shown that the cues are compiled to. -/
  | filtergraph
  /-- The cues are listed that are on screen at a time. -/
  | preview
  deriving DecidableEq, Repr

namespace Command

/-- All commands. -/
def all : List Command := [.render, .filtergraph, .preview]

/-- The word for a command. -/
def name : Command → String
  | .render => "render"
  | .filtergraph => "filtergraph"
  | .preview => "preview"

/-- The command that a word stands for. -/
def ofName? (s : String) : Option Command := all.find? (·.name = s)

/-- What can be said about the cues of any command. -/
def cueParameters : List Parameter := [.cue, .fontSize, .color, .position]

/-- What can be said after the word for a command, in the order in which it is looked at. -/
def parameters : Command → List Parameter
  | .render => [.video, .output] ++ cueParameters ++ [.font, .help]
  | .filtergraph => cueParameters ++ [.help]
  | .preview => .time :: cueParameters ++ [.help]

end Command

/-- What can be said before the word for a command. -/
def generalParameters : List Parameter :=
  [.logLevel, .installCompletion, .showCompletion, .help]

end TimedText.CommandLine
