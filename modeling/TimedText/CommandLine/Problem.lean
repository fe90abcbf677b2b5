import TimedText.CommandLine.Parameter
import TimedText.Cue.Option
import TimedText.Text.Resemblance
import TimedText.Text.Terminal

/-!
# Problems with a command line

Why a command line is not carried out, and what is said about it.
-/

namespace TimedText.CommandLine

/-- What is wrong with the value of a parameter. -/
inductive BadValue where
  | field (cause : Field.Cause)
  | notAPosition (text : String)
  | noFile (path : String)
  | directory (path : String)
  /-- A path holds the character that ends a path for the operating system. -/
  | nulInPath
  deriving DecidableEq

/-- What is said about a bad value. -/
def BadValue.message : BadValue → String
  | .field cause => cause.message
  | .notAPosition text =>
    "Value error, " ++ Text.quoted text ++ " is not one of "
      ++ String.intercalate ", " (Position.all.map fun p => Text.quoted p.name) ++ "."
  | .noFile path => "file " ++ Text.quoted path ++ " does not exist."
  | .directory path => "file " ++ Text.quoted path ++ " is a directory."
  | .nulInPath => "Value error, embedded null byte"

/-- Why a command line is not carried out. -/
inductive Problem where
  /-- An option is unknown. Some options may be close to it; where a command is missing, too, some
  commands may be close to the word behind it. -/
  | noSuchOption (name : String) (close : List String) (commands : List String := [])
  /-- The value of an option is missing. -/
  | noValue (name : String)
  /-- An option stands by itself, but a value is attached to it. Where a command is missing, too,
  some commands may be close to the word behind it. -/
  | unwantedValue (name : String) (commands : List String := [])
  | missing (p : Parameter)
  | noCommand
  | noSuchCommand (name : String) (close : List String)
  | extraWords (words : List String)
  | badValue (p : Parameter) (value : BadValue)
  | badCue (e : Cue.OptionError)
  /-- No font is named, and the one of the settings is not there. -/
  | noFont (name : String)
  deriving DecidableEq

namespace Problem

/-- What is said about options that are close to one that is unknown. -/
def closeOptions : List String → String
  | [] => ""
  | ss => " (Possible options: " ++ String.intercalate ", " ss ++ ")"

/-- A text without the points at its end. -/
def withoutPoints (text : String) : String :=
  String.ofList (text.toList.reverse.dropWhile (· = '.')).reverse

/-- What is said, and the commands that may be meant. -/
def orCommand (text : String) : List String → String
  | [] => text
  | ss =>
    withoutPoints text ++ ". Did you mean " ++ String.intercalate ", " (ss.map Text.quoted) ++ "?"

/-- The problem with the commands that are close to the word behind it. -/
def withCommands (commands : List String) : Problem → Problem
  | .noSuchOption name close _ => .noSuchOption name close commands
  | .unwantedValue name _ => .unwantedValue name commands
  | p => p

/-- What is said about the value of a parameter. -/
def invalidValue (hint text : String) : String := "Invalid value for " ++ hint ++ ": " ++ text

/-- What there is to say about a problem, if a single line is said about it. -/
def text? : Problem → Option String
  | .noSuchOption name close commands =>
    some (orCommand ("No such option: " ++ name) commands ++ closeOptions close)
  | .noValue name => some ("Option " ++ Text.quoted name ++ " requires an argument.")
  | .unwantedValue name commands =>
    some (orCommand ("Option " ++ Text.quoted name ++ " does not take a value.") commands)
  | .missing .video => some ("Missing argument " ++ Parameter.video.hint ++ ".")
  | .missing p => some ("Missing option " ++ p.hint ++ ".")
  | .noCommand => some "Missing command."
  | .noSuchCommand name close =>
    some (orCommand ("No such command " ++ Text.quoted name ++ ".") close)
  | .extraWords words =>
    some ("Got unexpected extra argument(s) (" ++ String.intercalate " " words ++ ")")
  | .badValue p value => some (invalidValue p.hint value.message)
  | .badCue e => e.message?.map (invalidValue "--cue")
  | .noFont name =>
    some (invalidValue "--font" ("Default font " ++ name ++ " is not installed; pass a font file."))

/-- What is said about a problem, if a single line is said about it. What a user typed is part of
it, and does not control the terminal. -/
def message? (p : Problem) : Option String := p.text?.map Text.spelled

end Problem

end TimedText.CommandLine
