import TimedText.Json.Printer
import TimedText.Fault

/-!
# Log records

What is worth telling while the program works. A record has a level, the part of the program it
comes from, and a message; it may carry data and the headline of a fault.
-/

namespace TimedText.Log

/-- How grave a record is. -/
abbrev Level := Int

namespace Level

def debug : Level := 10
def info : Level := 20
def warning : Level := 30
def error : Level := 40
def critical : Level := 50

/-- The name of a level; a level between the named ones is told by its number. -/
def name (l : Level) : String :=
  if l = 50 then "CRITICAL"
  else if l = 40 then "ERROR"
  else if l = 30 then "WARNING"
  else if l = 20 then "INFO"
  else if l = 10 then "DEBUG"
  else if l = 0 then "NOTSET"
  else "Level " ++ toString l

end Level

/-- The part of the program that a record comes from. -/
inductive Source where
  | playback
  | timeline
  | transcoder
  | render
  | editor
  deriving DecidableEq, Repr

/-- The name of a part of the program. -/
def Source.name : Source → String
  | .playback => "subtitle_studio.playback"
  | .timeline => "subtitle_studio.timeline"
  | .transcoder => "subtitle_studio.transcoder"
  | .render => "subtitle_studio.render"
  | .editor => "subtitle_studio.editor"

/-- A fault that a record tells of: the name of its kind, and what is said about it. -/
structure Exception where
  name : String
  message : String
  deriving DecidableEq, Repr

/-- The exception of a fault. -/
def Exception.ofFault (f : Fault) : Exception := ⟨f.kind.name, f.message⟩

/-- The exception on one line. -/
def Exception.headline (e : Exception) : String := Fault.headline e.name e.message

/-- A log record. -/
structure Record where
  level : Level
  name : String
  message : String
  data : Option Json := none
  exception : Option Exception := none
  deriving Inhabited

/-- A record of a part of the program. -/
def record (level : Level) (source : Source) (message : String) : Record :=
  { level, name := source.name, message }

/-- Whether a record of this level is kept where the threshold is the given one. Levels of zero and
below are never kept. -/
def isKept (threshold level : Level) : Bool := 0 < level && threshold ≤ level

end TimedText.Log
