import TimedText.Double.Basic

/-!
# The playback clock

Where the player is and how long the video is, as far as the player has said. Values are taken as
they come. A player that can be asked is a source of positions; its last position is repeated for
ever.
-/

namespace TimedText

/-- Position, duration, and how long a cue lasts that is stamped at the position. -/
structure Clock where
  time : Double := .zero
  duration : Double := .zero
  offset : Double
  /-- The positions that a player still has to tell when it is asked. -/
  source : List Double := []
  deriving DecidableEq, Inhabited

namespace Clock

/-- The player is somewhere else. -/
def setTime (c : Clock) (t : Double) : Clock := { c with time := t }

/-- The player knows the duration. -/
def setDuration (c : Clock) (d : Double) : Clock := { c with duration := d }

/-- Asks the player, if it can be asked, and answers the position. -/
def poll (c : Clock) : Double × Clock :=
  match c.source with
  | [] => (c.time, c)
  | [t] => (t, { c with time := t })
  | t :: rest => (t, { c with time := t, source := rest })

/-- Back to the start of a video of unknown duration. -/
def reset (c : Clock) : Clock := { c with time := .zero, duration := .zero }

/-- The span of a cue that is stamped at the position. -/
def seedRange (c : Clock) : Double × Double := (c.time, c.time + c.offset)

end Clock

end TimedText
