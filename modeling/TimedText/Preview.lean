import TimedText.Cue.Basic

/-!
# The preview

Which cues are on screen at a time, in the order in which they are drawn, and where they stand.
-/

namespace TimedText

/-- A point of the screen, in percent of its height and width. -/
structure Anchor where
  bottom : Nat
  left : Nat := 50
  deriving DecidableEq, Repr

namespace Anchor

/-- Where cues of a position stand: all in the middle, at these heights. -/
def ofPosition : Position → Anchor
  | .bottom => { bottom := 0 }
  | .top => { bottom := 80 }
  | .middle => { bottom := 50 }

/-- A percentage as it is written. -/
def percentText (n : Nat) : String := (Double.ofNat n).general ++ "%"

end Anchor

namespace Preview

/-- A cue on screen is active and shows something. -/
def isShown (t : Double) (c : Cue) : Bool := !c.isBlank && c.isActive t

/-- The cues on screen at a time. -/
def visible (cues : List Cue) (t : Double) : List Cue := cues.filter (isShown t)

/-- The colour behind a text. -/
def background : String := "rgba(0, 0, 0, 0.5)"

/-- How a cue is laid over the player: style properties and their values. -/
def style (c : Cue) : List (String × String) :=
  let a := Anchor.ofPosition c.position
  [("position", "absolute"), ("bottom", Anchor.percentText a.bottom),
   ("left", Anchor.percentText a.left), ("transform", "translate(-50%, -50%)"),
   ("color", c.color), ("font-size", toString c.fontSize ++ "px"), ("text-align", "center"),
   ("white-space", "pre-wrap"), ("background", background)]

end Preview

end TimedText
