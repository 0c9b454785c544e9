import TurtleGraphics.Colour
import TurtleGraphics.History
import TurtleGraphics.Path

/-!
# Commands

What a line asks for, once its arguments are understood: an action of the turtle or on its
canvas, or a file to save or load.
-/

set_option autoImplicit false

namespace TurtleGraphics

inductive TriangleSize where
  | equilateral (side : Int64)
  | sides (a b c : Float)
  deriving DecidableEq

inductive Action where
  | penUp
  | penDown
  /-- Clockwise if positive. -/
  | turn (degrees : Int64)
  /-- Backward if negative. -/
  | move (distance : Int64)
  | colour (c : Colour)
  | penWidth (width : UInt32)
  | reset
  | clear
  | about
  | square (size : Int64)
  | triangle (size : TriangleSize)
  | star (size : Int64)
  | hexagon (size : Int64)
  | circle (radius : Int64)
  deriving DecidableEq

/-- What the line of an action is kept for. Only `about` leaves nothing to replay. -/
def Action.purpose : Action → Purpose
  | about => .audit
  | _ => .replay

/-- What a save or load is about. -/
inductive FileKind where
  | script
  | image
  deriving DecidableEq

inductive Command where
  | act (action : Action)
  | save (kind : FileKind) (path : Option Path)
  | load (kind : FileKind) (path : Option Path)
  deriving DecidableEq

end TurtleGraphics
