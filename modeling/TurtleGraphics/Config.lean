import TurtleGraphics.Canvas
import TurtleGraphics.Path
import TurtleGraphics.Scalar.Binary64

/-!
# Configuration

What a turtle starts with and returns to on a reset, what happens at the edge of the canvas, and
the files used when a line names none.
-/

set_option autoImplicit false

namespace TurtleGraphics

/-- What happens to a move that would leave the canvas. -/
inductive EdgeRule where
  /-- The move is refused. -/
  | refuse
  /-- The turtle may wander off. -/
  | ignore
  deriving DecidableEq

structure Config where
  /-- Degrees; 270 faces up. -/
  heading : Float
  colour : Colour
  /-- The width of the pen. -/
  width : UInt32
  width_pos : 0 < width
  edgeRule : EdgeRule
  /-- The file of commands used when none is named. -/
  scriptPath : Path
  /-- The image file used when none is named. -/
  imagePath : Path
  deriving DecidableEq

namespace Config

def standard : Config where
  heading := 270
  colour := .black
  width := 1
  width_pos := by decide
  edgeRule := .refuse
  scriptPath := ⟨"turtle_commands.txt"⟩
  imagePath := ⟨"turtle_drawing.png"⟩

/-- The rectangle that moves must stay in, if they must. -/
def fence (c : Config) (bounds : Bounds Float) : Option (Bounds Float) :=
  match c.edgeRule with
  | .refuse => some bounds
  | .ignore => none

end Config

end TurtleGraphics
