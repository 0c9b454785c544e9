import TurtleGraphics.Colour
import TurtleGraphics.Geometry.Point

/-!
# Canvas

A canvas is a rectangle and the log of what was drawn on it; a background image is kept as its
bytes. A renderer that can encode what it shows makes a picture of all this.
-/

set_option autoImplicit false

namespace TurtleGraphics

/-- The rectangle from `(0, 0)` to `(width, height)`. -/
structure Bounds (α : Type) where
  width : α
  height : α
  deriving DecidableEq

namespace Bounds

variable {α : Type} [Scalar α]

def centre (b : Bounds α) : Point α := ⟨b.width / Scalar.whole 2, b.height / Scalar.whole 2⟩

/-- The point is in the rectangle, give or take the rounding noise of straight moves. -/
def Contains (b : Bounds α) (p : Point α) : Prop :=
  -Scalar.tolerance ≤ p.x ∧ -Scalar.tolerance ≤ p.y ∧
    p.x ≤ b.width + Scalar.tolerance ∧ p.y ≤ b.height + Scalar.tolerance

instance (b : Bounds α) (p : Point α) : Decidable (b.Contains p) := by
  unfold Contains; infer_instance

end Bounds

/-- A line drawn by a move with the pen down. -/
structure Segment (α : Type) where
  start : Point α
  stop : Point α
  colour : Colour
  width : UInt32
  deriving DecidableEq

def Segment.length {α : Type} [Scalar α] (s : Segment α) : α := s.start.distance s.stop

/-- One entry of a canvas's log. -/
inductive Mark (α : Type) where
  | segment (s : Segment α)
  | arc (centre : Point α) (radius : α) (colour : Colour) (width : UInt32)
  | clear
  /-- A background image of so many bytes was set. -/
  | background (size : Nat)
  deriving DecidableEq

/-- Makes an image of a rectangle, of what was drawn on it and of the background, if it can encode
one. -/
abbrev Renderer (α : Type) :=
  Bounds α → List (Mark α) → Option ByteArray → Option ByteArray

structure Canvas (α : Type) where
  bounds : Bounds α
  /-- Everything drawn so far, oldest first. -/
  marks : List (Mark α)
  background : Option ByteArray
  render : Renderer α

namespace Canvas

variable {α : Type}

/-- An empty canvas, with a renderer that makes no pictures. -/
def blank (bounds : Bounds α) : Canvas α := ⟨bounds, [], none, fun _ _ _ => none⟩

/-- The image of the canvas as it is drawn now, if its renderer makes one. -/
def picture (c : Canvas α) : Option ByteArray := c.render c.bounds c.marks c.background

def addMarks (c : Canvas α) (marks : List (Mark α)) : Canvas α :=
  { c with marks := c.marks ++ marks }

def drawSegments (c : Canvas α) (segments : List (Segment α)) : Canvas α :=
  c.addMarks (segments.map .segment)

/-- Removes all that was drawn and the background. -/
def clear (c : Canvas α) : Canvas α := { c.addMarks [.clear] with background := none }

def setBackground (c : Canvas α) (image : ByteArray) : Canvas α :=
  { c.addMarks [.background image.size] with background := some image }

/-- The segments drawn so far, oldest first. -/
def segments (c : Canvas α) : List (Segment α) :=
  c.marks.filterMap fun
    | .segment s => some s
    | _ => none

end Canvas

end TurtleGraphics
