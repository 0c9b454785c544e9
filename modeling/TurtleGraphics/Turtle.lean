import TurtleGraphics.Canvas
import TurtleGraphics.Geometry.Outline

/-!
# The turtle

The state of the pen that draws, and its primitive moves. A move may be fenced by a rectangle:
it is then refused, with the point it would have reached, if it ends outside.
-/

set_option autoImplicit false

namespace TurtleGraphics

open Scalar

structure Turtle (α : Type) where
  position : Point α
  /-- Degrees; 0 faces right and 90 faces down. -/
  heading : α
  penDown : Bool
  colour : Colour
  width : UInt32
  deriving DecidableEq

namespace Turtle

variable {α : Type} [Scalar α]

/-- A turtle with its pen down. -/
def new (position : Point α) (heading : α) (colour : Colour) (width : UInt32) : Turtle α :=
  ⟨position, wrapDegrees heading, true, colour, width⟩

/-- The unit vector along the heading. -/
def facing (t : Turtle α) : Point α :=
  let angle := toRadians t.heading
  ⟨cos angle, sin angle⟩

/-- Where a move of `distance` would end. -/
def ahead (t : Turtle α) (distance : α) : Point α := t.position.along t.facing distance

def turn (t : Turtle α) (degrees : α) : Turtle α :=
  { t with heading := wrapDegrees (t.heading + degrees) }

/-- Puts the turtle somewhere else without drawing. -/
def placeAt (t : Turtle α) (position : Point α) (heading : α) : Turtle α :=
  { t with position := position, heading := wrapDegrees heading }

/-- The point lies within the fence, if there is one. -/
def Within (fence : Option (Bounds α)) (p : Point α) : Prop := ∀ b ∈ fence, b.Contains p

instance (fence : Option (Bounds α)) (p : Point α) : Decidable (Within fence p) :=
  match fence with
  | none => .isTrue (by simp [Within])
  | some b => decidable_of_iff (b.Contains p) (by simp [Within])

/-- Moves along the heading, backward if `distance` is negative. Gives the segment drawn, or the
point outside the fence where the move would have ended. -/
def forward (t : Turtle α) (fence : Option (Bounds α)) (distance : α) :
    Except (Point α) (Turtle α × List (Segment α)) :=
  let stop := t.ahead distance
  if Within fence stop then
    .ok ({ t with position := stop },
      if t.penDown then [⟨t.position, stop, t.colour, t.width⟩] else [])
  else .error stop

/-- Takes one step of an outline. -/
def step (t : Turtle α) (fence : Option (Bounds α)) :
    Step α → Except (Point α) (Turtle α × List (Segment α))
  | .forward distance => t.forward fence distance
  | .turn degrees => .ok (t.turn degrees, [])

/-- Takes steps in order, up to the first one refused. Gives the turtle as it is then, what it
drew until then, and the point outside the fence if a step was refused. -/
def follow (t : Turtle α) (fence : Option (Bounds α)) :
    List (Step α) → Turtle α × List (Segment α) × Option (Point α)
  | [] => (t, [], none)
  | s :: rest =>
    match t.step fence s with
    | .ok (t₁, drawn) =>
      let (t₂, later, refused) := t₁.follow fence rest
      (t₂, drawn ++ later, refused)
    | .error p => (t, [], some p)

end Turtle

end TurtleGraphics
