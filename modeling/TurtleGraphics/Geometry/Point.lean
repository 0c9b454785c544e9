import TurtleGraphics.Scalar

/-!
# Points

Positions on the plane, x to the right and y downward.
-/

set_option autoImplicit false

namespace TurtleGraphics

structure Point (α : Type) where
  x : α
  y : α
  deriving DecidableEq

namespace Point

variable {α : Type} [Scalar α]

/-- The point reached from `p` by `distance` along the direction `d`. -/
def along (p d : Point α) (distance : α) : Point α :=
  ⟨p.x + d.x * distance, p.y + d.y * distance⟩

/-- The point moved by the same amount on both axes. -/
def shift (p : Point α) (amount : α) : Point α := ⟨p.x + amount, p.y + amount⟩

/-- The point moved back by the same amount on both axes. -/
def unshift (p : Point α) (amount : α) : Point α := ⟨p.x - amount, p.y - amount⟩

def distance (p q : Point α) : α :=
  Scalar.sqrt ((p.x - q.x) * (p.x - q.x) + (p.y - q.y) * (p.y - q.y))

end Point

end TurtleGraphics
