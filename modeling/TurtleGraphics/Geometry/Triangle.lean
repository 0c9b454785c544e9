import TurtleGraphics.Scalar

/-!
# Triangles

When three lengths are the sides of a triangle, and the angles they enclose.
-/

set_option autoImplicit false

namespace TurtleGraphics

open Scalar

variable {α : Type} [Scalar α]

/-- All sides are positive and any two together exceed the third. -/
def IsTriangle (a b c : α) : Prop :=
  whole 0 < a ∧ whole 0 < b ∧ whole 0 < c ∧ c < a + b ∧ b < a + c ∧ a < b + c

instance (a b c : α) : Decidable (IsTriangle a b c) := by
  unfold IsTriangle; infer_instance

/-- Interior angles in degrees, each opposite the side of its name. -/
structure Angles (α : Type) where
  a : α
  b : α
  c : α
  deriving DecidableEq

/-- The angle in degrees opposite `x`, between the sides `y` and `z`, by the law of cosines. The
cosine of a nearly flat triangle can round past one. -/
def angleFacing (x y z : α) : α :=
  let cosine := (y * y + z * z - x * x) / (whole 2 * y * z)
  toDegrees (acos (clamp (-whole 1) (whole 1) cosine))

/-- The angles of a triangle. The sides are scaled to the longest, since squares of large ones
overflow; the second angle closes the sum to 180. -/
def Angles.ofSides (a b c : α) : Angles α :=
  let longest := larger (larger a b) c
  let p := a / longest
  let q := b / longest
  let r := c / longest
  let angleA := angleFacing p q r
  let angleC := angleFacing r p q
  ⟨angleA, whole 180 - angleA - angleC, angleC⟩

end TurtleGraphics
