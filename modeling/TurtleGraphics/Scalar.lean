/-!
# Scalars

The numbers a drawing is computed with, and the few operations on them that drawing needs. The
program draws in binary64; the same definitions can be read over any other numbers.
-/

set_option autoImplicit false

namespace TurtleGraphics

class Scalar (α : Type) extends Add α, Sub α, Mul α, Div α, Neg α, LT α, LE α where
  /-- A whole number as a scalar. -/
  whole : Nat → α
  pi : α
  sin : α → α
  cos : α → α
  acos : α → α
  sqrt : α → α
  /-- What is left of the first after taking out the second a whole number of times toward zero;
  the sign is the first's. -/
  remainder : α → α → α
  /-- How far outside a canvas still counts as on its edge. -/
  tolerance : α
  decLt (a b : α) : Decidable (a < b)
  decLe (a b : α) : Decidable (a ≤ b)

namespace Scalar

variable {α : Type} [Scalar α]

instance (a b : α) : Decidable (a < b) := decLt a b

instance (a b : α) : Decidable (a ≤ b) := decLe a b

def toRadians (degrees : α) : α := degrees * (pi / whole 180)

def toDegrees (radians : α) : α := radians * (whole 180 / pi)

/-- The larger of two numbers; the other one if one of them is not comparable with itself. -/
def larger (a b : α) : α := if a < b then b else if a ≤ a then a else b

/-- The number `x` brought between `lo` and `hi`; if it is comparable with neither, it stays. -/
def clamp (lo hi x : α) : α := if x < lo then lo else if hi < x then hi else x

/-- Brings an angle in degrees into `[0, 360)`. A full turn added to a tiny negative remainder
can round up to 360 itself, which is 0 again. -/
def wrapDegrees (degrees : α) : α :=
  let full := whole 360
  let left := remainder degrees full
  let wrapped := if left < whole 0 then left + full else left
  if full ≤ wrapped then whole 0 else wrapped

end Scalar

end TurtleGraphics
