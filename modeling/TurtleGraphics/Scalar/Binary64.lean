import TurtleGraphics.Scalar

/-!
# Binary64 scalars

The scalars of the running program. The remainder is exact: both numbers are brought to one
binary exponent, divided as whole numbers, and what is left is a binary64 number again.
-/

set_option autoImplicit false

namespace TurtleGraphics

open Float.Model in
/-- The exact remainder of `x` by `y` with the sign of `x`. There is none if either is not a
number, `x` is infinite or `y` is zero. -/
def exactRemainder (x y : Float) : Float :=
  match x.toModel.unpack, y.toModel.unpack with
  | .notANumber, _ => 0.0 / 0.0
  | _, .notANumber => 0.0 / 0.0
  | .infinity _, _ => 0.0 / 0.0
  | _, .zero _ => 0.0 / 0.0
  | _, .infinity _ => x
  | .zero _, _ => x
  | .finite s m e _, .finite _ n f _ =>
    let low := min e f
    let left := (m <<< (e - low).toNat) % (n <<< (f - low).toNat)
    .ofModel (.pack (.round .binary64 s left low))

instance : Scalar Float where
  whole := Float.ofNat
  pi := 3.141592653589793
  sin := Float.sin
  cos := Float.cos
  acos := Float.acos
  sqrt := Float.sqrt
  remainder := exactRemainder
  tolerance := 1e-9
  decLt := Float.decLt
  decLe := Float.decLe

end TurtleGraphics
