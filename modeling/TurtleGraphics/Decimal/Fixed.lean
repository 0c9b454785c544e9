import TurtleGraphics.Decimal.Layout

/-!
# Fixed decimals

A binary64 number with a given count of places: its exact value rounded to the nearest decimal,
a half going to the even neighbour. The sign stays, on a rounded zero too.
-/

set_option autoImplicit false

namespace TurtleGraphics.Decimal

open Float.Model

/-- The quotient `n / d` to the nearest whole number, a half to the even one. -/
def roundDiv (n d : Nat) : Nat :=
  let q := n / d
  let r := n % d
  if 2 * r < d then q else if d < 2 * r then q + 1 else q + q % 2

/-- The product `m · 2 ^ e · 10 ^ places` to the nearest whole number. -/
def scaled (m : Nat) (e : Int) (places : Nat) : Nat :=
  roundDiv ((m <<< e.toNat) * tenTo places) (1 <<< (-e).toNat)

/-- The text of a number with `places` digits behind the point. -/
def fixed (places : Nat) (x : Float) : String :=
  match x.toModel.unpack with
  | .notANumber => "NaN"
  | .infinity .positive => "inf"
  | .infinity .negative => "-inf"
  | .zero s => String.ofList (signText (s == .negative) ++ withPlaces 0 places)
  | .finite s m e _ =>
    String.ofList (signText (s == .negative) ++ withPlaces (scaled m e places) places)

end TurtleGraphics.Decimal
