/-!
# Positional decimals

A decimal `digits · 10 ^ exponent` written out in full, without an exponent: zeros fill the
places between the digits and the point.
-/

set_option autoImplicit false

namespace TurtleGraphics.Decimal

/-- A power of ten. -/
def tenTo (n : Nat) : Nat := Nat.pow 10 n

def zeros (n : Nat) : List Char := List.replicate n '0'

/-- The decimal digits of a number, the most significant first. -/
def digits (n : Nat) : List Char := Nat.toDigits 10 n

/-- The number `digits · 10 ^ exponent` in full; a point stands only before a fraction. -/
def positional (ds : List Char) (exponent : Int) : List Char :=
  if 0 ≤ exponent then ds ++ zeros exponent.toNat
  else
    let places := (-exponent).toNat
    if places < ds.length then ds.take (ds.length - places) ++ '.' :: ds.drop (ds.length - places)
    else '0' :: '.' :: (zeros (places - ds.length) ++ ds)

/-- The number `n / 10 ^ places` with exactly `places` digits behind the point. -/
def withPlaces (n places : Nat) : List Char :=
  if places = 0 then digits n
  else
    let ds := digits n
    positional (zeros (places + 1 - ds.length) ++ ds) (-(places : Int))

def signText (minus : Bool) : List Char := if minus then ['-'] else []

end TurtleGraphics.Decimal
