import TurtleGraphics.Text.Digits

/-!
# Reading decimals

The text of a number: an optional sign, then `inf`, `infinity` or `nan` in any ASCII case, or
digits with at most one point among or beside them and an optional decimal exponent. The value
is the nearest binary64 number.
-/

set_option autoImplicit false

namespace TurtleGraphics.Decimal

open Text

/-- An unsigned decimal as written: the digits without the point, and how many stood behind
it. -/
structure Numeral where
  digits : List Char
  places : Nat

/-- Digits, and after a point more digits; what follows them is left over. -/
def splitNumeral (cs : List Char) : Numeral × List Char :=
  let whole := cs.takeWhile isDigit
  match cs.dropWhile isDigit with
  | '.' :: rest =>
    let part := rest.takeWhile isDigit
    (⟨whole ++ part, part.length⟩, rest.dropWhile isDigit)
  | rest => (⟨whole, 0⟩, rest)

/-- The decimal exponent behind the digits: none, or `e` and a signed run of digits. -/
def readExponent? : List Char → Option Int
  | [] => some 0
  | c :: cs => if c = 'e' ∨ c = 'E' then readInteger? cs else none

/-- The number `m · 10 ^ e` as the nearest binary64 number. -/
def ofDecimal (m : Nat) (e : Int) : Float :=
  if 0 ≤ e then Float.ofScientific m false e.toNat else Float.ofScientific m true (-e).toNat

/-- The words for the numbers that are no decimals. -/
def readWord? (cs : List Char) : Option Float :=
  let w := String.ofList (cs.map Char.toLower)
  if w = "inf" ∨ w = "infinity" then some (1.0 / 0.0)
  else if w = "nan" then some (0.0 / 0.0)
  else none

def readUnsigned? (cs : List Char) : Option Float :=
  let (numeral, rest) := splitNumeral cs
  if numeral.digits.isEmpty then readWord? cs
  else (readExponent? rest).map fun e =>
    ofDecimal (digitsValue numeral.digits) (e - numeral.places)

/-- The number that a text spells. -/
def read? (cs : List Char) : Option Float :=
  let (minus, rest) := splitSign cs
  (readUnsigned? rest).map fun x => if minus then -x else x

end TurtleGraphics.Decimal
