import TurtleGraphics.Decimal.Layout

/-!
# Shortest decimals

The text of a binary64 number: the fewest digits that read back as the same number, of those
the nearest to it, an exact tie going up. A number `m · 2 ^ e` owns the reals that round to it,
an interval whose ends belong to it exactly when `m` is even. The search tries the grids of
multiples of `10 ^ k` from coarse to fine and stops at the first that has a point inside.
-/

set_option autoImplicit false

namespace TurtleGraphics.Decimal

open Float.Model

/-- The reals that round to one number: `lo / den` to `hi / den` around `mid / den`. -/
structure Interval where
  lo : Nat
  mid : Nat
  hi : Nat
  den : Nat
  closed : Bool

/-- The interval of `m · 2 ^ e`. The gap below is half as wide when `m` is the least mantissa of
its exponent and not of the least exponent. -/
def Interval.ofBinary (m : Nat) (e : Int) : Interval :=
  let up := (e - 2).toNat
  { lo := (4 * m - if m = 1 <<< 52 ∧ -1074 < e then 1 else 2) <<< up
    mid := (4 * m) <<< up
    hi := (4 * m + 2) <<< up
    den := 1 <<< (2 - e).toNat
    closed := m % 2 == 0 }

/-- The grid of multiples of `10 ^ k` against the interval, both brought to whole numbers: the
point `d` of the grid stands at `d * step`, the middle of the interval at `mid * widen`. -/
structure Grid where
  step : Nat
  widen : Nat

def Interval.grid (i : Interval) (k : Int) : Grid :=
  { step := i.den * tenTo k.toNat, widen := tenTo (-k).toNat }

/-- The point `d` of a grid lies in the interval. -/
def Interval.holds (i : Interval) (g : Grid) (d : Nat) : Bool :=
  if i.closed then i.lo * g.widen ≤ d * g.step && d * g.step ≤ i.hi * g.widen
  else i.lo * g.widen < d * g.step && d * g.step < i.hi * g.widen

/-- The point of the grid `10 ^ k` in the interval that is nearest to its middle, the upper of
two equally near ones. -/
def Interval.nearest? (i : Interval) (k : Int) : Option Nat :=
  let g := i.grid k
  let v := i.mid * g.widen
  let d := v / g.step
  match i.holds g d, i.holds g (d + 1) with
  | true, true => if v - d * g.step < (d + 1) * g.step - v then some d else some (d + 1)
  | true, false => some d
  | false, true => some (d + 1)
  | false, false => none

/-- Tries `10 ^ k` and then finer grids; gives the digits and the exponent. -/
def Interval.coarsest (i : Interval) : Nat → Int → Nat × Int
  | 0, k => (i.mid * (i.grid k).widen / (i.grid k).step, k)
  | fuel + 1, k =>
    match i.nearest? k with
    | some d => (d, k)
    | none => i.coarsest fuel (k - 1)

/-- Digits and exponent of the shortest decimal of `m · 2 ^ e`. The coarsest grid tried exceeds
the number; below `10 ^ (-343)` every grid is finer than the smallest gap. -/
def shortestDigits (m : Nat) (e : Int) : Nat × Int :=
  let i := Interval.ofBinary m e
  let top := (digits (i.hi / i.den)).length
  i.coarsest (top + 343) top

/-- The shortest text of a number. Never an exponent; whole numbers have no point. -/
def shortest (x : Float) : String :=
  match x.toModel.unpack with
  | .notANumber => "NaN"
  | .infinity .positive => "inf"
  | .infinity .negative => "-inf"
  | .zero s => String.ofList (signText (s == .negative) ++ ['0'])
  | .finite s m e _ =>
    let (d, k) := shortestDigits m e
    String.ofList (signText (s == .negative) ++ positional (digits d) k)

end TurtleGraphics.Decimal
