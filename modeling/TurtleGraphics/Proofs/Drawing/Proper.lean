import TurtleGraphics.Proofs.Drawing.Effects

/-!
# Proper turtles

A turtle is proper if its heading is an angle as wrapping leaves it and its pen has a width. It
starts so if the configured heading is finite, and every action keeps it so (`Proper.execute`): a
turn adds a whole number of degrees, which cannot make the heading infinite, and wraps the sum.
-/

set_option autoImplicit false

namespace TurtleGraphics

open Scalar Binary64

/-- A whole number of degrees is rounded, added to a heading and rounded again; neither is too large
for a float. -/
theorem add_scalarOf {x : Float} (hx : Wrapped x) (n : Int64) :
    ((scalarOf n).isFinite ∧ Nearest n.toInt (value (scalarOf n))) ∧
      (x + scalarOf n).isFinite ∧
        Nearest (value x + value (scalarOf n)) (value (x + scalarOf n)) := by
  have hlo : -(2 ^ 63 : Int) ≤ n.toInt := n.le_toInt
  have hhi : n.toInt < (2 ^ 63 : Int) := n.toInt_lt
  obtain ⟨hpacked, hnear⟩ := ofInt_nearest (n := n.toInt) (by omega)
  have hn : |(n.toInt : Rat)| ≤ 2 ^ 63 :=
    abs_le.2 ⟨by exact_mod_cast hlo, by exact_mod_cast hhi.le⟩
  have hturn : |value (scalarOf n)| ≤ 2 * 2 ^ 63 + 1 := by
    have := hnear.abs_le
    rw [scalarOf]
    linarith
  have hheading : |value x| < 360 := abs_lt.2 ⟨by linarith [hx.nonneg], hx.lt_full⟩
  have hsum : |value x + value (scalarOf n)| < 2 ^ 100 := by
    calc |value x + value (scalarOf n)| ≤ |value x| + |value (scalarOf n)| := abs_add_le _ _
      _ < 360 + (2 * 2 ^ 63 + 1) := by linarith
      _ < 2 ^ 100 := by norm_num
  obtain ⟨hpacked', hnear'⟩ := add_nearest hx.isFinite hpacked.isFinite hsum
  exact ⟨⟨hpacked.isFinite, hnear⟩, hpacked'.isFinite, hnear'⟩

/-! ## Turtles -/

/-- The heading lies in `[0, 360)`, and the pen has a width. -/
structure Turtle.Proper (t : Turtle Float) : Prop where
  heading : Wrapped t.heading
  width : 0 < t.width

namespace Turtle.Proper

variable {config : Config} {d d' : Drawing}

theorem start (hc : config.heading.isFinite) (bounds : Bounds Float) :
    (config.startingTurtle bounds).Proper :=
  ⟨wrapDegrees_wrapped hc, config.width_pos⟩

theorem effect (hc : config.heading.isFinite) (ht : d.turtle.Proper) {a : Action}
    (h : a.Effect config d d') : d'.turtle.Proper := by
  cases a with
  | turn n => cases h; exact ⟨wrapDegrees_wrapped (add_scalarOf ht.heading n).2.1, ht.width⟩
  | penWidth n =>
    obtain ⟨hn, rfl⟩ := h
    exact ⟨ht.heading, UInt32.pos_iff_ne_zero.2 hn⟩
  | reset => cases h; exact start hc _
  | about | clear | move _ | penUp | penDown | colour _ | circle _ =>
    cases h
    exact ⟨ht.heading, ht.width⟩
  | square _ | star _ | hexagon _ | triangle _ =>
    obtain ⟨segments, rfl⟩ := h
    exact ⟨ht.heading, ht.width⟩

/-- No action makes a turtle improper, carried out or not. -/
theorem execute (hc : config.heading.isFinite) (ht : d.turtle.Proper) (a : Action) :
    (a.execute config d).2.turtle.Proper := by
  obtain ⟨message, -, heffect⟩ | ⟨e, he⟩ := Action.execute_cases config a ht.heading.wrapDegrees_eq
  · exact ht.effect hc heffect
  · rw [he]
    exact ht

end Turtle.Proper

end TurtleGraphics
