import Mathlib
import TurtleGraphics.Proofs.Drawing.Outlines

/-!
# Turtles over the real numbers

The numbers that a turtle is computed with, read as real numbers. A position is a complex number
here, and a heading a direction on the unit circle, where turns multiply. What a path of sides and
turns leads to is a sum of such directions (`follow_sides`); so a path closes if this sum is zero
and the turns make whole circles (`closes_of_reach`).
-/

set_option autoImplicit false

namespace TurtleGraphics

open Scalar

/-- The real numbers, with the remainder toward zero. -/
noncomputable instance : Scalar ℝ where
  whole n := n
  pi := Real.pi
  sin := Real.sin
  cos := Real.cos
  acos := Real.arccos
  sqrt := Real.sqrt
  remainder x y := x - y * (if 0 ≤ x / y then ⌊x / y⌋ else ⌈x / y⌉ : ℤ)
  tolerance := 1e-9
  decLt := inferInstance
  decLe := inferInstance

namespace Exact

/-! ## Angles -/

theorem toRadians_eq (x : ℝ) : toRadians x = x * (Real.pi / 180) := by
  simp [toRadians, whole, Scalar.pi]

theorem toDegrees_eq (x : ℝ) : toDegrees x = x * (180 / Real.pi) := by
  simp [toDegrees, whole, Scalar.pi]

theorem remainder_eq (x y : ℝ) :
    remainder x y = x - y * (if 0 ≤ x / y then ⌊x / y⌋ else ⌈x / y⌉ : ℤ) := rfl

theorem whole_eq (n : ℕ) : (whole n : ℝ) = n := rfl

/-- What is left of an angle without its full circles is not below zero, or one circle more brings
it there. -/
theorem remainder_cases (x : ℝ) :
    remainder x (whole 360) = 360 * Int.fract (x / 360) ∨
      0 < Int.fract (x / 360) ∧ remainder x (whole 360) = 360 * Int.fract (x / 360) - 360 := by
  have hfloor := Int.floor_add_fract (x / 360)
  rw [remainder_eq, whole_eq, Nat.cast_ofNat]
  by_cases hx : 0 ≤ x / 360
  · left
    rw [if_pos hx]
    linarith
  rw [if_neg hx]
  by_cases h0 : Int.fract (x / 360) = 0
  · left
    obtain ⟨k, hk⟩ := Int.fract_eq_zero_iff.1 h0
    rw [h0, ← hk, Int.ceil_intCast, hk]
    ring
  · right
    rw [Int.ceil_eq_add_one_sub_fract h0]
    exact ⟨(Int.fract_nonneg _).lt_of_ne' h0, by ring⟩

/-- Wrapping leaves the part of a circle that is behind the last full one. -/
theorem wrapDegrees_eq (x : ℝ) : wrapDegrees x = 360 * Int.fract (x / 360) := by
  have hlo := Int.fract_nonneg (x / 360)
  have hhi := Int.fract_lt_one (x / 360)
  unfold wrapDegrees
  rcases remainder_cases x with h | ⟨hpos, h⟩ <;> simp only [h] <;>
    simp only [whole_eq, Nat.cast_ofNat, Nat.cast_zero]
  · have hneg : ¬ 360 * Int.fract (x / 360) < 0 := by linarith
    rw [if_neg hneg, if_neg (by linarith)]
  · have hneg : 360 * Int.fract (x / 360) - 360 < 0 := by linarith
    rw [if_pos hneg, if_neg (by linarith)]
    ring

/-- An angle of less than a circle is wrapped. -/
theorem wrapDegrees_of_lt {x : ℝ} (hlo : 0 ≤ x) (hhi : x < 360) : wrapDegrees x = x := by
  rw [wrapDegrees_eq, Int.fract_eq_self.2 ⟨by linarith, by linarith⟩]
  ring

/-- Full circles make no difference. -/
theorem wrapDegrees_add_circles (x : ℝ) (k : ℤ) : wrapDegrees (x + 360 * k) = wrapDegrees x := by
  rw [wrapDegrees_eq, wrapDegrees_eq, show (x + 360 * k) / 360 = x / 360 + k by ring,
    Int.fract_add_intCast]

theorem wrapDegrees_eq_sub (x : ℝ) : wrapDegrees x = x + 360 * (-⌊x / 360⌋ : ℤ) := by
  rw [wrapDegrees_eq, ← Int.self_sub_floor]
  push_cast
  ring

/-- A sum may be wrapped before or after the last summand. -/
theorem wrapDegrees_wrapDegrees_add (x y : ℝ) :
    wrapDegrees (wrapDegrees x + y) = wrapDegrees (x + y) := by
  rw [wrapDegrees_eq_sub x, add_right_comm, wrapDegrees_add_circles]

/-! ## Directions -/

/-- The point of the unit circle in the direction of an angle in degrees. -/
noncomputable def direction (degrees : ℝ) : ℂ :=
  Complex.exp ((degrees * (Real.pi / 180) : ℝ) * Complex.I)

theorem direction_add (x y : ℝ) : direction (x + y) = direction x * direction y := by
  rw [direction, direction, direction, ← Complex.exp_add]
  push_cast
  ring_nf

theorem direction_eq_one_iff (x : ℝ) : direction x = 1 ↔ ∃ k : ℤ, x = 360 * k := by
  rw [direction, Complex.exp_eq_one_iff]
  have hpi := Real.pi_pos.ne'
  refine exists_congr fun k => ?_
  rw [show (k : ℂ) * (2 * Real.pi * Complex.I) = ((k * (2 * Real.pi) : ℝ) : ℂ) * Complex.I by
    push_cast; ring, mul_left_inj' Complex.I_ne_zero, Complex.ofReal_inj]
  constructor <;> intro h
  · field_simp at h
    linarith
  · rw [h]
    ring

theorem direction_circles (k : ℤ) : direction (360 * k) = 1 := (direction_eq_one_iff _).2 ⟨k, rfl⟩

theorem direction_wrapDegrees (x : ℝ) : direction (wrapDegrees x) = direction x := by
  rw [wrapDegrees_eq_sub, direction_add, direction_circles, mul_one]

theorem direction_pow (x : ℝ) (n : ℕ) : direction x ^ n = direction (n * x) := by
  rw [direction, direction, ← Complex.exp_nat_mul]
  push_cast
  ring_nf

/-! ## Paths -/

/-- A point of the plane as a complex number. -/
def complex (p : Point ℝ) : ℂ := ⟨p.x, p.y⟩

theorem complex_injective {p q : Point ℝ} (h : complex p = complex q) : p = q := by
  obtain ⟨x, y⟩ := p
  obtain ⟨x', y'⟩ := q
  simp only [complex, Complex.mk.injEq] at h
  rw [h.1, h.2]

theorem complex_ahead (t : Turtle ℝ) (distance : ℝ) :
    complex (t.ahead distance) = complex t.position + direction t.heading * distance := by
  have hx : (t.ahead distance).x =
      t.position.x + Real.cos (t.heading * (Real.pi / 180)) * distance := by
    rw [← toRadians_eq]
    rfl
  have hy : (t.ahead distance).y =
      t.position.y + Real.sin (t.heading * (Real.pi / 180)) * distance := by
    rw [← toRadians_eq]
    rfl
  apply Complex.ext <;> simp [complex, direction, hx, hy, Complex.exp_ofReal_mul_I_re,
    Complex.exp_ofReal_mul_I_im, -Complex.ofReal_mul]

/-- Where sides lead to with the turns behind them, seen from the start and the first direction. -/
noncomputable def reach : List (ℝ × ℝ) → ℂ
  | [] => 0
  | (length, turn) :: rest => length + direction turn * reach rest

/-- The sum of the turns. -/
def turning (sides : List (ℝ × ℝ)) : ℝ := (sides.map Prod.snd).sum

/-- A side of a path and the turn behind it, where nothing is in the way. -/
theorem follow_side (t : Turtle ℝ) (length turn : ℝ) (rest : List (Step ℝ)) :
    (t.follow none (.forward length :: .turn turn :: rest)).1 =
      (({ t with position := t.ahead length }.turn turn).follow none rest).1 := by
  have hw : Turtle.Within none (t.ahead length) := by simp [Turtle.Within]
  simp only [Turtle.follow, Turtle.step, Turtle.forward, if_pos hw]

theorem follow_sides (t : Turtle ℝ) (sides : List (ℝ × ℝ)) :
    ∃ position heading, (t.follow none (sideSteps sides)).1 = { t with position, heading } ∧
      complex position = complex t.position + direction t.heading * reach sides ∧
      wrapDegrees heading = wrapDegrees (t.heading + turning sides) ∧
      (sides ≠ [] → wrapDegrees heading = heading) := by
  induction sides generalizing t with
  | nil => exact ⟨t.position, t.heading, rfl, by simp [reach], by simp [turning], by simp⟩
  | cons side rest ih =>
    obtain ⟨length, turn⟩ := side
    obtain ⟨position, heading, hfollow, hposition, hheading, hwrapped⟩ :=
      ih ({ t with position := t.ahead length }.turn turn)
    have hreached : complex ({ t with position := t.ahead length }.turn turn).position =
      complex t.position + direction t.heading * length := complex_ahead t length
    have hturned : ({ t with position := t.ahead length }.turn turn : Turtle ℝ).heading =
      wrapDegrees (t.heading + turn) := rfl
    rw [hreached, hturned, direction_wrapDegrees, direction_add] at hposition
    rw [hturned, wrapDegrees_wrapDegrees_add, add_assoc] at hheading
    refine ⟨position, heading, ?_, ?_, hheading, fun _ => ?_⟩
    · rw [sideSteps_cons, follow_side, hfollow]
      rfl
    · rw [hposition, reach]
      ring
    · by_cases hrest : rest = []
      · -- the turn behind the last side has wrapped the heading
        subst hrest
        have : heading = wrapDegrees (t.heading + turn) := congrArg Turtle.heading hfollow.symm
        rw [this]
        simpa using wrapDegrees_wrapDegrees_add (t.heading + turn) 0
      · exact hwrapped hrest

/-! ## Closed paths -/

/-- The steps bring every turtle back to where it was and to the direction it had, and those with a
heading in `[0, 360)` to this very heading. -/
def Closes (steps : List (Step ℝ)) : Prop :=
  ∀ t : Turtle ℝ, (t.follow none steps).1 = { t with heading := wrapDegrees t.heading } ∧
    (0 ≤ t.heading → t.heading < 360 → (t.follow none steps).1 = t)

/-- A path closes if it leads to its start and makes whole circles. -/
theorem closes_of_reach {sides : List (ℝ × ℝ)} (hs : sides ≠ []) (hreach : reach sides = 0) (k : ℤ)
    (hturning : turning sides = 360 * k) : Closes (sideSteps sides) := by
  intro t
  obtain ⟨position, heading, hfollow, hposition, hheading, hwrapped⟩ := follow_sides t sides
  rw [hreach, mul_zero, add_zero] at hposition
  rw [hturning, wrapDegrees_add_circles, hwrapped hs] at hheading
  have hback : (t.follow none (sideSteps sides)).1 =
      { t with heading := wrapDegrees t.heading } := by
    rw [hfollow, complex_injective hposition, hheading]
  refine ⟨hback, fun hlo hhi => ?_⟩
  rw [hback, wrapDegrees_of_lt hlo hhi]

end Exact

end TurtleGraphics
