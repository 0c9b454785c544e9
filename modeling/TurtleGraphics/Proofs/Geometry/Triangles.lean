import TurtleGraphics.Proofs.Geometry.Exact

/-!
# The angles of a triangle

For the sides of a triangle the cosines that the law of cosines gives lie between -1 and 1, also
when the sides are scaled to the longest one (`cosineFacing_div`); so nothing is cut off and nothing
is divided by zero. Two angles that come from them add up to what the third one leaves of half a
circle (`cos_add_angles`, `angle_remaining`).
-/

set_option autoImplicit false

namespace TurtleGraphics

open Scalar

/-- The cosine of the angle opposite `x`, between the sides `y` and `z`. -/
def cosineFacing {α : Type} [Scalar α] (x y z : α) : α :=
  (y * y + z * z - x * x) / (whole 2 * y * z)

namespace Exact

/-! ## Sides -/

theorem isTriangle_iff (a b c : ℝ) : IsTriangle a b c ↔
    0 < a ∧ 0 < b ∧ 0 < c ∧ c < a + b ∧ b < a + c ∧ a < b + c := by
  simp [IsTriangle, whole_eq]

theorem isTriangle_rotate {a b c : ℝ} (h : IsTriangle a b c) : IsTriangle c a b := by
  obtain ⟨ha, hb, hc, hab, hac, hbc⟩ := (isTriangle_iff a b c).1 h
  exact (isTriangle_iff c a b).2 ⟨hc, ha, hb, by linarith, by linarith, by linarith⟩

theorem isTriangle_div {a b c m : ℝ} (h : IsTriangle a b c) (hm : 0 < m) :
    IsTriangle (a / m) (b / m) (c / m) := by
  obtain ⟨ha, hb, hc, hab, hac, hbc⟩ := (isTriangle_iff a b c).1 h
  refine (isTriangle_iff _ _ _).2 ⟨by positivity, by positivity, by positivity, ?_, ?_, ?_⟩ <;>
    rw [← add_div] <;> exact div_lt_div_of_pos_right ‹_› hm

/-! ## Cosines -/

variable {a b c : ℝ}

theorem cosineFacing_eq (x y z : ℝ) :
    cosineFacing x y z = (y * y + z * z - x * x) / (2 * y * z) := by
  simp [cosineFacing, whole_eq]

theorem cosineFacing_div {m : ℝ} (hm : m ≠ 0) (x y z : ℝ) :
    cosineFacing (x / m) (y / m) (z / m) = cosineFacing x y z := by
  have hnum : y / m * (y / m) + z / m * (z / m) - x / m * (x / m) =
      (y * y + z * z - x * x) / m ^ 2 := by
    field_simp
  have hden : 2 * (y / m) * (z / m) = 2 * y * z / m ^ 2 := by
    field_simp
  rw [cosineFacing_eq, cosineFacing_eq, hnum, hden, div_div_div_cancel_right₀ (pow_ne_zero 2 hm)]

theorem cosineFacing_lt_one (h : IsTriangle a b c) : cosineFacing a b c < 1 := by
  obtain ⟨ha, hb, hc, hab, hac, hbc⟩ := (isTriangle_iff a b c).1 h
  rw [cosineFacing_eq, div_lt_one (by positivity)]
  nlinarith [mul_pos (by linarith : 0 < a - b + c) (by linarith : 0 < a + b - c)]

theorem neg_one_lt_cosineFacing (h : IsTriangle a b c) : -1 < cosineFacing a b c := by
  obtain ⟨ha, hb, hc, hab, hac, hbc⟩ := (isTriangle_iff a b c).1 h
  rw [cosineFacing_eq, lt_div_iff₀ (by positivity)]
  nlinarith [mul_pos (by linarith : 0 < b + c - a) (by linarith : 0 < a + b + c)]

theorem clamp_cosineFacing (h : IsTriangle a b c) :
    clamp (-whole 1) (whole 1) (cosineFacing a b c) = cosineFacing a b c := by
  have hlo := neg_one_lt_cosineFacing h
  have hhi := cosineFacing_lt_one h
  unfold clamp
  simp only [whole_eq, Nat.cast_one]
  rw [if_neg hlo.le.not_gt, if_neg hhi.le.not_gt]

/-! ## Angles -/

/-- Sixteen times the square of a triangle's area. -/
def heron (a b c : ℝ) : ℝ := (a + b + c) * (b + c - a) * (a + c - b) * (a + b - c)

theorem heron_pos (h : IsTriangle a b c) : 0 < heron a b c := by
  obtain ⟨ha, hb, hc, hab, hac, hbc⟩ := (isTriangle_iff a b c).1 h
  unfold heron
  have h1 : 0 < b + c - a := by linarith
  have h2 : 0 < a + c - b := by linarith
  have h3 : 0 < a + b - c := by linarith
  positivity

theorem heron_rotate (a b c : ℝ) : heron c a b = heron a b c := by
  unfold heron
  ring

/-- The angle opposite the first of three sides, in radians. -/
noncomputable def angle (a b c : ℝ) : ℝ := Real.arccos (cosineFacing a b c)

theorem cos_angle (h : IsTriangle a b c) : Real.cos (angle a b c) = cosineFacing a b c :=
  Real.cos_arccos (neg_one_lt_cosineFacing h).le (cosineFacing_lt_one h).le

theorem sin_angle (h : IsTriangle a b c) :
    Real.sin (angle a b c) = √(heron a b c) / (2 * b * c) := by
  obtain ⟨ha, hb, hc, -⟩ := (isTriangle_iff a b c).1 h
  have hsquare : 1 - cosineFacing a b c ^ 2 = heron a b c / (2 * b * c) ^ 2 := by
    rw [cosineFacing_eq, heron]
    field_simp
    ring
  rw [angle, Real.sin_arccos, hsquare, Real.sqrt_div (heron_pos h).le,
    Real.sqrt_sq (by positivity)]

/-- The sum of two angles has the cosine of the third one, but for the sign. -/
theorem cos_add_angles (h : IsTriangle a b c) :
    Real.cos (angle a b c + angle c a b) = -cosineFacing b a c := by
  obtain ⟨ha, hb, hc, -⟩ := (isTriangle_iff a b c).1 h
  rw [Real.cos_add, cos_angle h, cos_angle (isTriangle_rotate h), sin_angle h,
    sin_angle (isTriangle_rotate h), heron_rotate a b c, div_mul_div_comm,
    Real.mul_self_sqrt (heron_pos h).le, heron, cosineFacing_eq, cosineFacing_eq, cosineFacing_eq]
  field_simp
  ring

theorem sin_add_angles (h : IsTriangle a b c) :
    Real.sin (angle a b c + angle c a b) = √(heron a b c) / (2 * a * c) := by
  obtain ⟨ha, hb, hc, -⟩ := (isTriangle_iff a b c).1 h
  rw [Real.sin_add, cos_angle h, cos_angle (isTriangle_rotate h), sin_angle h,
    sin_angle (isTriangle_rotate h), heron_rotate a b c, cosineFacing_eq, cosineFacing_eq]
  field_simp
  ring

theorem add_angles_lt_pi (h : IsTriangle a b c) : angle a b c + angle c a b < Real.pi := by
  obtain ⟨ha, hb, hc, -⟩ := (isTriangle_iff a b c).1 h
  have hsin : 0 < Real.sin (angle a b c + angle c a b) := by
    rw [sin_add_angles h]
    have := Real.sqrt_pos.2 (heron_pos h)
    positivity
  have h1 : angle a b c ≤ Real.pi := Real.arccos_le_pi _
  have h2 : angle c a b ≤ Real.pi := Real.arccos_le_pi _
  by_contra hge
  -- between half a circle and a whole one no sine is positive
  have := Real.sin_nonpos_of_nonpos_of_neg_pi_le
    (by linarith : angle a b c + angle c a b - 2 * Real.pi ≤ 0) (by linarith)
  rw [Real.sin_sub_two_pi] at this
  linarith

/-- What two angles leave of half a circle is the third one. -/
theorem angle_remaining (h : IsTriangle a b c) :
    Real.pi - angle a b c - angle c a b = angle b a c := by
  have hlo : 0 ≤ angle a b c + angle c a b :=
    add_nonneg (Real.arccos_nonneg _) (Real.arccos_nonneg _)
  have hhi := add_angles_lt_pi h
  have hcos : Real.cos (Real.pi - angle a b c - angle c a b) = cosineFacing b a c := by
    rw [sub_sub, Real.cos_pi_sub, cos_add_angles h, neg_neg]
  show _ = Real.arccos (cosineFacing b a c)
  rw [← hcos, Real.arccos_cos (by linarith) (by linarith)]

end Exact

end TurtleGraphics
