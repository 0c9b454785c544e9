import TurtleGraphics.Proofs.Geometry.Triangles

/-!
# Closed outlines

Over the real numbers every outline closes. The directions of the sides of a regular one are the
powers of a root of unity, whose sum is zero (`regular_closes`). In a triangle each side is met by
the other two under the angles of the law of cosines (`triangle_closes`), since the angle that is
left to half a circle is the one that faces the second side (`ofSides_eq`).
-/

set_option autoImplicit false

namespace TurtleGraphics

open Scalar

namespace Exact

/-! ## Regular outlines -/

theorem reach_replicate (n : ℕ) (side turn : ℝ) :
    reach (List.replicate n (side, turn)) = side * ∑ i ∈ Finset.range n, direction turn ^ i := by
  induction n with
  | zero => simp [reach]
  | succ n ih =>
    rw [List.replicate_succ, reach, ih, geom_sum_succ]
    ring

theorem turning_replicate (n : ℕ) (side turn : ℝ) :
    turning (List.replicate n (side, turn)) = n * turn := by
  simp [turning]

theorem direction_ne_one {turn : ℝ} (hlo : 0 < turn) (hhi : turn < 360) : direction turn ≠ 1 := by
  rw [Ne, direction_eq_one_iff]
  rintro ⟨k, rfl⟩
  have h0 : 0 < k := by exact_mod_cast (by linarith : (0 : ℝ) < k)
  have h1 : k < 1 := by exact_mod_cast (by linarith : (k : ℝ) < 1)
  omega

/-- Equal sides with equal turns that make whole circles in all. -/
theorem regular_closes {n : ℕ} (hn : n ≠ 0) (side : ℝ) {turn : ℝ} (hlo : 0 < turn)
    (hhi : turn < 360) (k : ℤ) (h : n * turn = 360 * k) :
    Closes (Outline.ofPattern (.regular n side turn)).steps := by
  rw [Outline.steps_ofPattern, Pattern.turnedSides_regular]
  refine closes_of_reach (by simpa using hn) ?_ k ((turning_replicate ..).trans h)
  have hpow : direction turn ^ n = 1 := by rw [direction_pow, h, direction_circles]
  have hsum := geom_sum_mul (direction turn) n
  rw [hpow, sub_self] at hsum
  have hzero := (mul_eq_zero.1 hsum).resolve_right (sub_ne_zero.2 (direction_ne_one hlo hhi))
  rw [reach_replicate, hzero, mul_zero]

theorem regularPolygon_closes {n : ℕ} (hn : 3 ≤ n) (side : ℝ) :
    Closes (Outline.regularPolygon n side).steps := by
  have hn' : (3 : ℝ) ≤ n := by exact_mod_cast hn
  refine regular_closes (by omega) side ?_ ?_ 1 ?_ <;> simp only [whole_eq, Nat.cast_ofNat]
  · positivity
  · rw [div_lt_iff₀ (by linarith)]
    linarith
  · field_simp
    norm_num

theorem equilateralTriangle_closes (side : ℝ) :
    Closes (Outline.equilateralTriangle side).steps := by
  refine regular_closes (by decide) side ?_ ?_ 1 ?_ <;> norm_num [whole_eq]

/-- The turns of a star make two circles. -/
theorem star_closes (side : ℝ) : Closes (Outline.star side).steps := by
  refine regular_closes (by decide) side ?_ ?_ 2 ?_ <;> norm_num [whole_eq]

/-! ## Triangles -/

variable {a b c : ℝ}

theorem larger_pos {x y : ℝ} (hx : 0 < x) (hy : 0 < y) : 0 < larger x y := by
  unfold larger
  split
  · exact hy
  · rw [if_pos le_rfl]
    exact hx

theorem longest_pos (h : IsTriangle a b c) : 0 < larger (larger a b) c := by
  obtain ⟨ha, hb, hc, -⟩ := (isTriangle_iff a b c).1 h
  exact larger_pos (larger_pos ha hb) hc

/-- Scaled sides have the same angles, and clamping has nothing to cut off. -/
theorem angleFacing_div (h : IsTriangle a b c) {m : ℝ} (hm : 0 < m) :
    angleFacing (a / m) (b / m) (c / m) = toDegrees (angle a b c) := by
  have hcosine := (clamp_cosineFacing (isTriangle_div h hm)).trans (cosineFacing_div hm.ne' a b c)
  exact congrArg (fun cosine => toDegrees (Real.arccos cosine)) hcosine

/-- The angles in degrees are those of the law of cosines, all three of them. -/
theorem ofSides_eq (h : IsTriangle a b c) : Angles.ofSides a b c =
    ⟨toDegrees (angle a b c), toDegrees (angle b a c), toDegrees (angle c a b)⟩ := by
  have hremaining : whole 180 - toDegrees (angle a b c) - toDegrees (angle c a b) =
      toDegrees (angle b a c) := by
    have hpi := Real.pi_pos.ne'
    rw [← angle_remaining h]
    simp only [toDegrees_eq, whole_eq, Nat.cast_ofNat]
    field_simp
  unfold Angles.ofSides
  simp only [angleFacing_div h (longest_pos h),
    angleFacing_div (isTriangle_rotate h) (longest_pos h), hremaining]

/-- The turn at a corner is the outer angle. -/
theorem direction_outer (x : ℝ) :
    direction (180 - toDegrees x) = Complex.exp ((Real.pi - x : ℝ) * Complex.I) := by
  have hpi := Real.pi_pos.ne'
  rw [direction, toDegrees_eq]
  congr 3
  field_simp

theorem steps_triangle (h : IsTriangle a b c) : (Outline.triangle a b c).steps = sideSteps
    [(a, 180 - toDegrees (angle c a b)), (b, 180 - toDegrees (angle a b c)),
      (c, 180 - toDegrees (angle b a c))] := by
  have hturns := ofSides_eq h
  unfold Outline.triangle
  rw [Outline.steps_ofPattern, Pattern.turnedSides_threeSided]
  simp [hturns, whole_eq]

theorem reach_triangle (h : IsTriangle a b c) : reach
    [(a, 180 - toDegrees (angle c a b)), (b, 180 - toDegrees (angle a b c)),
      (c, 180 - toDegrees (angle b a c))] = 0 := by
  obtain ⟨ha, hb, hc, -⟩ := (isTriangle_iff a b c).1 h
  have hre : a - b * Real.cos (angle c a b) + c * Real.cos (angle a b c + angle c a b) = 0 := by
    rw [cos_add_angles h, cos_angle (isTriangle_rotate h), cosineFacing_eq, cosineFacing_eq]
    field_simp
    ring
  have him : b * Real.sin (angle c a b) - c * Real.sin (angle a b c + angle c a b) = 0 := by
    rw [sin_add_angles h, sin_angle (isTriangle_rotate h), heron_rotate a b c]
    field_simp
    ring
  rw [Real.cos_add] at hre
  rw [Real.sin_add] at him
  simp only [reach, mul_zero, add_zero, direction_outer]
  apply Complex.ext <;>
    simp only [Complex.add_re, Complex.add_im, Complex.mul_re, Complex.mul_im, Complex.ofReal_re,
      Complex.ofReal_im, Complex.exp_ofReal_mul_I_re, Complex.exp_ofReal_mul_I_im,
      Real.cos_pi_sub, Real.sin_pi_sub, Complex.zero_re, Complex.zero_im]
  · linarith
  · linarith

theorem triangle_closes (h : IsTriangle a b c) : Closes (Outline.triangle a b c).steps := by
  rw [steps_triangle h]
  refine closes_of_reach (by simp) (reach_triangle h) 1 ?_
  have hpi := Real.pi_pos.ne'
  simp only [turning, List.map_cons, List.map_nil, List.sum_cons, List.sum_nil,
    ← angle_remaining h, toDegrees_eq]
  field_simp
  ring

/-! ## All outlines -/

/-- What the angles of a triangle are divided by when they are computed: the longest side and, with
the sides scaled to it, twice the product of two of them; besides, half a circle in degrees and in
radians. -/
noncomputable def divisors (a b c : ℝ) : List ℝ :=
  let longest := larger (larger a b) c
  [longest, whole 2 * (b / longest) * (c / longest), whole 2 * (a / longest) * (b / longest),
    whole 180, Scalar.pi]

theorem divisors_ne_zero (h : IsTriangle a b c) : ∀ x ∈ divisors a b c, x ≠ 0 := by
  obtain ⟨ha, hb, hc, -⟩ := (isTriangle_iff a b c).1 h
  have hm := longest_pos h
  have hpi : (Scalar.pi : ℝ) ≠ 0 := Real.pi_pos.ne'
  simp only [divisors, whole_eq, List.forall_mem_cons, List.not_mem_nil, false_implies,
    implies_true, and_true]
  exact ⟨hm.ne', by positivity, by positivity, by norm_num, hpi⟩

/-- In exact arithmetic every outline closes. For the sides of a triangle nothing is divided by
zero, the two cosines that its angles are computed from need no clamping, and the second angle,
which is what the others leave of half a circle, is the one that the law of cosines gives for it. -/
theorem outlines_close :
    (∀ a b c : ℝ, IsTriangle a b c →
      let longest := larger (larger a b) c
      let cosA := cosineFacing (a / longest) (b / longest) (c / longest)
      let cosC := cosineFacing (c / longest) (a / longest) (b / longest)
      let angles := Angles.ofSides a b c
      (Outline.triangle a b c).steps = [.forward a, .turn (180 - angles.c), .forward b,
        .turn (180 - angles.a), .forward c, .turn (180 - angles.b)] ∧
      Closes (Outline.triangle a b c).steps ∧
      (∀ x ∈ divisors a b c, x ≠ 0) ∧
      ((-1 ≤ cosA ∧ cosA ≤ 1) ∧ -1 ≤ cosC ∧ cosC ≤ 1) ∧
      angles.a = toDegrees (Real.arccos cosA) ∧ angles.c = toDegrees (Real.arccos cosC) ∧
      angles.b = 180 - angles.a - angles.c ∧
      angles.b = toDegrees (Real.arccos ((a ^ 2 + c ^ 2 - b ^ 2) / (2 * a * c)))) ∧
    (∀ n ≥ 3, ∀ side : ℝ, (whole n : ℝ) ≠ 0 ∧ Closes (Outline.regularPolygon n side).steps) ∧
    ∀ side : ℝ, Closes (Outline.equilateralTriangle side).steps ∧
      Closes (Outline.star side).steps := by
  refine ⟨fun a b c h => ?_, fun n hn side => ⟨?_, regularPolygon_closes hn side⟩,
    fun side => ⟨equilateralTriangle_closes side, star_closes side⟩⟩
  · intro longest cosA cosC angles
    have hm : longest ≠ 0 := (longest_pos h).ne'
    have hangles : angles = _ := ofSides_eq h
    have hcosA : cosA = cosineFacing a b c := cosineFacing_div hm a b c
    have hcosC : cosC = cosineFacing c a b := cosineFacing_div hm c a b
    have hremaining : angles.b = 180 - angles.a - angles.c := by
      show whole 180 - _ - _ = _
      rw [whole_eq, Nat.cast_ofNat]
      rfl
    have hcosB : cosineFacing b a c = (a ^ 2 + c ^ 2 - b ^ 2) / (2 * a * c) := by
      rw [cosineFacing_eq, sq, sq, sq]
    refine ⟨?_, triangle_closes h, divisors_ne_zero h, ?_, ?_, ?_, hremaining, ?_⟩
    · rw [steps_triangle h, hangles]
      rfl
    · rw [hcosA, hcosC]
      have h' := isTriangle_rotate h
      exact ⟨⟨(neg_one_lt_cosineFacing h).le, (cosineFacing_lt_one h).le⟩,
        (neg_one_lt_cosineFacing h').le, (cosineFacing_lt_one h').le⟩
    · rw [hcosA, hangles]
      rfl
    · rw [hcosC, hangles]
      rfl
    · rw [hangles, ← hcosB]
      rfl
  · rw [whole_eq, Nat.cast_ne_zero]
    omega

theorem outlines_close_sample :
    IsTriangle (3 : ℝ) 4 5 ∧ Closes (Outline.triangle (3 : ℝ) 4 5).steps ∧ 7 ≥ 3 ∧
      Closes (Outline.regularPolygon 7 (-2.5 : ℝ)).steps := by
  have h : IsTriangle (3 : ℝ) 4 5 := (isTriangle_iff 3 4 5).2 (by norm_num)
  obtain ⟨htriangle, hpolygon, -⟩ := outlines_close
  exact ⟨h, (htriangle 3 4 5 h).2.1, by decide, (hpolygon 7 (by decide) (-2.5)).2⟩

end Exact

end TurtleGraphics
