import TurtleGraphics.Proofs.Scalar.Packing

/-!
# The two zeros

Zero has two signs. Adding the negative one changes nothing (`neg_whole_zero_add`), and adding the
positive one changes only the negative one (`add_whole_zero`). A sum is the negative zero only if
both numbers are (`MinusZero.of_add`), so a sum that has started with any other number never becomes
it, and zeros that are added on the way may as well be left out.
-/

set_option autoImplicit false

namespace TurtleGraphics

open Scalar Binary64
open Float.Model (UnpackedFloat Format)
open Float.Model.UnpackedFloat

def MinusZero (x : Float) : Prop := x.toModel.unpack = .zero .negative

/-! ## Signs -/

namespace Binary64

/-- The sign of a zero is the one that was packed. -/
theorem sign_of_unpack {s s' : Sign} {e : BitVec 11} {m : BitVec 52}
    (h : unpack .binary64 (packComponents .binary64 s e m) = .zero s') : s' = s := by
  unfold unpack at h
  simp only [unpackMantissa_packComponents, unpackExponent_packComponents,
    unpackSign_packComponents, Sign.ofBitVec_toBitVec] at h
  split at h
  · split at h <;> cases h
  split at h
  · split at h
    · cases h; rfl
    · cases h
  · cases h

theorem pack_finite (s : Sign) {m : Nat} (e : Int) (hm : 0 < m) :
    ∃ e' m', pack .binary64 (.finite s m e hm) = packComponents .binary64 s e' m' := by
  unfold pack
  simp only
  split
  · exact ⟨_, _, rfl⟩
  split <;> exact ⟨_, _, rfl⟩

/-- What is packed to a negative zero is one, or it is negative and not canonical. -/
theorem eq_of_pack_minusZero {u : UnpackedFloat}
    (h : unpack .binary64 (pack .binary64 u) = .zero .negative) :
    u = .zero .negative ∨ ∃ m e hm, u = .finite .negative m e hm ∧ ¬ Digits m e := by
  cases u with
  | notANumber => cases h
  | infinity s => cases s <;> cases h
  | zero s =>
    cases s with
    | positive => cases h
    | negative => exact .inl rfl
  | finite s m e hm =>
    obtain ⟨e', m', hpack⟩ := pack_finite s e hm
    obtain rfl : .negative = s := sign_of_unpack (hpack ▸ h)
    refine .inr ⟨m, e, hm, rfl, fun hd => ?_⟩
    rcases le_or_gt e 971 with he | he
    · rw [unpack_pack hm hd he] at h
      cases h
    · rw [pack_of_large _ hm he] at h
      cases h

/-! ## Sums of unpacked numbers -/

/-- A number that is not below the smallest one is not rounded to zero. -/
theorem Nearest.ne_zero {q v : Rat} (h : Nearest q v) (hq : 2 ^ (-1074 : Int) ≤ |q|) : v ≠ 0 := by
  have hpos : (0 : Rat) < 2 ^ (-1074 : Int) := by positivity
  rw [Ne, h.eq_zero_iff]
  linarith

theorem normalize_ne_minusZero (n : Int) {e : Int} (he : -1074 ≤ e) :
    normalize .binary64 n e .positive ≠ .zero .negative := by
  intro h
  by_cases hn : n = 0
  · subst hn
    cases h
  · obtain ⟨-, hnear⟩ := normalize_nearest n e .positive
    refine hnear.ne_zero ?_ (by rw [h, rational_zero])
    have hone : (1 : Rat) ≤ |(n : Rat)| := by exact_mod_cast Int.one_le_abs hn
    rw [abs_mul, abs_of_pos (by positivity : (0 : Rat) < 2 ^ e)]
    calc (2 : Rat) ^ (-1074 : Int) ≤ 2 ^ e := zpow_le_zpow_right₀ one_le_two he
      _ ≤ |(n : Rat)| * 2 ^ e := le_mul_of_one_le_left (by positivity) hone

theorem add_eq_minusZero {u v : UnpackedFloat} (hu : Canonical u) (hv : Canonical v)
    (h : add .binary64 u v = .zero .negative) : u = .zero .negative ∧ v = .zero .negative := by
  obtain ⟨s, rfl⟩ | ⟨s, m, e, hm, rfl, hd⟩ := hu.cases <;>
    obtain ⟨s', rfl⟩ | ⟨s', n, f, hn, rfl, hd'⟩ := hv.cases
  · cases s <;> cases s' <;> cases h
    exact ⟨rfl, rfl⟩
  · cases h
  · cases h
  · exact absurd h (normalize_ne_minusZero _ (le_min hd.low hd'.low))

theorem minusZero_add_unpacked (u : UnpackedFloat) :
    add .binary64 (.zero .negative) u = u := by
  cases u with
  | zero s => cases s <;> rfl
  | notANumber | infinity _ | finite _ _ _ _ => rfl

theorem zero_add_unpacked {u : UnpackedFloat} (hu : u ≠ .zero .negative) :
    add .binary64 (.zero .positive) u = u ∧ add .binary64 u (.zero .positive) = u := by
  cases u with
  | zero s =>
    cases s with
    | positive => exact ⟨rfl, rfl⟩
    | negative => exact absurd rfl hu
  | notANumber | infinity _ | finite _ _ _ _ => exact ⟨rfl, rfl⟩

end Binary64

/-! ## Sums -/

theorem add_def (x y : Float) :
    x + y = .ofModel (.pack (add .binary64 x.toModel.unpack y.toModel.unpack)) := rfl

theorem unpack_whole_zero : (whole 0 : Float).toModel.unpack = .zero .positive := rfl

theorem neg_whole_zero_add (x : Float) : -whole 0 + x = x := by
  have hzero : (-whole 0 : Float).toModel.unpack = .zero .negative := rfl
  rw [add_def, hzero, minusZero_add_unpacked, ofModel_unpack]

theorem whole_zero_add {x : Float} (hx : ¬ MinusZero x) : whole 0 + x = x := by
  rw [add_def, unpack_whole_zero, (zero_add_unpacked hx).1, ofModel_unpack]

theorem add_whole_zero {x : Float} (hx : ¬ MinusZero x) : x + whole 0 = x := by
  rw [add_def, unpack_whole_zero, (zero_add_unpacked hx).2, ofModel_unpack]

namespace MinusZero

variable {x y : Float}

theorem isFinite (h : MinusZero x) : x.isFinite := by
  show x.toModel.unpack.isFinite = true
  rw [h]
  rfl

theorem value_eq (h : MinusZero x) : value x = 0 := by rw [value, h, rational_zero]

theorem of_add (h : MinusZero (x + y)) : MinusZero x ∧ MinusZero y := by
  obtain ⟨hx, hy⟩ := isFinite_of_add h.isFinite
  have hu := canonical_of_isFinite hx
  have hv := canonical_of_isFinite hy
  obtain hsum | ⟨m, e, hm, hsum, hd⟩ := eq_of_pack_minusZero h
  · exact add_eq_minusZero hu hv hsum
  · have hcanon := (add_canonical hu hv).1
    rw [hsum] at hcanon
    exact absurd hcanon hd

end MinusZero

/-! ## Differences and quotients -/

theorem unpack_neg (x : Float) : (-x).toModel.unpack = x.toModel.unpack.neg := by
  show unpack .binary64 (pack .binary64 x.toModel.unpack.neg) = _
  by_cases hx : x.isFinite
  · obtain ⟨hcanon, hval⟩ := neg_canonical (canonical_of_isFinite hx)
    refine unpack_ofModel hcanon ?_
    rw [hval, abs_neg]
    exact abs_value_lt hx
  · obtain hu | ⟨s, hu⟩ := unpack_not_finite hx <;> rw [hu]
    · rfl
    · cases s <;> rfl

theorem value_neg {x : Float} (hx : x.isFinite) : value (-x) = -value x := by
  rw [value, unpack_neg]
  exact (neg_canonical (canonical_of_isFinite hx)).2

theorem isFinite_of_neg {x : Float} (h : (-x).isFinite) : x.isFinite := by
  have h' : (-x).toModel.unpack.isFinite = true := h
  rw [unpack_neg] at h'
  show x.toModel.unpack.isFinite = true
  cases hu : x.toModel.unpack <;> rw [hu] at h' <;> first | rfl | cases h'

theorem sub_unpacked (u v : UnpackedFloat) : sub .binary64 u v = add .binary64 u v.neg := by
  cases u with
  | finite s m e hm =>
    cases v with
    | finite s' n f hn =>
      have hsign : ∀ k : Nat, (-s').apply (k : Int) = -s'.apply (k : Int) := by
        intro k
        cases s' <;> simp [Sign.apply]
      simp only [sub, UnpackedFloat.neg, add, hsign, Int.sub_eq_add_neg]
    | notANumber | infinity _ | zero _ => rfl
  | notANumber | infinity _ | zero _ => cases v <;> rfl

theorem sub_eq_add_neg_float (x y : Float) : x - y = x + -y := by
  rw [add_def, unpack_neg, ← sub_unpacked]
  rfl

theorem MinusZero.of_sub {x y : Float} (h : MinusZero (x - y)) : MinusZero x :=
  (MinusZero.of_add (sub_eq_add_neg_float x y ▸ h)).1

theorem unpack_of_pos {x : Float} (hx : x.isFinite) (h : 0 < value x) :
    ∃ m e hm, x.toModel.unpack = .finite .positive m e hm := by
  obtain ⟨s, hu⟩ | ⟨s, m, e, hm, hu, -⟩ := (canonical_of_isFinite hx).cases
  · rw [value, hu, rational_zero] at h
    exact absurd h (lt_irrefl _)
  · cases s with
    | positive => exact ⟨m, e, hm, hu⟩
    | negative =>
      rw [value, hu] at h
      exact absurd h (not_lt.2 (rational_neg hm).le)

/-- Rounding keeps the sign. -/
theorem roundWithAccuracy_sign (s : Sign) (m : Nat) (e : Int) (accuracy : Accuracy) :
    let u := roundWithAccuracy .binary64 s m e accuracy
    u = .zero s ∨ ∃ m e hm, u = .finite s m e hm := by
  intro u
  by_cases h0 : (shiftToTargetExponent .binary64
      (shiftToTargetExponent .binary64 m e accuracy).1.roundedMantissa
      (shiftToTargetExponent .binary64 m e accuracy).2 .exact).1.mantissa = 0
  · exact .inl (dif_pos h0)
  · exact .inr ⟨_, _, _, dif_neg h0⟩

/-- A quotient of positive numbers may be zero, but not the negative one. -/
theorem not_minusZero_div {x y : Float} (hx : x.isFinite) (hx0 : 0 < value x) (hy : y.isFinite)
    (hy0 : 0 < value y) : ¬ MinusZero (x / y) := by
  intro h
  obtain ⟨m, e, hm, hu⟩ := unpack_of_pos hx hx0
  obtain ⟨n, f, hn, hv⟩ := unpack_of_pos hy hy0
  have hdiv : div .binary64 x.toModel.unpack y.toModel.unpack =
      roundWithAccuracy .binary64 .positive (divCore .binary64 m e n f).1
        (divCore .binary64 m e n f).2.1 (divCore .binary64 m e n f).2.2 := by
    rw [hu, hv]
    rfl
  have hsign := roundWithAccuracy_sign .positive (divCore .binary64 m e n f).1
    (divCore .binary64 m e n f).2.1 (divCore .binary64 m e n f).2.2
  rw [← hdiv] at hsign
  obtain hq | ⟨_, _, _, hq, -⟩ := eq_of_pack_minusZero h <;>
    obtain hs | ⟨_, _, _, hs⟩ := hsign <;> cases hq.symm.trans hs

/-- Whole numbers that are counted in 64 bits are positive floats. -/
theorem whole_pos {n : Nat} (h0 : 0 < n) (hn : n < 2 ^ 64) :
    (whole n : Float).isFinite ∧ 0 < value (whole n : Float) := by
  obtain ⟨hpacked, hnear⟩ := ofNat_nearest hn
  have hone : (1 : Rat) ≤ n := by exact_mod_cast h0
  refine ⟨hpacked.isFinite, (hnear.nonneg (by positivity)).lt_of_ne' (hnear.ne_zero ?_)⟩
  calc (2 : Rat) ^ (-1074 : Int) ≤ 1 := zpow_le_one_of_nonpos₀ one_le_two (by norm_num)
    _ ≤ |(n : Rat)| := by rwa [Nat.abs_cast]

theorem not_minusZero_whole {n : Nat} (h0 : 0 < n) (hn : n < 2 ^ 64) :
    ¬ MinusZero (whole n : Float) := fun h => (whole_pos h0 hn).2.ne' h.value_eq

end TurtleGraphics
