import Mathlib
import TurtleGraphics.Proofs.Scalar.Rounding

/-!
# Values of binary64 numbers

What is packed into bits comes back when they are unpacked (`unpack_pack`), so a finite float has an
exact value, and finite floats are compared by their values (`lt_iff`, `le_iff`). A sum is the exact
one rounded (`add_nearest`) if it is well below the largest floats, and so is a product
(`mul_canonical`).
-/

set_option autoImplicit false

namespace TurtleGraphics.Binary64

open Float.Model (Format UnpackedFloat)
open Float.Model.UnpackedFloat

/-! ## Packing -/

/-- A number with all its bits. -/
theorem unpack_normal (s : Sign) {e : BitVec 11} (m : BitVec 52) (h0 : e ≠ 0#11) (h1 : e ≠ -1#11) :
    unpack .binary64 (packComponents .binary64 s e m) =
      .finite s (2 ^ 52 + m.toNat) (e.toNat - 1075)
        (Nat.add_pos_left (Nat.two_pow_pos 52) m.toNat) := by
  have happend : (1#1 ++ m).toNat = 2 ^ 52 + m.toNat := by
    rw [BitVec.toNat_append, ← Nat.shiftLeft_add_eq_or_of_lt m.isLt]
    rfl
  unfold unpack
  simp only [unpackMantissa_packComponents, unpackExponent_packComponents,
    unpackSign_packComponents, Sign.ofBitVec_toBitVec, happend]
  rw [if_neg h1, if_neg h0]
  rfl

/-- A number with leading bits missing. -/
theorem unpack_subnormal (s : Sign) {m : BitVec 52} (hm : 0 < m.toNat) :
    unpack .binary64 (packComponents .binary64 s 0#11 m) = .finite s m.toNat (-1074) hm := by
  have h0 : m ≠ 0#52 := by
    rintro rfl
    exact absurd hm (by decide)
  unfold unpack
  simp only [unpackMantissa_packComponents, unpackExponent_packComponents,
    unpackSign_packComponents, Sign.ofBitVec_toBitVec]
  rw [if_neg (by decide), if_pos trivial, dif_neg h0]
  rfl

/-- What binary64 holds comes back from its bits. -/
theorem unpack_pack {s : Sign} {m : Nat} {e : Int} (hm : 0 < m) (hd : Digits m e) (he : e ≤ 971) :
    unpack .binary64 (pack .binary64 (.finite s m e hm)) = .finite s m e hm := by
  obtain ⟨hlt, hlow, hfull⟩ := hd
  obtain ⟨b, hb⟩ : ∃ b : Nat, e + 1075 = b := ⟨(e + 1075).toNat, by omega⟩
  have hexp : (e + (Format.binary64.exponentBias : Nat) + (52 : Nat)).toNat = b := by
    have : ((Format.binary64.exponentBias : Nat) : Int) = 1023 := by decide
    omega
  have hlog : m.log2 + 1 = Format.binary64.mantissaBits ↔ 2 ^ 52 ≤ m := by
    have : Format.binary64.mantissaBits = 53 := by decide
    rw [this, ← Nat.le_log2 hm.ne']
    have := log2_le_of_lt hlt
    omega
  unfold pack
  simp only [hexp]
  rw [if_neg (by show ¬ 2 ^ 11 ≤ b + 1; omega)]
  by_cases hn : 2 ^ 52 ≤ m
  · rw [if_pos (hlog.2 hn)]
    have hbe : (BitVec.ofNat 11 b).toNat = b := by
      rw [BitVec.toNat_ofNat, Nat.mod_eq_of_lt (by omega)]
    have hbm : (BitVec.ofNat 52 m).toNat = m - 2 ^ 52 := by
      rw [BitVec.toNat_ofNat, Nat.mod_eq_sub_mod hn, Nat.mod_eq_of_lt (by omega)]
    have h0 : BitVec.ofNat 11 b ≠ 0#11 := by
      intro h
      have := congrArg BitVec.toNat h
      rw [hbe] at this
      have : b = 0 := this
      omega
    have h1 : BitVec.ofNat 11 b ≠ -1#11 := by
      intro h
      have := congrArg BitVec.toNat h
      rw [hbe] at this
      have : b = 2047 := this
      omega
    have hm' : 2 ^ 52 + (BitVec.ofNat 52 m).toNat = m := by omega
    have he' : ((BitVec.ofNat 11 b).toNat : Int) - 1075 = e := by omega
    rw [unpack_normal s (BitVec.ofNat 52 m) h0 h1]
    simp only [hm', he']
  · rw [if_neg (mt hlog.1 hn)]
    have hbm : (BitVec.ofNat 52 m).toNat = m := by
      rw [BitVec.toNat_ofNat, Nat.mod_eq_of_lt (by omega)]
    rw [unpack_subnormal s (by rwa [hbm])]
    simp only [hbm]
    congr 1
    omega

/-- Bits of a finite number are those of one that binary64 holds. -/
theorem digits_of_unpack {b : BitVec 64} {s : Sign} {m : Nat} {e : Int} {hm : 0 < m}
    (h : unpack .binary64 b = .finite s m e hm) : Digits m e ∧ e ≤ 971 := by
  have hbias : ((Format.binary64.exponentBias : Nat) : Int) = 1023 := by decide
  have hmant : (@unpackMantissa .binary64 b).toNat < 2 ^ 52 :=
    (@unpackMantissa .binary64 b).isLt
  have hexp : (@unpackExponent .binary64 b).toNat < 2 ^ 11 :=
    (@unpackExponent .binary64 b).isLt
  unfold unpack at h
  dsimp only at h
  split at h
  · split at h <;> cases h
  · rename_i h1
    split at h
    · rename_i h0
      split at h
      · cases h
      · cases h
        rw [h0]
        exact ⟨⟨by omega, by simp [hbias], .inr (by simp [hbias])⟩, by simp [hbias]⟩
    · rename_i h0
      cases h
      have happend : (1#1 ++ @unpackMantissa .binary64 b).toNat =
          2 ^ 52 + (@unpackMantissa .binary64 b).toNat := by
        rw [BitVec.toNat_append, ← Nat.shiftLeft_add_eq_or_of_lt hmant]
        rfl
      have hne0 : (@unpackExponent .binary64 b).toNat ≠ 0 :=
        fun h => h0 (BitVec.eq_of_toNat_eq h)
      have hne1 : (@unpackExponent .binary64 b).toNat ≠ 2047 :=
        fun h => h1 (BitVec.eq_of_toNat_eq h)
      rw [happend, hbias]
      refine ⟨⟨?_, ?_, .inl ?_⟩, ?_⟩ <;> omega

/-! ## Order -/

/-- The number with the larger exponent is larger: it has all its bits. -/
theorem Digits.lt_of_exponent_lt {m n : Nat} {e f : Int} (hm : Digits m e) (hn : Digits n f)
    (h : e < f) : (m : Rat) * 2 ^ e < n * 2 ^ f := by
  have hfull : 2 ^ 52 ≤ n := hn.full.resolve_right (by have := hm.low; omega)
  have hm' : (m : Rat) < 2 ^ 53 := by exact_mod_cast hm.lt
  have hn' : (2 : Rat) ^ 52 ≤ n := by exact_mod_cast hfull
  calc (m : Rat) * 2 ^ e < 2 ^ 53 * 2 ^ e := mul_lt_mul_of_pos_right hm' (by positivity)
    _ = 2 ^ 52 * 2 ^ (e + 1) := by rw [zpow_add₀ two_ne_zero]; ring
    _ ≤ 2 ^ 52 * 2 ^ f :=
      mul_le_mul_of_nonneg_left (zpow_le_zpow_right₀ one_le_two (by omega)) (by positivity)
    _ ≤ n * 2 ^ f := mul_le_mul_of_nonneg_right hn' (by positivity)

/-- Numbers are compared by their exponents, then by their mantissas. -/
theorem Digits.compare_eq {m n : Nat} {e f : Int} (hm : Digits m e) (hn : Digits n f) :
    (compare e f).then (compare m n) = compare ((m : Rat) * 2 ^ e) (n * 2 ^ f) := by
  rcases lt_trichotomy e f with h | rfl | h
  · rw [compare_lt_iff_lt.2 h, compare_lt_iff_lt.2 (hm.lt_of_exponent_lt hn h)]
    rfl
  · have hp : (0 : Rat) < 2 ^ e := by positivity
    rw [compare_eq_iff_eq.2 rfl, Ordering.then]
    rcases lt_trichotomy m n with h | rfl | h
    · have h' : (m : Rat) < n := by exact_mod_cast h
      rw [compare_lt_iff_lt.2 h, compare_lt_iff_lt.2 (mul_lt_mul_of_pos_right h' hp)]
    · rw [compare_eq_iff_eq.2 rfl, compare_eq_iff_eq.2 rfl]
    · have h' : (n : Rat) < m := by exact_mod_cast h
      rw [compare_gt_iff_gt.2 h, compare_gt_iff_gt.2 (mul_lt_mul_of_pos_right h' hp)]
  · rw [compare_gt_iff_gt.2 h, compare_gt_iff_gt.2 (hn.lt_of_exponent_lt hm h)]
    rfl

theorem rational_pos {m : Nat} {e : Int} (hm : 0 < m) :
    0 < rational (.finite .positive m e hm) := by
  simp only [rational_finite, Sign.apply]
  positivity

theorem rational_negative {m : Nat} {e : Int} (hm : 0 < m) :
    rational (.finite .negative m e hm) = -((m : Rat) * 2 ^ e) := by
  simp [Sign.apply]

theorem rational_neg {m : Nat} {e : Int} (hm : 0 < m) :
    rational (.finite .negative m e hm) < 0 := by
  have : (0 : Rat) < m * 2 ^ e := by positivity
  rw [rational_negative]
  linarith

theorem compare_neg (a b : Rat) : compare (-a) (-b) = (compare a b).swap := by
  rcases lt_trichotomy a b with h | rfl | h
  · rw [compare_lt_iff_lt.2 h, compare_gt_iff_gt.2 (neg_lt_neg h)]
    rfl
  · rw [compare_eq_iff_eq.2 rfl, compare_eq_iff_eq.2 rfl]
    rfl
  · rw [compare_gt_iff_gt.2 h, compare_lt_iff_lt.2 (neg_lt_neg h)]
    rfl

/-- Canonical numbers are compared by their values. -/
theorem compare_eq {u v : UnpackedFloat} (hu : Canonical u) (hv : Canonical v) :
    u.compare v = some (compare (rational u) (rational v)) := by
  obtain ⟨s, rfl⟩ | ⟨s, m, e, hm, rfl, hd⟩ := hu.cases <;>
    obtain ⟨s', rfl⟩ | ⟨s', n, f, hn, rfl, hd'⟩ := hv.cases
  · have h : rational (.zero s) = rational (.zero s') := rfl
    rw [compare_eq_iff_eq.2 h]
    rfl
  · cases s' with
    | positive =>
      have h : rational (.zero s) < rational (.finite .positive n f hn) := rational_pos hn
      rw [compare_lt_iff_lt.2 h]
      rfl
    | negative =>
      have h : rational (.finite .negative n f hn) < rational (.zero s) := rational_neg hn
      rw [compare_gt_iff_gt.2 h]
      rfl
  · cases s with
    | positive =>
      have h : rational (.zero s') < rational (.finite .positive m e hm) := rational_pos hm
      rw [compare_gt_iff_gt.2 h]
      rfl
    | negative =>
      have h : rational (.finite .negative m e hm) < rational (.zero s') := rational_neg hm
      rw [compare_lt_iff_lt.2 h]
      rfl
  · cases s <;> cases s'
    · rw [rational_negative, rational_negative]
      show some ((compare e f).then (compare m n)).swap = _
      rw [hd.compare_eq hd', compare_neg]
    · rw [compare_lt_iff_lt.2 ((rational_neg hm).trans (rational_pos hn))]
      rfl
    · rw [compare_gt_iff_gt.2 ((rational_neg hn).trans (rational_pos hm))]
      rfl
    · show some ((compare e f).then (compare m n)) = _
      rw [hd.compare_eq hd']
      simp [Sign.apply]

/-- The value determines a number, but for the sign of zero. -/
theorem eq_of_rational_eq {u v : UnpackedFloat} (hu : Canonical u) (hv : Canonical v)
    (h : rational u = rational v) (h0 : rational u ≠ 0) : u = v := by
  obtain ⟨s, rfl⟩ | ⟨s, m, e, hm, rfl, hd⟩ := hu.cases
  · exact absurd rfl h0
  obtain ⟨s', rfl⟩ | ⟨s', n, f, hn, rfl, hd'⟩ := hv.cases
  · exact absurd h h0
  obtain rfl : s = s' := by
    have h1 := rational_pos (e := e) hm
    have h2 := rational_neg (e := e) hm
    have h3 := rational_pos (e := f) hn
    have h4 := rational_neg (e := f) hn
    cases s <;> cases s' <;> first | rfl | (exfalso; linarith)
  have hmag : (m : Rat) * 2 ^ e = n * 2 ^ f := by
    cases s <;> simpa [Sign.apply] using h
  have hcmp := hd.compare_eq hd'
  rw [compare_eq_iff_eq.2 hmag, Ordering.then_eq_eq, compare_eq_iff_eq, compare_eq_iff_eq] at hcmp
  obtain ⟨rfl, rfl⟩ := hcmp
  rfl

/-! ## Values of floats -/

/-- The exact value of a float; 0 if it is infinite or no number. -/
def value (x : Float) : Rat := rational x.toModel.unpack

theorem canonical_of_isFinite {x : Float} (hx : x.isFinite) : Canonical x.toModel.unpack := by
  have hx' : x.toModel.unpack.isFinite = true := hx
  cases hu : x.toModel.unpack with
  | notANumber => rw [hu] at hx'; cases hx'
  | infinity s => rw [hu] at hx'; cases hx'
  | zero s => trivial
  | finite s m e hm => exact (digits_of_unpack hu).1

theorem isFinite_of_canonical {x : Float} (hx : Canonical x.toModel.unpack) : x.isFinite := by
  show x.toModel.unpack.isFinite = true
  obtain ⟨s, hu⟩ | ⟨s, m, e, hm, hu, -⟩ := hx.cases <;> rw [hu] <;> rfl

theorem lt_def (x y : Float) :
    x < y ↔ (x.toModel.unpack.compare y.toModel.unpack == some .lt) = true := by
  show decide (x.toModel < y.toModel) = true ↔ _
  rw [decide_eq_true_iff]
  exact Iff.rfl

theorem le_def (x y : Float) :
    x ≤ y ↔ ((x.toModel.unpack.compare y.toModel.unpack).any (·.isLE)) = true := by
  show decide (x.toModel ≤ y.toModel) = true ↔ _
  rw [decide_eq_true_iff]
  exact Iff.rfl

theorem lt_iff {x y : Float} (hx : x.isFinite) (hy : y.isFinite) : x < y ↔ value x < value y := by
  rw [lt_def, compare_eq (canonical_of_isFinite hx) (canonical_of_isFinite hy), beq_iff_eq,
    Option.some_inj, compare_lt_iff_lt]
  rfl

theorem le_iff {x y : Float} (hx : x.isFinite) (hy : y.isFinite) : x ≤ y ↔ value x ≤ value y := by
  rw [le_def, compare_eq (canonical_of_isFinite hx) (canonical_of_isFinite hy), Option.any_some,
    ← compare_le_iff_le, Ordering.isLE_iff_ne_gt]
  rfl

/-- What is no number is not below any float. -/
theorem not_lt_of_nan {x : Float} (hx : x.toModel.unpack = .notANumber) (y : Float) : ¬ x < y := by
  rw [lt_def, hx]
  exact Bool.false_ne_true

/-- No float is below what is no number, or equal to it. -/
theorem not_le_nan {y : Float} (hy : y.toModel.unpack = .notANumber) (x : Float) : ¬ x ≤ y := by
  rw [le_def, hy]
  cases x.toModel.unpack <;> exact Bool.false_ne_true

/-! ## Results of operations -/

/-- The float of a canonical number that is not too large. -/
theorem unpack_ofModel {u : UnpackedFloat} (hu : Canonical u)
    (h : |rational u| < 2 ^ (1024 : Int)) : (Float.ofModel (.pack u)).toModel.unpack = u := by
  obtain ⟨s, rfl⟩ | ⟨s, m, e, hm, rfl, hd⟩ := hu.cases
  · cases s <;> rfl
  refine unpack_pack hm hd ?_
  rcases hd.full with hfull | rfl
  · have hm' : (2 : Rat) ^ 52 ≤ m := by exact_mod_cast hfull
    have hpe : (0 : Rat) < 2 ^ e := by positivity
    rw [rational_finite, abs_mul, abs_apply, abs_of_pos hpe] at h
    have hlt : (2 : Rat) ^ (52 + e) < 2 ^ (1024 : Int) := by
      calc (2 : Rat) ^ (52 + e) = 2 ^ 52 * 2 ^ e := by rw [zpow_add₀ two_ne_zero]; norm_num
        _ ≤ m * 2 ^ e := mul_le_mul_of_nonneg_right hm' hpe.le
        _ < 2 ^ (1024 : Int) := h
    have := (zpow_lt_zpow_iff_right₀ one_lt_two).1 hlt
    omega
  · omega

theorem value_ofModel {u : UnpackedFloat} (hu : Canonical u) (h : |rational u| < 2 ^ (1024 : Int)) :
    value (.ofModel (.pack u)) = rational u := by
  rw [value, unpack_ofModel hu h]

theorem abs_value_lt {x : Float} (hx : x.isFinite) : |value x| < 2 ^ (1024 : Int) := by
  unfold value
  obtain ⟨s, hu⟩ | ⟨s, m, e, hm, hu, -⟩ := (canonical_of_isFinite hx).cases
  · rw [hu]
    show |(0 : Rat)| < 2 ^ (1024 : Int)
    rw [abs_zero]
    positivity
  · obtain ⟨hd, he⟩ := digits_of_unpack hu
    have hm' : (m : Rat) < 2 ^ 53 := by exact_mod_cast hd.lt
    have hpe : (0 : Rat) < 2 ^ e := by positivity
    rw [hu, rational, abs_mul, abs_apply, abs_of_pos hpe]
    calc (m : Rat) * 2 ^ e < 2 ^ 53 * 2 ^ e := mul_lt_mul_of_pos_right hm' hpe
      _ = 2 ^ (53 + e) := by rw [zpow_add₀ two_ne_zero]; norm_num
      _ ≤ 2 ^ (1024 : Int) := zpow_le_zpow_right₀ one_le_two (by omega)

/-- The float is the one that packing a canonical number gives. -/
def Packed (x : Float) : Prop :=
  ∃ u, Canonical u ∧ |rational u| < 2 ^ (1024 : Int) ∧ x = .ofModel (.pack u)

namespace Packed

variable {x y : Float}

theorem isFinite (hx : Packed x) : x.isFinite := by
  obtain ⟨u, hu, hlt, rfl⟩ := hx
  exact isFinite_of_canonical (by rwa [unpack_ofModel hu hlt])

/-- It is determined by its value, but for the sign of zero. -/
theorem eq_of_value_eq (hx : Packed x) (hy : Packed y) (h : value x = value y)
    (h0 : value x ≠ 0) : x = y := by
  obtain ⟨u, hu, hul, rfl⟩ := hx
  obtain ⟨v, hv, hvl, rfl⟩ := hy
  rw [value_ofModel hu hul] at h h0
  rw [value_ofModel hv hvl] at h
  rw [eq_of_rational_eq hu hv h h0]

end Packed

/-- A result well below the largest floats is packed as it is. -/
theorem ofModel_nearest {u : UnpackedFloat} {q : Rat} (hu : Canonical u)
    (hn : Nearest q (rational u)) (hq : |q| < 2 ^ 100) :
    Packed (Float.ofModel (.pack u)) ∧ Nearest q (value (Float.ofModel (.pack u))) := by
  have hv : |rational u| < 2 ^ (1024 : Int) := by
    calc |rational u| ≤ 2 * |q| + 1 := hn.abs_le
      _ < 2 * 2 ^ 100 + 1 := by linarith
      _ ≤ 2 ^ (102 : Int) := by norm_num
      _ ≤ 2 ^ (1024 : Int) := zpow_le_zpow_right₀ one_le_two (by norm_num)
  exact ⟨⟨u, hu, hv, rfl⟩, by rwa [value_ofModel hu hv]⟩

/-- What is canonical is not rounded. -/
theorem Nearest.refl {u : UnpackedFloat} (hu : Canonical u) :
    Nearest (rational u) (rational u) := by
  obtain ⟨s, rfl⟩ | ⟨s, m, e, hm, rfl, hd⟩ := hu.cases
  · exact ⟨-1074, 0, le_rfl, .inl rfl, by simp, by simp, fun _ => Even.zero⟩
  · have hpe : (0 : Rat) < 2 ^ e := by positivity
    refine ⟨e, s.apply m, hd.low, hd.full.symm.imp_right fun h => ?_, rfl, by simp [hpe.le],
      fun htie => absurd htie (by simp [hpe.ne])⟩
    have hm' : (2 : Rat) ^ 52 ≤ m := by exact_mod_cast h
    rw [rational_finite, abs_mul, abs_apply, abs_of_pos hpe, add_comm, zpow_add₀ two_ne_zero]
    exact mul_le_mul_of_nonneg_right (by exact_mod_cast hm') hpe.le

/-- Numbers are added at the smaller of their exponents. -/
theorem add_finite (s s' : Sign) {m n : Nat} (hm : 0 < m) (hn : 0 < n) (e f : Int) :
    let u : UnpackedFloat := .finite s m e hm
    let v : UnpackedFloat := .finite s' n f hn
    Canonical (add .binary64 u v) ∧
      Nearest (rational u + rational v) (rational (add .binary64 u v)) := by
  intro u v
  obtain ⟨k, hk⟩ : ∃ k : Nat, (e - min e f).toNat = k := ⟨_, rfl⟩
  obtain ⟨l, hl⟩ : ∃ l : Nat, (f - min e f).toNat = l := ⟨_, rfl⟩
  have hadd : add .binary64 u v =
      UnpackedFloat.normalize .binary64 (s.apply (m <<< k : Nat) + s'.apply (n <<< l : Nat))
        (min e f) .positive := by
    rw [← hk, ← hl]
    rfl
  have hsum : rational u + rational v =
      ((s.apply (m <<< k : Nat) + s'.apply (n <<< l : Nat) : Int) : Rat) * 2 ^ min e f := by
    have hm' := apply_shiftLeft s m k e
    have hn' := apply_shiftLeft s' n l f
    rw [show e - (k : Int) = min e f by omega] at hm'
    rw [show f - (l : Int) = min e f by omega] at hn'
    rw [Int.cast_add, add_mul, hm', hn']
    rfl
  rw [hadd, hsum]
  exact normalize_nearest _ _ _

theorem add_canonical {u v : UnpackedFloat} (hu : Canonical u) (hv : Canonical v) :
    Canonical (add .binary64 u v) ∧
      Nearest (rational u + rational v) (rational (add .binary64 u v)) := by
  obtain ⟨s, rfl⟩ | ⟨s, m, e, hm, rfl, hd⟩ := hu.cases <;>
    obtain ⟨s', rfl⟩ | ⟨s', n, f, hn, rfl, hd'⟩ := hv.cases
  · rw [rational_zero, rational_zero, zero_add]
    cases s <;> cases s' <;> exact ⟨trivial, .refl (u := .zero .positive) trivial⟩
  · rw [rational_zero, zero_add]
    exact ⟨hv, .refl hv⟩
  · rw [rational_zero, add_zero]
    exact ⟨hu, .refl hu⟩
  · exact add_finite s s' hm hn e f

theorem add_nearest {x y : Float} (hx : x.isFinite) (hy : y.isFinite)
    (h : |value x + value y| < 2 ^ 100) :
    Packed (x + y) ∧ Nearest (value x + value y) (value (x + y)) := by
  obtain ⟨hcanon, hn⟩ := add_canonical (canonical_of_isFinite hx) (canonical_of_isFinite hy)
  exact ofModel_nearest hcanon hn h

/-! ## Whole numbers -/

theorem abs_natCast_lt {n : Nat} (hn : n < 2 ^ 64) : |(n : Rat)| < 2 ^ 100 := by
  have hn' : (n : Rat) < 2 ^ 64 := by exact_mod_cast hn
  rw [Nat.abs_cast]
  exact hn'.trans (by norm_num)

theorem toFloat_nearest {n : Nat} (hn : n < 2 ^ 64) :
    Packed n.toUInt64.toFloat ∧ Nearest n (value n.toUInt64.toFloat) := by
  have hdef : n.toUInt64.toFloat =
      .ofModel (.pack (UnpackedFloat.normalize .binary64 n.toUInt64.toNat 0 .positive)) := rfl
  have hback : n.toUInt64.toNat = n := Nat.mod_eq_of_lt hn
  obtain ⟨hcanon, hnear⟩ := normalize_nearest n 0 .positive
  rw [hdef, hback]
  exact ofModel_nearest hcanon (by simpa using hnear) (abs_natCast_lt hn)

/-- What has at most 53 bits is converted without rounding. -/
theorem toFloat_exact {n : Nat} (hn : n < 2 ^ 53) :
    n.toUInt64.toFloat.isFinite ∧ value n.toUInt64.toFloat = n := by
  obtain ⟨hpacked, hnear⟩ := toFloat_nearest (hn.trans (by norm_num))
  exact ⟨hpacked.isFinite,
    hnear.exact (k := n) (e := 0) (by simp) (by simpa using hn) (by norm_num)⟩

theorem mul_finite (s : Sign) {m n : Nat} (hm : 0 < m) (hn : 0 < n) (e f : Int) :
    mul .binary64 (.finite s m e hm) (.finite .positive n f hn) =
      roundWithAccuracy .binary64 s (m * n) (e + f) .exact := by
  have hs : s * Sign.positive = s := by cases s <;> rfl
  rw [mul, hs]

/-- The exact product, rounded, if one of the numbers has all its bits. -/
theorem mul_canonical {u : UnpackedFloat} (hu : Canonical u) {n : Nat} (f : Int) (hn : 0 < n)
    (hfull : 2 ^ 52 ≤ n) :
    let v : UnpackedFloat := .finite .positive n f hn
    Canonical (mul .binary64 u v) ∧
      Nearest (rational u * rational v) (rational (mul .binary64 u v)) := by
  intro v
  obtain ⟨s, rfl⟩ | ⟨s, m, e, hm, rfl, -⟩ := hu.cases
  · rw [rational_zero, zero_mul]
    exact ⟨trivial, .refl (u := .zero s) trivial⟩
  · have hval : rational (.finite s m e hm) * rational v = s.apply (m * n : Nat) * 2 ^ (e + f) := by
      rw [zpow_add₀ two_ne_zero]
      cases s <;> simp [v, Sign.apply] <;> ring
    rw [mul_finite s hm hn, hval]
    refine roundExact_nearest s ?_
    have hlog : 52 ≤ (m * n).log2 := by
      rw [Nat.le_log2 (by positivity)]
      exact hfull.trans (Nat.le_mul_of_pos_left n hm)
    have := target_eq (m * n) (e + f)
    omega

theorem neg_canonical {u : UnpackedFloat} (hu : Canonical u) :
    Canonical u.neg ∧ rational u.neg = -rational u := by
  obtain ⟨s, rfl⟩ | ⟨s, m, e, hm, rfl, hd⟩ := hu.cases
  · exact ⟨trivial, neg_zero.symm⟩
  · exact ⟨hd, by cases s <;> simp [UnpackedFloat.neg, Sign.apply]⟩

theorem neg_nearest {x : Float} {q : Rat} (hx : x.isFinite) (h : Nearest q (value x))
    (hq : |q| < 2 ^ 100) : Packed (-x) ∧ Nearest (-q) (value (-x)) := by
  obtain ⟨hcanon, hneg⟩ := neg_canonical (canonical_of_isFinite hx)
  exact ofModel_nearest hcanon (hneg ▸ h.neg) (by rwa [abs_neg])

end TurtleGraphics.Binary64
