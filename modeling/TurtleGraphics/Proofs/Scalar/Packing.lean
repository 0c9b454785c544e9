import TurtleGraphics.Proofs.Scalar.Wrapping

/-!
# Packing what was unpacked

The bits of a float are those that its unpacked form is packed into (`pack_unpack`), so every finite
float is one that packing a canonical number gives (`Packed.of_isFinite`). An angle is therefore
wrapped as soon as it lies in `[0, 360)` (`wrapped_iff`). Half a unit beyond the largest number
rounding leads to `2 ^ 1024` or beyond (`Nearest.le_of_large`), which is packed as infinity; a sum
is finite below that (`add_isFinite`).
-/

set_option autoImplicit false

namespace TurtleGraphics

open Scalar

namespace Binary64

open Float.Model (Format UnpackedFloat)
open Float.Model.UnpackedFloat

/-! ## Bits -/

theorem toBitVec_ofBitVec (b : BitVec 1) : (Sign.ofBitVec b).toBitVec = b := by
  obtain rfl | rfl := BitVec.eq_zero_or_eq_one b <;> rfl

/-- Sign, exponent and mantissa are all the bits there are. -/
theorem packComponents_unpack (b : BitVec 64) :
    packComponents .binary64 (.ofBitVec (@unpackSign .binary64 b)) (@unpackExponent .binary64 b)
      (@unpackMantissa .binary64 b) = b := by
  unfold packComponents
  rw [toBitVec_ofBitVec]
  apply BitVec.eq_of_getLsbD_eq
  intro i hi
  have hi' : i < 64 := hi
  simp only [unpackSign, unpackExponent, unpackMantissa, BitVec.getLsbD_append,
    BitVec.getLsbD_cast, BitVec.getLsbD_extractLsb]
  split
  · rw [decide_eq_true (by omega), Bool.true_and, Nat.zero_add]
  split
  · rw [decide_eq_true (by omega), Bool.true_and, show 52 + (i - 52) = i by omega]
  · rw [decide_eq_true (by omega), Bool.true_and, show 52 + 11 + (i - 52 - 11) = i by omega]

theorem pack_subnormal (s : Sign) {m : BitVec 52} (hm : 0 < m.toNat) :
    pack .binary64 (.finite s m.toNat (-1074) hm) = packComponents .binary64 s 0#11 m := by
  have hlog : m.toNat.log2 + 1 ≠ Format.binary64.mantissaBits := by
    have := log2_le_of_lt (n := 51) m.isLt
    show m.toNat.log2 + 1 ≠ 53
    omega
  unfold pack
  simp only
  rw [if_neg (by decide), if_neg hlog]
  simp

theorem pack_normal (s : Sign) {e : BitVec 11} (m : BitVec 52) (h0 : e ≠ 0#11) (h1 : e ≠ -1#11) :
    pack .binary64 (.finite s (2 ^ 52 + m.toNat) (e.toNat - 1075)
      (Nat.add_pos_left (Nat.two_pow_pos 52) m.toNat)) = packComponents .binary64 s e m := by
  have he0 : e.toNat ≠ 0 := fun h => h0 (BitVec.eq_of_toNat_eq h)
  have he1 : e.toNat ≠ 2047 := fun h => h1 (BitVec.eq_of_toNat_eq h)
  have he : e.toNat < 2 ^ 11 := e.isLt
  have hm : m.toNat < 2 ^ 52 := m.isLt
  have hexp : ((e.toNat : Int) - 1075 + (Format.binary64.exponentBias : Nat) +
      (52 : Nat)).toNat = e.toNat := by
    have : ((Format.binary64.exponentBias : Nat) : Int) = 1023 := by decide
    omega
  have hlog : (2 ^ 52 + m.toNat).log2 + 1 = Format.binary64.mantissaBits := by
    show _ = 53
    have := log2_le_of_lt (n := 52) (m := 2 ^ 52 + m.toNat) (by omega)
    have := (Nat.le_log2 (n := 2 ^ 52 + m.toNat) (k := 52) (by omega)).2 (by omega)
    omega
  unfold pack
  simp only [hexp]
  rw [if_neg (by show ¬ 2 ^ 11 ≤ _; omega), if_pos hlog]
  congr 1
  · simp
  · apply BitVec.eq_of_toNat_eq
    show (2 ^ 52 + m.toNat) % 2 ^ 52 = _
    omega

/-- Unpacking loses nothing; of the bits that are no number only one pattern is valid. -/
theorem pack_unpack {b : BitVec 64} (h : Format.binary64.Valid b) :
    pack .binary64 (unpack .binary64 b) = b := by
  obtain ⟨s, e, m, rfl⟩ : ∃ s e m, b = packComponents .binary64 s e m :=
    ⟨_, _, _, (packComponents_unpack b).symm⟩
  by_cases h1 : e = -1#11
  · subst h1
    by_cases hm : m = 0#52
    · subst hm
      cases s <;> rfl
    · rw [h.eq_packedNaN unpackExponent_packComponents (by rwa [unpackMantissa_packComponents])]
      rfl
  by_cases h0 : e = 0#11
  · subst h0
    rcases Nat.eq_zero_or_pos m.toNat with hm | hm
    · obtain rfl : m = 0#52 := BitVec.eq_of_toNat_eq hm
      cases s <;> rfl
    · rw [unpack_subnormal s hm, pack_subnormal s hm]
  · rw [unpack_normal s m h0 h1, pack_normal s m h0 h1]

/-- A float is the one that its unpacked form is packed into. -/
theorem ofModel_unpack (x : Float) : Float.ofModel (.pack x.toModel.unpack) = x := by
  obtain ⟨⟨⟨b⟩, valid⟩⟩ := x
  have hb : pack .binary64 (unpack .binary64 b) = b := pack_unpack valid
  show Float.ofModel ⟨⟨pack .binary64 (unpack .binary64 b)⟩, _⟩ = _
  simp only [hb]

theorem Packed.of_isFinite {x : Float} (hx : x.isFinite) : Packed x :=
  ⟨_, canonical_of_isFinite hx, abs_value_lt hx, (ofModel_unpack x).symm⟩

/-! ## Numbers that are too large -/

theorem pack_of_large (s : Sign) {m : Nat} {e : Int} (hm : 0 < m) (he : 971 < e) :
    pack .binary64 (.finite s m e hm) = packedInfinity .binary64 s := by
  have hbias : ((Format.binary64.exponentBias : Nat) : Int) = 1023 := by decide
  have hbits : ((Format.binary64.mantissaBitsWithoutImplicit : Nat) : Int) = 52 := by decide
  unfold pack
  simp only [hbias, hbits]
  rw [if_pos]
  show 2 ^ 11 ≤ _
  omega

/-- The largest number that binary64 holds. -/
def largest : Rat := (2 ^ 53 - 1) * 2 ^ (971 : Int)

theorem abs_value_le {x : Float} (hx : x.isFinite) : |value x| ≤ largest := by
  unfold value
  obtain ⟨s, hu⟩ | ⟨s, m, e, hm, hu, -⟩ := (canonical_of_isFinite hx).cases
  · rw [hu, rational_zero, abs_zero, largest]
    positivity
  · obtain ⟨hd, he⟩ := digits_of_unpack hu
    have hm' : (m : Rat) ≤ 2 ^ 53 - 1 := by
      have : ((m + 1 : Nat) : Rat) ≤ (2 ^ 53 : Nat) := Nat.cast_le.2 hd.lt
      push_cast at this
      linarith
    rw [hu, rational_finite, abs_mul, abs_apply, abs_of_pos (by positivity), largest]
    exact mul_le_mul hm' (zpow_le_zpow_right₀ one_le_two he) (by positivity) (by norm_num)

theorem unit_eq : (2 : Rat) ^ (971 : Int) = 2 * 2 ^ (970 : Int) := by
  rw [← zpow_one_add₀ two_ne_zero]
  norm_num

theorem largest_eq : largest = (2 ^ 53 - 1) * (2 * 2 ^ (970 : Int)) := by
  rw [largest, unit_eq]

theorem largest_add_unit :
    (2 : Rat) ^ (1024 : Int) = largest + 2 ^ (970 : Int) + 2 ^ (970 : Int) := by
  have h : (2 : Rat) ^ (1024 : Int) = 2 ^ (54 : Int) * 2 ^ (970 : Int) := by
    rw [← zpow_add₀ two_ne_zero]; norm_num
  rw [largest_eq, h]
  ring

/-- Half a unit beyond the largest number rounding goes too far, and not before that. -/
theorem Nearest.abs_lt {q v : Rat} (h : Nearest q v) (hq : |q| < largest + 2 ^ (970 : Int)) :
    |v| < 2 ^ (1024 : Int) := by
  have hunit := largest_add_unit
  have hpos : (0 : Rat) < 2 ^ (970 : Int) := by positivity
  obtain ⟨t, -, -, hbig, -, hn, -⟩ := h
  have ht : t ≤ 971 := by
    rcases hbig with rfl | hbig
    · norm_num
    have hlt : (2 : Rat) ^ (t + 52) < 2 ^ (1024 : Int) := by
      calc (2 : Rat) ^ (t + 52) ≤ |q| := hbig
        _ < largest + 2 ^ (970 : Int) := hq
        _ ≤ 2 ^ (1024 : Int) := by rw [hunit]; exact le_add_of_nonneg_right hpos.le
    have := (zpow_lt_zpow_iff_right₀ one_lt_two).1 hlt
    omega
  have hhalf : (2 : Rat) ^ t ≤ 2 * 2 ^ (970 : Int) := by
    rw [← zpow_one_add₀ two_ne_zero]
    exact zpow_le_zpow_right₀ one_le_two (by omega)
  have := abs_sub_abs_le_abs_sub v q
  linarith

/-- What is at most half a unit below `q` is no smaller than any multiple of the unit up to `q`. -/
theorem le_of_near {r b : Int} {p q : Rat} (hp : 0 < p) (hb : b * p ≤ q)
    (h : 2 * (q - r * p) ≤ p) : b ≤ r := by
  by_contra hr
  have : (r : Rat) * p ≤ (b - 1 : Int) * p :=
    mul_le_mul_of_nonneg_right (by exact_mod_cast (by omega : r ≤ b - 1)) hp.le
  push_cast at this
  linarith

/-- Nothing that binary64 holds is nearest to such a number: the largest number is odd, so that a
tie does not go to it, and with a larger unit everything lies beyond it. -/
theorem Nearest.lt_of_large {q v : Rat} (h : Nearest q v) (hq : largest + 2 ^ (970 : Int) ≤ q) :
    largest < v := by
  obtain ⟨t, r, -, hbig, rfl, hn, heven⟩ := h
  have hlargest := largest_eq
  have hp : (0 : Rat) < 2 ^ t := by positivity
  have hunit : 2 * (2 : Rat) ^ (970 : Int) ≤ 2 ^ t ↔ 971 ≤ t := by
    rw [← unit_eq]
    exact zpow_le_zpow_iff_right₀ one_lt_two
  have hunit' : 971 < t → 2 * (2 * (2 : Rat) ^ (970 : Int)) ≤ 2 ^ t := by
    rw [← unit_eq, ← zpow_one_add₀ two_ne_zero]
    exact fun ht => zpow_le_zpow_right₀ one_le_two (by omega)
  have hsame : t = 971 → (2 : Rat) ^ t = 2 * 2 ^ (970 : Int) := fun ht => ht ▸ unit_eq
  have hw : (0 : Rat) < 2 ^ (970 : Int) := by positivity
  rw [zpow_add₀ two_ne_zero] at hbig
  generalize (2 : Rat) ^ (970 : Int) = w at *
  generalize (2 : Rat) ^ t = p at *
  by_contra hle
  rw [not_lt] at hle
  rw [abs_sub_comm, abs_of_nonneg (by linarith)] at hn heven
  obtain ht | ht := (hunit.1 (by linarith)).eq_or_lt
  · have hp' := hsame ht.symm
    have hr : (r : Rat) * p = (2 ^ 53 - 1) * p := by linarith
    have hodd : r = 2 ^ 53 - 1 := by exact_mod_cast mul_right_cancel₀ hp.ne' hr
    have htie := heven (by linarith)
    rw [hodd] at htie
    exact absurd htie (by decide)
  · have hp' := hunit' ht
    have hbig := hbig.resolve_left (by omega)
    rw [abs_of_nonneg (by linarith)] at hbig
    have hr : 2 ^ 52 ≤ r := by
      refine le_of_near hp ?_ hn
      rw [mul_comm]
      exact_mod_cast hbig
    have hv : (2 ^ 52 : Rat) * p ≤ r * p :=
      mul_le_mul_of_nonneg_right (by exact_mod_cast hr) hp.le
    linarith

theorem Nearest.le_of_large {u : UnpackedFloat} (hu : Canonical u) {q : Rat}
    (h : Nearest q (rational u)) (hq : largest + 2 ^ (970 : Int) ≤ q) :
    2 ^ (1024 : Int) ≤ rational u := by
  have hlt := h.lt_of_large hq
  have hpos : 0 < largest := by
    rw [largest]
    positivity
  by_contra hsmall
  have habs : |rational u| < 2 ^ (1024 : Int) := by
    rwa [abs_of_pos (hpos.trans hlt), ← not_le]
  have hle := abs_value_le (Packed.isFinite ⟨u, hu, habs, rfl⟩)
  rw [value_ofModel hu habs, abs_of_pos (hpos.trans hlt)] at hle
  exact absurd hlt (not_lt.2 hle)

theorem Rounded.isFinite {q : Rat} {x : Float} (h : Rounded q x)
    (hq : |q| < largest + 2 ^ (970 : Int)) : x.isFinite ∧ Nearest q (value x) := by
  obtain ⟨u, hu, hn, rfl⟩ := h
  have hlt := hn.abs_lt hq
  exact ⟨Packed.isFinite ⟨u, hu, hlt, rfl⟩, by rwa [value_ofModel hu hlt]⟩

theorem Rounded.infinite {q : Rat} {x : Float} (h : Rounded q x)
    (hq : largest + 2 ^ (970 : Int) ≤ q) : x.toModel.unpack = .infinity .positive := by
  obtain ⟨u, hu, hn, rfl⟩ := h
  have hle := hn.le_of_large hu hq
  have hpos : (0 : Rat) < 2 ^ (1024 : Int) := by positivity
  obtain ⟨s, rfl⟩ | ⟨s, m, e, hm, rfl, hd⟩ := hu.cases
  · rw [rational_zero] at hle
    exact absurd hle (not_le.2 hpos)
  cases s with
  | negative => exact absurd (rational_neg hm) (not_lt.2 (hpos.le.trans hle))
  | positive =>
    have he : 971 < e := by
      have hm' : (m : Rat) < 2 ^ 53 := by exact_mod_cast hd.lt
      have hlt : (2 : Rat) ^ (1024 : Int) < 2 ^ (53 + e) := by
        calc (2 : Rat) ^ (1024 : Int) ≤ m * 2 ^ e := hle
          _ < 2 ^ 53 * 2 ^ e := mul_lt_mul_of_pos_right hm' (by positivity)
          _ = 2 ^ (53 + e) := by rw [zpow_add₀ two_ne_zero]; norm_num
      have := (zpow_lt_zpow_iff_right₀ one_lt_two).1 hlt
      omega
    show unpack .binary64 (pack .binary64 _) = _
    rw [pack_of_large _ hm he]
    rfl

theorem add_isFinite {x y : Float} (hx : x.isFinite) (hy : y.isFinite)
    (h : |value x + value y| < largest + 2 ^ (970 : Int)) : (x + y).isFinite := by
  obtain ⟨hcanon, hn⟩ := add_canonical (canonical_of_isFinite hx) (canonical_of_isFinite hy)
  exact Packed.isFinite ⟨_, hcanon, hn.abs_lt h, rfl⟩

theorem not_isFinite_pack {u : UnpackedFloat} (hu : u.isFinite = false) :
    ¬ (Float.ofModel (.pack u)).isFinite := by
  cases u with
  | notANumber => exact Bool.false_ne_true
  | infinity s => cases s <;> exact Bool.false_ne_true
  | zero s => cases hu
  | finite s m e hm => cases hu

/-- What is not finite stays so whatever is added. -/
theorem isFinite_of_add {x y : Float} (h : (x + y).isFinite) : x.isFinite ∧ y.isFinite := by
  have hsum : (add .binary64 x.toModel.unpack y.toModel.unpack).isFinite = true := by
    by_contra hc
    exact not_isFinite_pack (Bool.eq_false_of_not_eq_true hc) h
  show x.toModel.unpack.isFinite = true ∧ y.toModel.unpack.isFinite = true
  cases hu : x.toModel.unpack <;> cases hv : y.toModel.unpack <;> rw [hu, hv] at hsum
  case zero.zero | zero.finite | finite.zero | finite.finite => exact ⟨rfl, rfl⟩
  case infinity.infinity s s' => cases s <;> cases s' <;> cases hsum
  all_goals cases hsum

end Binary64

open Binary64

/-! ## Angles -/

theorem isFinite_of_range {x : Float} (h0 : 0 ≤ x) (h : x < 360) : x.isFinite := by
  by_contra hx
  obtain hu | ⟨s, hu⟩ := unpack_not_finite hx
  · exact not_lt_of_nan hu _ h
  · rw [le_def, hu] at h0
    rw [lt_def, hu] at h
    cases s
    · exact Bool.false_ne_true h0
    · exact Bool.false_ne_true h

/-- An angle is wrapped if it lies in `[0, 360)`. -/
theorem wrapped_iff {x : Float} : Wrapped x ↔ 0 ≤ x ∧ x < 360 := by
  refine ⟨Wrapped.range, fun ⟨h0, h⟩ => ?_⟩
  have hx := isFinite_of_range h0 h
  exact ⟨hx, whole_zero.2 ▸ (le_iff whole_zero.1 hx).1 h0,
    whole_full.2 ▸ (lt_iff hx whole_full.1).1 h, .inr (.of_isFinite hx)⟩

/-- A finite turn of a wrapped heading is finite, also if it is as large as a float can be. -/
theorem Wrapped.add_isFinite {x y : Float} (hx : Wrapped x) (hy : y.isFinite) :
    (x + y).isFinite := by
  refine Binary64.add_isFinite hx.isFinite hy ?_
  have hheading : |value x| < 360 := abs_lt.2 ⟨by linarith [hx.nonneg], hx.lt_full⟩
  have hsmall : (360 : Rat) < 2 ^ (970 : Int) := by
    calc (360 : Rat) < 2 ^ (9 : Int) := by norm_num
      _ ≤ 2 ^ (970 : Int) := zpow_le_zpow_right₀ one_le_two (by norm_num)
  calc |value x + value y| ≤ |value x| + |value y| := abs_add_le _ _
    _ < 2 ^ (970 : Int) + largest :=
      add_lt_add_of_lt_of_le (hheading.trans hsmall) (abs_value_le hy)
    _ = largest + 2 ^ (970 : Int) := add_comm _ _

end TurtleGraphics
