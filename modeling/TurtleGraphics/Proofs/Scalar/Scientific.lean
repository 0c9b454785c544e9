import TurtleGraphics.Proofs.Scalar.Values

/-!
# Decimals in binary64

A decimal `m · 10 ^ e` becomes the binary64 number nearest to it (`ofScientific_rounded`). Short
ones are made from floats that hold both the digits and the power of ten (`IsPowerOfTen`), the
others from whole numbers: a product is rounded once, and so is a quotient, since its remainder
tells what two bits know about a fraction (`keeps_quotient`). Whole numbers are decimals too
(`ofNat_nearest`).
-/

set_option autoImplicit false

namespace TurtleGraphics.Binary64

open Float.Model (Format UnpackedFloat totalExponent)
open Float.Model.UnpackedFloat

/-! ## Quotients -/

/-- The remainder of a division compares with the divisor as the fraction does with one. -/
theorem keeps_quotient (m : Nat) {n : Nat} (hn : 0 < n) :
    Keeps (.ofMantissaAndAccuracy (m / n) (accuracyOfFraction (m % n) n)) (m / n) := by
  have hn' : (0 : Rat) < n := by exact_mod_cast hn
  have hdiv : (m : Rat) / n = (m / n : Nat) + (m % n : Nat) / n := by
    rw [eq_comm, ← mul_right_inj' hn'.ne', mul_add, mul_div_cancel₀ _ hn'.ne',
      mul_div_cancel₀ _ hn'.ne']
    exact_mod_cast Nat.div_add_mod m n
  have hlt : ((m % n : Nat) : Rat) / n < 1 := by
    rw [div_lt_one hn']
    exact_mod_cast Nat.mod_lt m hn
  refine ⟨(m % n : Nat) / n, ?_, ?_⟩
  · rw [mantissa_ofMantissaAndAccuracy, hdiv]
  unfold accuracyOfFraction
  by_cases h0 : m % n = 0
  · rw [if_pos h0, h0]
    simp [ExtendedMantissa.ofMantissaAndAccuracy]
  have hpos : (0 : Rat) < (m % n : Nat) / n := by
    have : (0 : Rat) < (m % n : Nat) := by exact_mod_cast Nat.pos_of_ne_zero h0
    positivity
  rw [if_neg h0]
  rcases lt_trichotomy (2 * (m % n)) n with h | h | h
  · rw [compare_lt_iff_lt.2 h]
    refine ⟨hpos, ?_⟩
    rw [← mul_div_assoc, div_lt_one hn']
    exact_mod_cast h
  · rw [compare_eq_iff_eq.2 h]
    show 2 * (((m % n : Nat) : Rat) / n) = 1
    rw [← mul_div_assoc, div_eq_one_iff_eq hn'.ne']
    exact_mod_cast h
  · rw [compare_gt_iff_gt.2 h]
    refine ⟨?_, hlt⟩
    rw [← mul_div_assoc, one_lt_div hn']
    exact_mod_cast h

/-- The exponent at which a quotient is made. -/
def quotientExponent (m : Nat) (e : Int) (n : Nat) (f : Int) : Int :=
  min (e - f) (Format.binary64.targetExponent (totalExponent m e - totalExponent n f))

theorem quotientExponent_eq (m : Nat) (e : Int) (n : Nat) (f : Int) :
    quotientExponent m e n f = min (e - f) (max (m.log2 + e - (n.log2 + f) - 53) (-1074)) := by
  have hb : ((Format.binary64.mantissaBits : Nat) : Int) = 53 := by decide
  have hm : Format.binary64.minExponent = -1074 := by decide
  unfold quotientExponent Format.targetExponent totalExponent
  rw [hb, hm]
  omega

/-- A quotient has as many bits as its target exponent leaves room for. -/
theorem quotient_room {m n k : Nat} (hm : 0 < m) (hn : 0 < n) {e f : Int}
    (hk : (e - f - quotientExponent m e n f).toNat = k) :
    quotientExponent m e n f ≤ target ((m <<< k) / n) (quotientExponent m e n f) := by
  have ht := quotientExponent_eq m e n f
  rw [target_eq]
  by_cases hlow : quotientExponent m e n f ≤ -1074
  · exact le_max_of_le_right hlow
  refine le_max_of_le_left ?_
  have hbits : n.log2 + 53 ≤ m.log2 + k := by omega
  have hquot : 2 ^ 52 ≤ (m <<< k) / n := by
    rw [Nat.le_div_iff_mul_le hn, Nat.shiftLeft_eq]
    calc 2 ^ 52 * n ≤ 2 ^ 52 * 2 ^ (n.log2 + 1) := Nat.mul_le_mul_left _ Nat.lt_log2_self.le
      _ = 2 ^ (n.log2 + 53) := by rw [← pow_add]; congr 1; omega
      _ ≤ 2 ^ (m.log2 + k) := Nat.pow_le_pow_right two_pos hbits
      _ = 2 ^ m.log2 * 2 ^ k := pow_add ..
      _ ≤ m * 2 ^ k := Nat.mul_le_mul_right _ (Nat.log2_self_le hm.ne')
  have := (Nat.le_log2 (by omega)).2 hquot
  omega

/-- The exact quotient, rounded. -/
theorem div_nearest (s : Sign) {m n : Nat} (hm : 0 < m) (hn : 0 < n) (e f : Int) :
    let u := div .binary64 (.finite s m e hm) (.finite .positive n f hn)
    Canonical u ∧ Nearest (s.apply m * 2 ^ e / (n * 2 ^ f)) (rational u) := by
  intro u
  obtain ⟨k, hk⟩ : ∃ k : Nat, (e - f - quotientExponent m e n f).toNat = k := ⟨_, rfl⟩
  have hs : s / Sign.positive = s := by cases s <;> rfl
  have hu : u = roundWithAccuracy .binary64 s ((m <<< k) / n) (quotientExponent m e n f)
      (accuracyOfFraction ((m <<< k) % n) n) := by
    rw [← hk, show u = div .binary64 (.finite s m e hm) (.finite .positive n f hn) from rfl, div,
      hs]
    rfl
  have hle : quotientExponent m e n f ≤ e - f := min_le_left _ _
  have hvalue : ((m <<< k : Nat) : Rat) / n * 2 ^ quotientExponent m e n f =
      m * 2 ^ e / (n * 2 ^ f) := by
    rw [show quotientExponent m e n f = e - f - (k : Int) by omega, Nat.shiftLeft_eq,
      zpow_sub₀ two_ne_zero, zpow_sub₀ two_ne_zero, zpow_natCast]
    push_cast
    field_simp
  rw [hu, apply_eq, mul_assoc, mul_div_assoc, ← hvalue]
  exact roundWithAccuracy_nearest s (keeps_quotient (m <<< k) hn) (quotient_room hm hn hk)

theorem div_canonical {u : UnpackedFloat} (hu : Canonical u) {n : Nat} (f : Int) (hn : 0 < n) :
    let v : UnpackedFloat := .finite .positive n f hn
    Canonical (div .binary64 u v) ∧
      Nearest (rational u / rational v) (rational (div .binary64 u v)) := by
  intro v
  obtain ⟨s, rfl⟩ | ⟨s, m, e, hm, rfl, -⟩ := hu.cases
  · have hdiv : div .binary64 (.zero s) v = .zero (s / .positive) := rfl
    rw [hdiv, rational_zero, zero_div]
    exact ⟨trivial, .refl (u := .zero .positive) trivial⟩
  · have hv : rational v = n * 2 ^ f := by simp [v, Sign.apply]
    rw [hv]
    exact div_nearest s hm hn e f

/-! ## Powers of ten -/

/-- The number is a power of ten, with all its bits. -/
def IsPowerOfTen (k : Nat) : UnpackedFloat → Prop
  | .finite .positive n f _ => 2 ^ 52 ≤ n ∧ -52 ≤ f ∧ n * 2 ^ (f + 52).toNat = 10 ^ k * 2 ^ 52
  | _ => False

instance (k : Nat) : (u : UnpackedFloat) → Decidable (IsPowerOfTen k u)
  | .finite .positive n f _ => inferInstanceAs
    (Decidable (2 ^ 52 ≤ n ∧ -52 ≤ f ∧ n * 2 ^ (f + 52).toNat = 10 ^ k * 2 ^ 52))
  | .finite .negative _ _ _ | .zero _ | .infinity _ | .notANumber => .isFalse id

/-- The table that short decimals are made with. -/
theorem isPowerOfTen : ∀ k : Fin 23,
    IsPowerOfTen k (Float.exactlyRepresentablePowersOfTen[k]).toModel.unpack := by
  decide +kernel

theorem IsPowerOfTen.cases {k : Nat} {u : UnpackedFloat} (h : IsPowerOfTen k u) :
    ∃ n f, ∃ hn : 0 < n, u = .finite .positive n f hn ∧ 2 ^ 52 ≤ n ∧ rational u = 10 ^ k := by
  cases u with
  | zero s => exact h.elim
  | infinity s => exact h.elim
  | notANumber => exact h.elim
  | finite s n f hn =>
    cases s with
    | negative => exact h.elim
    | positive =>
      obtain ⟨hfull, hlow, hvalue⟩ := h
      refine ⟨n, f, hn, rfl, hfull, ?_⟩
      obtain ⟨d, rfl⟩ : ∃ d : Nat, f = d - 52 := ⟨(f + 52).toNat, by omega⟩
      rw [sub_add_cancel, Int.toNat_natCast] at hvalue
      have hvalue' : (n : Rat) * 2 ^ d = 10 ^ k * 2 ^ 52 := by exact_mod_cast hvalue
      rw [rational_finite, zpow_sub₀ two_ne_zero, zpow_natCast, ← mul_div_assoc]
      show (n : Rat) * 2 ^ d / _ = _
      rw [hvalue']
      norm_num

/-! ## Decimals -/

/-- The float is the number, rounded. It is infinite if this is too large. -/
def Rounded (q : Rat) (x : Float) : Prop :=
  ∃ u, Canonical u ∧ Nearest q (rational u) ∧ x = .ofModel (.pack u)

theorem Rounded.nearest {q : Rat} {x : Float} (h : Rounded q x) (hq : |q| < 2 ^ 100) :
    Packed x ∧ Nearest q (value x) := by
  obtain ⟨u, hu, hn, rfl⟩ := h
  exact ofModel_nearest hu hn hq

/-- Short decimals are products or quotients of two floats that are exact. -/
theorem short_rounded {m k : Nat} (hm : m < 2 ^ 53) (hk : k < 23) :
    Rounded (m * 10 ^ k) (m.toUInt64.toFloat * Float.exactlyRepresentablePowersOfTen[k]) ∧
      Rounded (m / 10 ^ k) (m.toUInt64.toFloat / Float.exactlyRepresentablePowersOfTen[k]) := by
  obtain ⟨hfin, hvalue⟩ := toFloat_exact hm
  obtain ⟨n, f, hn, hu, hfull, hten⟩ := (isPowerOfTen ⟨k, hk⟩).cases
  have hpower : Float.exactlyRepresentablePowersOfTen[k].toModel.unpack =
    .finite .positive n f hn := hu
  rw [hu] at hten
  obtain ⟨hmul, hmul'⟩ := mul_canonical (canonical_of_isFinite hfin) f hn hfull
  obtain ⟨hdiv, hdiv'⟩ := div_canonical (canonical_of_isFinite hfin) f hn
  unfold value at hvalue
  rw [hten, hvalue, ← hpower] at hmul' hdiv'
  rw [← hpower] at hmul hdiv
  exact ⟨⟨_, hmul, hmul', rfl⟩, ⟨_, hdiv, hdiv', rfl⟩⟩

/-- A decimal is far below the smallest number if its exponent is far below what its digits make up
for. -/
theorem tiny_nearest {m : Nat} {e : Int} (he : e < -(2048 + (m.log2 : Int))) :
    Nearest (m * 10 ^ e) 0 := by
  obtain ⟨k, rfl⟩ : ∃ k : Nat, e = -(k : Int) := ⟨(-e).toNat, by omega⟩
  have hm : (m : Rat) ≤ 2 ^ (m.log2 + 1) := by exact_mod_cast Nat.lt_log2_self.le
  have hten : ((10 : Rat) ^ k)⁻¹ ≤ (2 ^ k)⁻¹ :=
    inv_anti₀ (by positivity) (pow_le_pow_left₀ (by norm_num) (by norm_num) k)
  have hsmall : 2 * ((m : Rat) * 10 ^ (-(k : Int))) ≤ 2 ^ (-1074 : Int) := by
    rw [zpow_neg, zpow_natCast]
    calc 2 * ((m : Rat) * (10 ^ k)⁻¹) ≤ 2 * (2 ^ (m.log2 + 1) * (2 ^ k)⁻¹) := by gcongr
      _ = 2 ^ ((m.log2 : Int) + 2 - k) := by
        rw [zpow_sub₀ two_ne_zero, zpow_natCast, zpow_add₀ two_ne_zero, zpow_natCast, pow_succ,
          div_eq_mul_inv]
        norm_num
        ring
      _ ≤ 2 ^ (-1074 : Int) := zpow_le_zpow_right₀ one_le_two (by omega)
  refine ⟨-1074, 0, le_rfl, .inl rfl, by simp, ?_, fun _ => Even.zero⟩
  rwa [zero_sub, abs_neg, abs_of_nonneg (by positivity)]

/-- A long decimal with a positive exponent is one product of whole numbers. -/
theorem product_nearest {m : Nat} (hm : 0 < m <<< 53) {n k : Nat} (hn : 0 < n) (hten : n = 10 ^ k) :
    let u := mul .binary64 (.finite .positive (m <<< 53) (-53) hm) (.finite .positive n 0 hn)
    Canonical u ∧ Nearest (m * 10 ^ k) (rational u) := by
  have hvalue : ((Sign.positive.apply (m <<< 53 * n : Nat) : Int) : Rat) * 2 ^ (-53 + 0 : Int) =
      m * 10 ^ k := by
    rw [Nat.shiftLeft_eq, add_zero, zpow_neg, hten]
    simp only [Sign.apply]
    push_cast
    field_simp
  have hlog : 53 ≤ (m <<< 53 * n).log2 := by
    have hm0 : 0 < m := Nat.shiftLeft_pos_iff.1 hm
    rw [Nat.le_log2 (Nat.mul_pos hm hn).ne', Nat.shiftLeft_eq, mul_comm m, mul_assoc]
    exact Nat.le_mul_of_pos_right _ (Nat.mul_pos hm0 hn)
  have htarget := target_eq (m <<< 53 * n) (-53 + 0)
  rw [← hvalue, mul_finite]
  exact roundExact_nearest .positive (by omega)

/-- With a negative exponent it is one quotient of them. -/
theorem quotient_nearest {m : Nat} (hm : 0 < m) {n k : Nat} (hn : 0 < n) (hten : n = 10 ^ k) :
    let u := div .binary64 (.finite .positive m 0 hm) (.finite .positive n 0 hn)
    Canonical u ∧ Nearest (m / 10 ^ k) (rational u) := by
  have hvalue : ((Sign.positive.apply (m : Nat) : Int) : Rat) * 2 ^ (0 : Int) /
      (n * 2 ^ (0 : Int)) = m / 10 ^ k := by
    simp [hten, Sign.apply]
  rw [← hvalue]
  exact div_nearest .positive hm hn 0 0

theorem two_pow_exponentBits : (2 : Int) ^ Format.binary64.exponentBits = 2048 := by decide

theorem long_nearest {m : Nat} {e : Int} (he : m = 0 ∨ e ≤ 2048) :
    let u := UnpackedFloat.ofScientific .binary64 m e
    Canonical u ∧ Nearest (m * 10 ^ e) (rational u) := by
  intro u
  by_cases h0 : m = 0
  · have hu : u = .zero .positive := dif_pos h0
    rw [hu, h0, Nat.cast_zero, zero_mul]
    exact ⟨trivial, .refl (u := .zero .positive) trivial⟩
  have hm : 0 < m := Nat.pos_of_ne_zero h0
  have hmantissa : Format.binary64.mantissaBits = 53 := by decide
  have hu : u = UnpackedFloat.ofScientific .binary64 m e := rfl
  rw [UnpackedFloat.ofScientific, dif_neg h0, two_pow_exponentBits,
    if_neg (not_lt.2 (he.resolve_left h0))] at hu
  by_cases htiny : e < -(2048 + (m.log2 : Int))
  · rw [if_pos htiny] at hu
    rw [hu]
    exact ⟨trivial, tiny_nearest htiny⟩
  rw [if_neg htiny] at hu
  rcases le_or_gt 0 e with hk | hk
  · obtain ⟨k, rfl⟩ := Int.eq_ofNat_of_zero_le hk
    rw [if_pos hk] at hu
    simp only [hmantissa] at hu
    rw [hu, zpow_natCast]
    exact product_nearest _ _ (by rw [Int.toNat_natCast])
  · obtain ⟨k, rfl⟩ : ∃ k : Nat, e = -(k : Int) := ⟨(-e).toNat, by omega⟩
    rw [if_neg (not_le.2 hk)] at hu
    rw [hu, zpow_neg, zpow_natCast, ← div_eq_mul_inv]
    exact quotient_nearest hm _ (by rw [neg_neg, Int.toNat_natCast])

/-- The exponent of a decimal whose sign stands apart. -/
def signedExponent (minus : Bool) (k : Nat) : Int := if minus then -(k : Int) else k

theorem ofScientific_long {m : Nat} {minus : Bool} {k : Nat} (h : ¬ (m < 2 ^ 53 ∧ k ≤ 22)) :
    Float.ofScientific m minus k =
      .ofModel (.pack (UnpackedFloat.ofScientific .binary64 m (signedExponent minus k))) := by
  rw [Float.ofScientific, dif_neg h]
  cases minus with
  | false => rfl
  | true => cases k <;> rfl

theorem ofScientific_infinite {m : Nat} {minus : Bool} {k : Nat} (hm : m ≠ 0)
    (h : 2048 < signedExponent minus k) :
    Float.ofScientific m minus k = .ofModel (.pack (.infinity .positive)) := by
  have hk : ¬ (m < 2 ^ 53 ∧ k ≤ 22) := by
    unfold signedExponent at h
    split at h <;> omega
  rw [ofScientific_long hk, UnpackedFloat.ofScientific, dif_neg hm, two_pow_exponentBits, if_pos h]

/-- A decimal is rounded to the nearest number, unless it is far too large for a float. -/
theorem ofScientific_rounded {m : Nat} {minus : Bool} {k : Nat}
    (h : m = 0 ∨ signedExponent minus k ≤ 2048) :
    Rounded (m * 10 ^ signedExponent minus k) (Float.ofScientific m minus k) := by
  by_cases hshort : m < 2 ^ 53 ∧ k ≤ 22
  · obtain ⟨hmul, hdiv⟩ := short_rounded hshort.1 (by omega : k < 23)
    rw [Float.ofScientific, dif_pos hshort]
    cases minus with
    | false =>
      rw [show signedExponent false k = k from rfl, zpow_natCast]
      exact hmul
    | true =>
      rw [show signedExponent true k = -k from rfl, zpow_neg, zpow_natCast, ← div_eq_mul_inv]
      exact hdiv
  · obtain ⟨hcanon, hnear⟩ := long_nearest h
    exact ⟨_, hcanon, hnear, ofScientific_long hshort⟩

/-! ## Whole numbers -/

theorem ofNat_nearest {n : Nat} (hn : n < 2 ^ 64) :
    Packed (Float.ofNat n) ∧ Nearest n (value (Float.ofNat n)) := by
  have h : Rounded (n * 10 ^ signedExponent false 0) (Float.ofNat n) :=
    ofScientific_rounded (.inr (by decide))
  have hvalue : (n : Rat) * 10 ^ signedExponent false 0 = n := by simp [signedExponent]
  rw [hvalue] at h
  exact h.nearest (abs_natCast_lt hn)

theorem ofInt_nearest {n : Int} (hn : n.natAbs < 2 ^ 64) :
    Packed (Float.ofInt n) ∧ Nearest n (value (Float.ofInt n)) := by
  cases n with
  | ofNat n => exact ofNat_nearest hn
  | negSucc n =>
    obtain ⟨hpacked, hnear⟩ := ofNat_nearest hn
    rw [show ((Int.negSucc n : Int) : Rat) = -((n + 1 : Nat) : Rat) by push_cast; ring]
    exact neg_nearest hpacked.isFinite hnear (abs_natCast_lt hn)

end TurtleGraphics.Binary64
