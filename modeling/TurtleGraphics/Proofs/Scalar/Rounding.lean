import Mathlib.Algebra.Order.Field.Power
import Mathlib.Tactic.Linarith
import Mathlib.Tactic.Positivity
import Mathlib.Tactic.Ring

/-!
# Rounding to binary64

The exact value of a finite number is a rational (`rational`); it is canonical if it uses all the
bits that binary64 has for it. Rounding gives a canonical number, and the nearest (`round_nearest`):
while a mantissa is shifted, two bits keep how the fraction that is dropped compares with one half
(`Keeps.shiftRightOne`), and what is left is rounded by them, a half to the even neighbour
(`Keeps.nearest`). A number of at most 53 bits is rounded to itself (`Nearest.exact`,
`round_exact`).
-/

set_option autoImplicit false

namespace TurtleGraphics.Binary64

open Float.Model (Format UnpackedFloat totalExponent)
open Float.Model.UnpackedFloat

/-! ## Dropping bits -/

/-- What is left of `x` without its fraction, and how the fraction compares with one half. -/
def Keeps (em : ExtendedMantissa) (x : Rat) : Prop :=
  ∃ fraction : Rat, x = em.mantissa + fraction ∧
    match em.roundBit, em.stickyBit with
    | false, false => fraction = 0
    | false, true => 0 < fraction ∧ 2 * fraction < 1
    | true, false => 2 * fraction = 1
    | true, true => 1 < 2 * fraction ∧ fraction < 1

theorem mantissa_ofMantissaAndAccuracy (m : Nat) (accuracy : Accuracy) :
    (ExtendedMantissa.ofMantissaAndAccuracy m accuracy).mantissa = m := by
  cases accuracy with
  | exact => rfl
  | inexact o => cases o <;> rfl

theorem keeps_exact (m : Nat) : Keeps (.ofMantissaAndAccuracy m .exact) m :=
  ⟨0, (add_zero _).symm, rfl⟩

namespace Keeps

variable {em : ExtendedMantissa} {x : Rat}

theorem shiftRightOne (h : Keeps em x) : Keeps em.shiftRightOne (x / 2) := by
  obtain ⟨n, round, sticky⟩ := em
  obtain ⟨fraction, rfl, hf⟩ := h
  refine ⟨((n % 2 : Nat) + fraction) / 2, ?_, ?_⟩
  · have hn : (n : Rat) = 2 * (n / 2 : Nat) + (n % 2 : Nat) := by
      exact_mod_cast (Nat.div_add_mod n 2).symm
    simp only [ExtendedMantissa.shiftRightOne]
    linarith
  · simp only [ExtendedMantissa.shiftRightOne]
    -- the bit that is dropped now decides about the half, all before it only whether it is met
    rcases Nat.mod_two_eq_zero_or_one n with h2 | h2 <;> cases round <;> cases sticky <;>
      simp only [h2] at hf ⊢ <;> simp <;> grind

theorem shift (h : Keeps em x) (k : Nat) : Keeps (em >>> k) (x / 2 ^ k) := by
  induction k with
  | zero =>
    rw [pow_zero, div_one]
    exact h
  | succ k ih =>
    rw [pow_succ, ← div_div]
    exact ih.shiftRightOne

/-- The mantissa that is left goes to the nearest, and to the even one of two. -/
theorem nearest (h : Keeps em x) : 2 * |(em.roundedMantissa : Rat) - x| ≤ 1 ∧
    (2 * |(em.roundedMantissa : Rat) - x| = 1 → Even em.roundedMantissa) := by
  obtain ⟨n, round, sticky⟩ := em
  obtain ⟨fraction, rfl, hf⟩ := h
  cases round <;> cases sticky <;>
    simp only [ExtendedMantissa.roundedMantissa, ExtendedMantissa.accuracy,
      Accuracy.roundToNearestEven] at *
  · simp [hf]
  · rw [show (n : Rat) - (n + fraction) = -fraction by ring, abs_neg, abs_of_pos hf.1]
    exact ⟨hf.2.le, fun h => absurd h hf.2.ne⟩
  · have heven : Even (n + n % 2) := by
      rw [Nat.even_iff]
      omega
    refine ⟨?_, fun _ => heven⟩
    rcases Nat.mod_two_eq_zero_or_one n with h2 | h2 <;> rw [h2] <;> push_cast <;>
      rw [← abs_two, ← abs_mul, abs_le] <;> constructor <;> linarith
  · push_cast
    rw [show (n : Rat) + 1 - (n + fraction) = 1 - fraction by ring, abs_of_pos (by linarith)]
    exact ⟨by linarith, fun h => absurd h (by linarith)⟩

theorem rounded_le (h : Keeps em x) {b : Nat} (hb : x < b) : em.roundedMantissa ≤ b := by
  have hle := (abs_le.1 (by linarith [h.nearest.1] : |(em.roundedMantissa : Rat) - x| ≤ 1 / 2)).2
  have hlt : (em.roundedMantissa : Rat) < (b + 1 : Nat) := by
    push_cast
    linarith
  exact Nat.lt_succ_iff.1 (by exact_mod_cast hlt)

theorem le_rounded (h : Keeps em x) {b : Nat} (hb : b ≤ x) : b ≤ em.roundedMantissa := by
  have hle := (abs_le.1 (by linarith [h.nearest.1] : |(em.roundedMantissa : Rat) - x| ≤ 1 / 2)).1
  have hlt : (b : Rat) < (em.roundedMantissa + 1 : Nat) := by
    push_cast
    linarith
  exact Nat.lt_succ_iff.1 (by exact_mod_cast hlt)

/-- Only the fraction is lost. -/
theorem mantissa_le (h : Keeps em x) : em.mantissa ≤ x ∧ x < em.mantissa + 1 := by
  obtain ⟨n, round, sticky⟩ := em
  obtain ⟨fraction, rfl, hf⟩ := h
  cases round <;> cases sticky <;> dsimp only at hf ⊢ <;> constructor <;> linarith

end Keeps

/-! ## Canonical numbers -/

/-- Mantissa and exponent of a number that binary64 holds, if the exponent is not too large: all 53
bits are used, or the exponent is the lowest there is. -/
structure Digits (m : Nat) (e : Int) : Prop where
  lt : m < 2 ^ 53
  low : -1074 ≤ e
  full : 2 ^ 52 ≤ m ∨ e = -1074

/-- A finite number in the form that `unpack` gives and that comparisons rely on. -/
def Canonical : UnpackedFloat → Prop
  | .zero _ => True
  | .finite _ m e _ => Digits m e
  | _ => False

theorem Canonical.cases {u : UnpackedFloat} (hu : Canonical u) :
    (∃ s, u = .zero s) ∨ ∃ s m e, ∃ hm : 0 < m, u = .finite s m e hm ∧ Digits m e := by
  cases u with
  | notANumber => exact hu.elim
  | infinity s => exact hu.elim
  | zero s => exact .inl ⟨s, rfl⟩
  | finite s m e hm => exact .inr ⟨s, m, e, hm, rfl, hu⟩

/-- The exact value of a finite number. -/
def rational : UnpackedFloat → Rat
  | .finite s m e _ => s.apply m * 2 ^ e
  | _ => 0

@[simp]
theorem rational_zero (s : Sign) : rational (.zero s) = 0 := rfl

@[simp]
theorem rational_finite (s : Sign) {m : Nat} {e : Int} (hm : 0 < m) :
    rational (.finite s m e hm) = s.apply m * 2 ^ e := rfl

theorem abs_apply (s : Sign) (m : Nat) : |((s.apply m : Int) : Rat)| = m := by
  cases s <;> simp [Sign.apply]

theorem apply_eq (s : Sign) (m : Nat) : ((s.apply m : Int) : Rat) = s.apply (1 : Nat) * m := by
  cases s <;> simp [Sign.apply]

/-! ## Rounding to nearest -/

/-- The number `v` is a multiple of the unit in the last place of `q`, and none is nearer; if
another one is as near, `v` is the even one of the two. -/
def Nearest (q v : Rat) : Prop :=
  ∃ t r : Int, -1074 ≤ t ∧ (t = -1074 ∨ 2 ^ (t + 52) ≤ |q|) ∧ v = r * 2 ^ t ∧
    2 * |v - q| ≤ 2 ^ t ∧ (2 * |v - q| = 2 ^ t → Even r)

/-- Two multiples of a unit are the same if they are at most half of it apart. -/
theorem eq_of_near {r k t : Int} (h : 2 * |(r : Rat) * 2 ^ t - k * 2 ^ t| ≤ 2 ^ t) : r = k := by
  have hp : (0 : Rat) < 2 ^ t := by positivity
  rw [← sub_mul, abs_mul, abs_of_pos hp] at h
  have hone : 2 * |(r : Rat) - k| ≤ 1 := by
    by_contra hgt
    have := mul_lt_mul_of_pos_right (not_le.1 hgt) hp
    linarith
  have hone' : 2 * |r - k| ≤ 1 := by exact_mod_cast hone
  have hnonneg := abs_nonneg (r - k)
  have := abs_eq_zero.1 (by omega : |r - k| = 0)
  omega

namespace Nearest

variable {q v : Rat}

theorem neg (h : Nearest q v) : Nearest (-q) (-v) := by
  obtain ⟨t, r, hlow, hq, hr, hn, heven⟩ := h
  refine ⟨t, -r, hlow, by rwa [abs_neg], by rw [hr]; push_cast; ring, ?_⟩
  rw [show -v - -q = -(v - q) by ring, abs_neg]
  exact ⟨hn, fun ht => (heven ht).neg⟩

/-- A number that is not below zero is not rounded below it. -/
theorem nonneg (h : Nearest q v) (hq : 0 ≤ q) : 0 ≤ v := by
  obtain ⟨t, r, -, -, rfl, hn, -⟩ := h
  have hp : (0 : Rat) < 2 ^ t := by positivity
  have hlo := neg_le_of_abs_le (a := (r : Rat) * 2 ^ t - q) (b := 2 ^ t / 2) (by linarith)
  by_contra hneg
  have hr : r ≤ -1 := by
    by_contra hr
    have : (0 : Rat) ≤ r := by exact_mod_cast (by omega : 0 ≤ r)
    exact hneg (by positivity)
  have : (r : Rat) * 2 ^ t ≤ -1 * 2 ^ t :=
    mul_le_mul_of_nonneg_right (by exact_mod_cast hr) hp.le
  linarith

/-- What has at most 53 bits is not rounded. -/
theorem exact (h : Nearest q v) {k e : Int} (hq : q = k * 2 ^ e) (hk : |k| < 2 ^ 53)
    (he : -1074 ≤ e) : v = q := by
  obtain ⟨t, r, -, hbig, rfl, hn, -⟩ := h
  have hp : (0 : Rat) < 2 ^ t := by positivity
  have hte : t ≤ e := by
    rcases hbig with rfl | hbig
    · exact he
    have hk' : |(k : Rat)| < 2 ^ 53 := by exact_mod_cast hk
    have hlt : (2 : Rat) ^ (t + 52) < 2 ^ (53 + e) := by
      calc (2 : Rat) ^ (t + 52) ≤ |(k : Rat)| * 2 ^ e := by
            rwa [hq, abs_mul, abs_of_pos (by positivity : (0 : Rat) < 2 ^ e)] at hbig
        _ < 2 ^ 53 * 2 ^ e := mul_lt_mul_of_pos_right hk' (by positivity)
        _ = 2 ^ (53 + e) := by rw [zpow_add₀ two_ne_zero]; norm_num
    have := (zpow_lt_zpow_iff_right₀ one_lt_two).1 hlt
    omega
  obtain ⟨d, rfl⟩ : ∃ d : Nat, e = t + d := ⟨(e - t).toNat, by omega⟩
  have hq' : q = ((k * 2 ^ d : Int) : Rat) * 2 ^ t := by
    rw [hq, zpow_add₀ two_ne_zero]; push_cast; rw [zpow_natCast]; ring
  rw [hq'] at hn
  have hr := eq_of_near hn
  rw [hq', hr]

/-- Only what is not above half of the smallest number is rounded to zero. -/
theorem eq_zero_iff (h : Nearest q v) : v = 0 ↔ 2 * |q| ≤ 2 ^ (-1074 : Int) := by
  obtain ⟨t, r, hlow, hbig, rfl, hn, heven⟩ := h
  have hp : (0 : Rat) < 2 ^ t := by positivity
  constructor
  · intro h0
    rw [h0, zero_sub, abs_neg] at hn
    rcases hbig with rfl | hbig
    · exact hn
    · rw [zpow_add₀ two_ne_zero] at hbig
      norm_num at hbig
      linarith
  · intro hsmall
    obtain rfl : t = -1074 := by
      by_contra ht
      have hlt : (2 : Rat) ^ (-1074 : Int) ≤ 2 ^ (t + 52) :=
        zpow_le_zpow_right₀ one_le_two (by omega)
      have := hbig.resolve_left ht
      have := zpow_pos (two_pos : (0 : Rat) < 2) (-1074)
      linarith
    generalize (2 : Rat) ^ (-1074 : Int) = w at *
    have hfar := abs_sub_abs_le_abs_sub ((r : Rat) * w) q
    rw [abs_mul, abs_of_pos hp] at hfar
    -- the smallest number is odd, and a tie does not go to it
    have hr : |r| ≤ 1 := by
      have : |(r : Rat)| * w ≤ 1 * w := by linarith
      exact_mod_cast le_of_mul_le_mul_right this hp
    have hne : |r| ≠ 1 := by
      intro h1
      have h1' : |(r : Rat)| = 1 := by exact_mod_cast h1
      rw [h1', one_mul] at hfar
      obtain ⟨c, rfl⟩ := heven (by linarith)
      rcases abs_cases (c + c) with h | h <;> omega
    have hr0 : |r| = 0 := by
      have := abs_nonneg r
      omega
    rw [abs_eq_zero.1 hr0]
    simp

/-- Rounding does not double a number, but for the very small ones. -/
theorem abs_le (h : Nearest q v) : |v| ≤ 2 * |q| + 1 := by
  obtain ⟨t, -, -, hbig, -, hn, -⟩ := h
  have hd : |v| ≤ |v - q| + |q| := by
    simpa using abs_add_le (v - q) q
  have hq := abs_nonneg q
  have hsmall : (2 : Rat) ^ t ≤ |q| + 1 := by
    rcases hbig with rfl | hbig
    · have : (2 : Rat) ^ (-1074 : Int) ≤ 1 := zpow_le_one_of_nonpos₀ one_le_two (by norm_num)
      linarith
    · have : (2 : Rat) ^ t ≤ 2 ^ (t + 52) := zpow_le_zpow_right₀ one_le_two (by omega)
      linarith
  linarith

end Nearest

/-! ## Rounding a mantissa -/

/-- The exponent that a number is rounded to. -/
def target (m : Nat) (e : Int) : Int := Format.binary64.targetExponent (totalExponent m e)

theorem target_eq (m : Nat) (e : Int) : target m e = max (m.log2 + e - 52) (-1074) := by
  have hb : ((Format.binary64.mantissaBits : Nat) : Int) = 53 := by decide
  have hm : Format.binary64.minExponent = -1074 := by decide
  unfold target Format.targetExponent totalExponent
  rw [hb, hm]
  omega

theorem log2_le_of_lt {m n : Nat} (h : m < 2 ^ (n + 1)) : m.log2 ≤ n := by
  rcases Nat.eq_zero_or_pos m with rfl | hm
  · simp
  · have := (Nat.log2_lt hm.ne').2 h
    omega

/-- A number either has all the bits that its target exponent leaves room for, or goes to the
lowest exponent. In both cases what is left of its mantissa fits. -/
theorem room_of_target {m k : Nat} {e : Int} (hk : target m e = e + k) :
    m < 2 ^ 53 * 2 ^ k ∧ (2 ^ 52 * 2 ^ k ≤ m ∨ e + k = -1074) := by
  have ht := target_eq m e
  constructor
  · calc m < 2 ^ (m.log2 + 1) := Nat.lt_log2_self
      _ ≤ 2 ^ (53 + k) := Nat.pow_le_pow_right two_pos (by omega)
      _ = 2 ^ 53 * 2 ^ k := pow_add ..
  · by_cases hlow : e + (k : Int) = -1074
    · exact .inr hlow
    · left
      have hm : m ≠ 0 := by
        rintro rfl
        rw [Nat.log2_zero] at ht
        omega
      calc 2 ^ 52 * 2 ^ k = 2 ^ m.log2 := by rw [← pow_add]; congr 1; omega
        _ ≤ m := Nat.log2_self_le hm

/-- A mantissa that rounding may have brought to `2 ^ 53` is shifted once more, to the same
number. -/
theorem shift_again {r : Nat} {t : Int} (hr : r ≤ 2 ^ 53) (ht : -1074 ≤ t)
    (hfull : 2 ^ 52 ≤ r ∨ t = -1074) :
    let p := shiftToTargetExponent .binary64 r t .exact
    (p.1.mantissa : Rat) * 2 ^ p.2 = r * 2 ^ t ∧ Digits p.1.mantissa p.2 := by
  intro p
  have hshift : p = shiftToExponent r t .exact (target r t) := rfl
  rcases Nat.lt_or_eq_of_le hr with hlt | rfl
  · have hk : (target r t - t).toNat = 0 := by
      have := log2_le_of_lt hlt
      rw [target_eq]
      omega
    have hp : p = (⟨r, false, false⟩, t + 0) := by
      rw [hshift, shiftToExponent, hk]
      rfl
    rw [hp]
    exact ⟨by simp, hlt, by simpa using ht, by simpa using hfull⟩
  · have hk : (target (2 ^ 53) t - t).toNat = 1 := by
      rw [target_eq, Nat.log2_two_pow]
      omega
    have hp : p = (⟨2 ^ 52, false, false⟩, t + 1) := by
      rw [hshift, shiftToExponent, hk]
      rfl
    rw [hp]
    refine ⟨?_, by norm_num, by dsimp only; omega, .inl le_rfl⟩
    rw [zpow_add₀ two_ne_zero]
    push_cast
    ring

/-- What a number is rounded to, by the bits that its target exponent leaves. -/
theorem roundWithAccuracy_eq (s : Sign) {m k : Nat} {e : Int} {accuracy : Accuracy} {x : Rat}
    (hx : Keeps (.ofMantissaAndAccuracy m accuracy) x) (hk : target m e = e + k) :
    let u := roundWithAccuracy .binary64 s m e accuracy
    let left := ExtendedMantissa.ofMantissaAndAccuracy m accuracy >>> k
    Canonical u ∧ rational u = s.apply left.roundedMantissa * 2 ^ (e + (k : Int)) := by
  intro u left
  have hleft : Keeps left (x / 2 ^ k) := hx.shift k
  obtain ⟨hle, hlt⟩ := hx.mantissa_le
  rw [mantissa_ofMantissaAndAccuracy] at hle hlt
  obtain ⟨hroom, hfull⟩ := room_of_target hk
  have hroom' : x / 2 ^ k < (2 ^ 53 : Nat) := by
    rw [div_lt_iff₀ (by positivity)]
    exact hlt.trans_le (by exact_mod_cast hroom)
  have hfull' : 2 ^ 52 ≤ left.roundedMantissa ∨ e + k = -1074 := by
    refine hfull.imp_left fun h => hleft.le_rounded ?_
    rw [le_div_iff₀ (by positivity)]
    exact le_trans (by exact_mod_cast h) hle
  have ht := target_eq m e
  obtain ⟨hvalue, hdigits⟩ := shift_again (hleft.rounded_le hroom')
    (by omega : -1074 ≤ e + (k : Int)) hfull'
  have hfirst : shiftToTargetExponent .binary64 m e accuracy = (left, e + k) := by
    have : shiftToTargetExponent .binary64 m e accuracy =
      shiftToExponent m e accuracy (target m e) := rfl
    rw [this, shiftToExponent, hk, show (e + (k : Int) - e).toNat = k by omega]
  have hu : u = roundWithAccuracy .binary64 s m e accuracy := rfl
  unfold roundWithAccuracy at hu
  rw [hfirst] at hu
  rw [apply_eq, mul_assoc, ← hvalue, ← mul_assoc, ← apply_eq]
  by_cases h0 : (shiftToTargetExponent .binary64 left.roundedMantissa (e + k)
      .exact).1.mantissa = 0
  · rw [hu.trans (dif_pos h0), h0]
    exact ⟨trivial, by cases s <;> simp [Sign.apply]⟩
  · rw [hu.trans (dif_neg h0)]
    exact ⟨hdigits, rfl⟩

/-- Rounding gives the nearest number. -/
theorem roundWithAccuracy_nearest (s : Sign) {m : Nat} {e : Int} {accuracy : Accuracy} {x : Rat}
    (hx : Keeps (.ofMantissaAndAccuracy m accuracy) x) (he : e ≤ target m e) :
    let u := roundWithAccuracy .binary64 s m e accuracy
    Canonical u ∧ Nearest (s.apply (1 : Nat) * (x * 2 ^ e)) (rational u) := by
  intro u
  obtain ⟨k, hk⟩ : ∃ k : Nat, target m e = e + k := ⟨(target m e - e).toNat, by omega⟩
  obtain ⟨hcanon, hu⟩ := roundWithAccuracy_eq s hx hk
  have hle := hx.mantissa_le.1
  rw [mantissa_ofMantissaAndAccuracy] at hle
  obtain ⟨hnear, heven⟩ := (hx.shift k).nearest
  generalize (ExtendedMantissa.ofMantissaAndAccuracy m accuracy >>> k).roundedMantissa = r at *
  have ht := target_eq m e
  have hpk : (0 : Rat) < 2 ^ (e + (k : Int)) := by positivity
  have hscale : x * 2 ^ e = x / 2 ^ k * 2 ^ (e + (k : Int)) := by
    rw [add_comm, zpow_add₀ two_ne_zero, zpow_natCast, ← mul_assoc,
      div_mul_cancel₀ _ (by positivity)]
  have hdiff : |rational u - s.apply (1 : Nat) * (x * 2 ^ e)| =
      |(r : Rat) - x / 2 ^ k| * 2 ^ (e + (k : Int)) := by
    rw [hu, apply_eq, mul_assoc, hscale, ← mul_sub, abs_mul, abs_apply, Nat.cast_one, one_mul,
      ← sub_mul, abs_mul, abs_of_pos hpk]
  refine ⟨hcanon, e + k, s.apply r, by omega, ?_, hu, ?_⟩
  · refine (room_of_target hk).2.symm.imp_right fun h => ?_
    have hc : (2 : Rat) ^ 52 * 2 ^ k ≤ x := le_trans (by exact_mod_cast h) hle
    rw [abs_mul, abs_apply, Nat.cast_one, one_mul]
    calc (2 : Rat) ^ (e + (k : Int) + 52) = 2 ^ 52 * 2 ^ k * 2 ^ e := by
          rw [zpow_add₀ two_ne_zero, zpow_add₀ two_ne_zero, zpow_natCast]
          norm_num
          ring
      _ ≤ x * 2 ^ e := mul_le_mul_of_nonneg_right hc (by positivity)
      _ ≤ |x * 2 ^ e| := le_abs_self _
  · rw [hdiff, ← mul_assoc]
    refine ⟨mul_le_of_le_one_left hpk.le hnear, fun htie => ?_⟩
    have hr := heven (mul_right_cancel₀ hpk.ne' (htie.trans (one_mul _).symm))
    cases s with
    | positive => exact (Int.even_coe_nat r).2 hr
    | negative => exact ((Int.even_coe_nat r).2 hr).neg

/-- What is known exactly is rounded to the nearest number. -/
theorem roundExact_nearest (s : Sign) {m : Nat} {e : Int} (he : e ≤ target m e) :
    let u := roundWithAccuracy .binary64 s m e .exact
    Canonical u ∧ Nearest (s.apply m * 2 ^ e) (rational u) := by
  rw [apply_eq, mul_assoc]
  exact roundWithAccuracy_nearest s (keeps_exact m) he

/-! ## Rounding numbers of any exponent -/

theorem log2_shiftLeft {m : Nat} (hm : m ≠ 0) (k : Nat) : (m <<< k).log2 = m.log2 + k := by
  induction k with
  | zero => rfl
  | succ k ih =>
    rw [Nat.shiftLeft_succ, Nat.log2_two_mul (mt Nat.shiftLeft_eq_zero_iff.1 hm), ih]
    omega

/-- More bits and a lower exponent make the same number. -/
theorem apply_shiftLeft (s : Sign) (m k : Nat) (e : Int) :
    ((s.apply (m <<< k : Nat) : Int) : Rat) * 2 ^ (e - (k : Int)) = s.apply m * 2 ^ e := by
  have hpow : (2 : Rat) ^ k * 2 ^ (e - (k : Int)) = 2 ^ e := by
    rw [← zpow_natCast, ← zpow_add₀ two_ne_zero, add_sub_cancel]
  rw [Nat.shiftLeft_eq, apply_eq, apply_eq s m]
  push_cast
  rw [← mul_assoc, mul_assoc _ ((2 : Rat) ^ k), hpow]

theorem round_nearest (s : Sign) {m : Nat} (hm : m ≠ 0) (e : Int) :
    let u := UnpackedFloat.round .binary64 s m e
    Canonical u ∧ Nearest (s.apply m * 2 ^ e) (rational u) := by
  intro u
  obtain ⟨k, hk⟩ : ∃ k : Nat, (e - target m e).toNat = k := ⟨_, rfl⟩
  have hu : u = roundWithAccuracy .binary64 s (m <<< k) (e - k) .exact := by
    rw [← hk]
    rfl
  have hle : e - (k : Int) ≤ target (m <<< k) (e - k) := by
    have h1 := target_eq m e
    have h2 := target_eq (m <<< k) (e - k)
    have h3 := log2_shiftLeft hm k
    omega
  rw [hu, ← apply_shiftLeft s m k e]
  exact roundExact_nearest s hle

theorem shift_zero (k : Nat) :
    ExtendedMantissa.ofMantissaAndAccuracy 0 .exact >>> k = ⟨0, false, false⟩ := by
  induction k with
  | zero => rfl
  | succ k ih =>
    show (ExtendedMantissa.ofMantissaAndAccuracy 0 .exact >>> k).shiftRightOne = _
    rw [ih]
    rfl

theorem round_zero (s : Sign) (e : Int) : UnpackedFloat.round .binary64 s 0 e = .zero s := by
  have hr : (⟨0, false, false⟩ : ExtendedMantissa).roundedMantissa = 0 := rfl
  simp [UnpackedFloat.round, decreaseExponent, roundWithAccuracy, shiftToTargetExponent,
    shiftToExponent, shift_zero, hr]

/-- What has at most 53 bits is rounded to itself. -/
theorem round_exact (s : Sign) {m : Nat} {e : Int} (hm : m < 2 ^ 53) (he : -1074 ≤ e) :
    let u := UnpackedFloat.round .binary64 s m e
    Canonical u ∧ rational u = s.apply m * 2 ^ e := by
  intro u
  rcases Nat.eq_zero_or_pos m with rfl | hpos
  · have hu : u = .zero s := round_zero s e
    rw [hu]
    exact ⟨trivial, by cases s <;> simp [Sign.apply]⟩
  · obtain ⟨hcanon, hnear⟩ := round_nearest s hpos.ne' e
    refine ⟨hcanon, hnear.exact rfl ?_ he⟩
    cases s <;> simpa [Sign.apply] using (by exact_mod_cast hm : (m : Int) < 2 ^ 53)

theorem normalize_nearest (n : Int) (e : Int) (z : Sign) :
    let u := UnpackedFloat.normalize .binary64 n e z
    Canonical u ∧ Nearest (n * 2 ^ e) (rational u) := by
  unfold UnpackedFloat.normalize
  rcases lt_trichotomy n 0 with hn | rfl | hn
  · rw [compare_lt_iff_lt.2 hn]
    have := round_nearest .negative (by omega : (-n).toNat ≠ 0) e
    rwa [show Sign.negative.apply ((-n).toNat : Int) = n by simp only [Sign.apply]; omega] at this
  · rw [compare_eq_iff_eq.2 rfl]
    exact ⟨trivial, -1074, 0, le_rfl, .inl rfl, by simp, by simp, fun _ => Even.zero⟩
  · rw [compare_gt_iff_gt.2 hn]
    have := round_nearest .positive (by omega : n.toNat ≠ 0) e
    rwa [show Sign.positive.apply (n.toNat : Int) = n by simp only [Sign.apply]; omega] at this

end TurtleGraphics.Binary64
