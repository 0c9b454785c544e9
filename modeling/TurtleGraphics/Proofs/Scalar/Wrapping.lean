import TurtleGraphics.Proofs.Scalar.Scientific
import TurtleGraphics.Scalar.Binary64

/-!
# Wrapping angles

The remainder of finite floats is exact (`exactRemainder_spec`), since it has no more bits than one
of the two mantissas. Wrapping brings every finite angle into `[0, 360)` (`wrapDegrees_wrapped`). A
wrapped angle is its own remainder, so wrapping it again changes nothing (`wrapDegrees_idem`).
-/

set_option autoImplicit false

namespace TurtleGraphics

open Scalar Binary64
open Float.Model (UnpackedFloat)
open Float.Model.UnpackedFloat

/-! ## The exact remainder -/

/-- What is left of `q` after taking out `d` a whole number of times toward zero. -/
structure IsRemainder (q d r : Rat) : Prop where
  multiple : ∃ k : Int, q = k * d + r
  small : |r| < |d|
  nonneg : 0 ≤ q → 0 ≤ r
  nonpos : q ≤ 0 → r ≤ 0

/-- What is smaller than the divisor already is left as it is. -/
theorem IsRemainder.eq_of_lt {q d r : Rat} (h : IsRemainder q d r) (hq : 0 ≤ q) (hd : q < d) :
    r = q := by
  obtain ⟨k, hk⟩ := h.multiple
  have hr := h.nonneg hq
  have hsmall := h.small
  rw [abs_of_nonneg hr, abs_of_nonneg (by linarith)] at hsmall
  have hdpos : 0 < d := by linarith
  have hlo : -1 < (k : Rat) := by
    by_contra hc
    have := mul_le_mul_of_nonneg_right (not_lt.1 hc) hdpos.le
    linarith
  have hhi : (k : Rat) < 1 := by
    by_contra hc
    have := mul_le_mul_of_nonneg_right (not_lt.1 hc) hdpos.le
    linarith
  have hlo' : -1 < k := by exact_mod_cast hlo
  have hhi' : k < 1 := by exact_mod_cast hhi
  obtain rfl : k = 0 := by omega
  simpa using hk.symm

/-- Numbers of the same exponent are divided as whole numbers. -/
theorem isRemainder_mod (s s' : Sign) {m n : Nat} (hm : 0 < m) (hn : 0 < n) (e : Int) :
    IsRemainder (s.apply m * 2 ^ e) (s'.apply n * 2 ^ e) (s.apply (m % n : Nat) * 2 ^ e) := by
  have hpe : (0 : Rat) < 2 ^ e := by positivity
  have hlt : ((m % n : Nat) : Rat) < n := by exact_mod_cast Nat.mod_lt m hn
  have hpos : (0 : Rat) < m * 2 ^ e := by positivity
  have hdiv : (m : Rat) = n * (m / n : Nat) + (m % n : Nat) := by
    exact_mod_cast (Nat.div_add_mod m n).symm
  generalize m / n = d at hdiv
  generalize m % n = r at hdiv hlt
  constructor
  case multiple =>
    refine ⟨(s * s').apply d, ?_⟩
    rw [apply_eq s m, hdiv, apply_eq s r]
    cases s <;> cases s' <;> simp [Sign.apply] <;> ring
  case small =>
    rw [abs_mul, abs_mul, abs_apply, abs_apply]
    exact mul_lt_mul_of_pos_right hlt (abs_pos.2 hpe.ne')
  case nonneg =>
    intro h
    cases s with
    | positive => simp only [Sign.apply]; positivity
    | negative => simp [Sign.apply] at h; linarith
  case nonpos =>
    intro h
    cases s with
    | positive => simp [Sign.apply] at h; linarith
    | negative => simp [Sign.apply]; positivity

/-- At the smaller exponent one of the two mantissas is still as it was, so what is left has no
more bits than it. -/
theorem mod_lt_of_shifted {m n : Nat} {e f : Int} (hm : Digits m e) (hn : Digits n f) (h0 : 0 < n) :
    (m <<< (e - min e f).toNat) % (n <<< (f - min e f).toNat) < 2 ^ 53 := by
  rcases le_total e f with h | h
  · rw [min_eq_left h, sub_self]
    exact (Nat.mod_le _ _).trans_lt hm.lt
  · rw [min_eq_right h, sub_self]
    exact (Nat.mod_lt _ h0).trans hn.lt

/-- The remainder is exact: it is among the numbers that binary64 holds. -/
theorem exactRemainder_finite {x y : Float} {s s' : Sign} {m n : Nat} {e f : Int} {hm : 0 < m}
    {hn : 0 < n} (hx : x.toModel.unpack = .finite s m e hm)
    (hy : y.toModel.unpack = .finite s' n f hn) :
    Packed (exactRemainder x y) ∧
      IsRemainder (value x) (value y) (value (exactRemainder x y)) := by
  obtain ⟨k, hk⟩ : ∃ k : Nat, (e - min e f).toNat = k := ⟨_, rfl⟩
  obtain ⟨l, hl⟩ : ∃ l : Nat, (f - min e f).toNat = l := ⟨_, rfl⟩
  obtain ⟨hdm, hem⟩ := digits_of_unpack hx
  obtain ⟨hdn, hen⟩ := digits_of_unpack hy
  have hbits := mod_lt_of_shifted hdm hdn hn
  have hdef : exactRemainder x y = .ofModel (.pack (UnpackedFloat.round .binary64 s
      ((m <<< (e - min e f).toNat) % (n <<< (f - min e f).toNat)) (min e f))) := by
    unfold exactRemainder
    rw [hx, hy]
  rw [hk, hl] at hbits hdef
  obtain ⟨hcanon, hval⟩ := round_exact s hbits (le_min hdm.low hdn.low)
  have hm' := apply_shiftLeft s m k e
  have hn' := apply_shiftLeft s' n l f
  rw [show e - (k : Int) = min e f by omega] at hm'
  rw [show f - (l : Int) = min e f by omega] at hn'
  have hspec := isRemainder_mod s s' (Nat.shiftLeft_pos_iff.2 hm) (Nat.shiftLeft_pos_iff.2 hn)
    (m := m <<< k) (n := n <<< l) (min e f)
  rw [hm', hn', ← hval] at hspec
  have hvx : value x = s.apply m * 2 ^ e := by rw [value, hx]; rfl
  have hvy : value y = s'.apply n * 2 ^ f := by rw [value, hy]; rfl
  have hfy : y.isFinite := isFinite_of_canonical (by rw [hy]; exact hdn)
  rw [← hvx, ← hvy] at hspec
  have hlt := hspec.small.trans (abs_value_lt hfy)
  refine ⟨⟨_, hcanon, hlt, hdef⟩, ?_⟩
  rwa [hdef, value_ofModel hcanon hlt]

/-- The remainder of finite numbers; zero is left as it is, with its sign. -/
theorem exactRemainder_spec {x y : Float} (hx : x.isFinite) (hy : y.isFinite) (h0 : value y ≠ 0) :
    IsRemainder (value x) (value y) (value (exactRemainder x y)) ∧
      (value x = 0 → exactRemainder x y = x) ∧ (value x ≠ 0 → Packed (exactRemainder x y)) := by
  obtain ⟨s', hv⟩ | ⟨s', n, f, hn, hv, -⟩ := (canonical_of_isFinite hy).cases
  · exact absurd (by rw [value, hv]; rfl) h0
  obtain ⟨s, hu⟩ | ⟨s, m, e, hm, hu, -⟩ := (canonical_of_isFinite hx).cases
  · have hzero : value x = 0 := by rw [value, hu]; rfl
    have hdef : exactRemainder x y = x := by
      unfold exactRemainder
      rw [hu, hv]
    refine ⟨?_, fun _ => hdef, fun h => absurd hzero h⟩
    rw [hdef, hzero]
    exact ⟨⟨0, by simp⟩, by rwa [abs_zero, abs_pos], fun _ => le_rfl, fun _ => le_rfl⟩
  · obtain ⟨hpacked, hspec⟩ := exactRemainder_finite hu hv
    refine ⟨hspec, fun h => absurd h ?_, fun _ => hpacked⟩
    have hpos := rational_pos (e := e) hm
    have hneg := rational_neg (e := e) hm
    rw [value, hu]
    cases s
    · exact hneg.ne
    · exact hpos.ne'

/-! ## Angles -/

/-- The whole numbers that angles are compared with are exact. -/
theorem value_whole {n : Nat} (hn : n < 2 ^ 53) :
    (whole n : Float).isFinite ∧ value (whole n : Float) = n := by
  obtain ⟨hpacked, hnear⟩ := ofNat_nearest (hn.trans (by norm_num))
  refine ⟨hpacked.isFinite, hnear.exact (k := n) (e := 0) (by simp) ?_ (by norm_num)⟩
  simpa using hn

theorem whole_zero : (whole 0 : Float).isFinite ∧ value (whole 0 : Float) = 0 := by
  simpa using value_whole (n := 0) (by norm_num)

theorem whole_full : (whole 360 : Float).isFinite ∧ value (whole 360 : Float) = 360 := by
  simpa using value_whole (n := 360) (by norm_num)

/-- An angle as wrapping leaves it. -/
structure Wrapped (x : Float) : Prop where
  isFinite : x.isFinite
  nonneg : 0 ≤ value x
  lt_full : value x < 360
  packed : value x = 0 ∨ Packed x

theorem wrapDegrees_of_remainder {x left : Float} (h : remainder x (whole 360) = left) :
    wrapDegrees x =
      if whole 360 ≤ if left < whole 0 then left + whole 360 else left then whole 0
      else if left < whole 0 then left + whole 360 else left := by
  subst h
  rfl

theorem lt_zero_iff {x : Float} (hx : x.isFinite) : x < whole 0 ↔ value x < 0 := by
  rw [lt_iff hx whole_zero.1, whole_zero.2]

theorem full_le_iff {x : Float} (hx : x.isFinite) : whole 360 ≤ x ↔ 360 ≤ value x := by
  rw [le_iff whole_full.1 hx, whole_full.2]

namespace Wrapped

variable {x : Float}

/-- It lies in `[0, 360)` also by the comparisons of floats. -/
theorem range (h : Wrapped x) : 0 ≤ x ∧ x < 360 := by
  constructor
  · exact (le_iff whole_zero.1 h.isFinite).2 (whole_zero.2 ▸ h.nonneg)
  · exact (lt_iff h.isFinite whole_full.1).2 (whole_full.2 ▸ h.lt_full)

/-- Wrapping it again changes nothing. -/
theorem wrapDegrees_eq (h : Wrapped x) : wrapDegrees x = x := by
  obtain ⟨hspec, hzero, hpacked⟩ := exactRemainder_spec h.isFinite whole_full.1
    (by rw [whole_full.2]; norm_num)
  rw [whole_full.2] at hspec
  have hval := hspec.eq_of_lt h.nonneg h.lt_full
  have hleft : remainder x (whole 360) = x := by
    by_cases h0 : value x = 0
    · exact hzero h0
    · exact (hpacked h0).eq_of_value_eq (h.packed.resolve_left h0) hval (by rwa [hval])
  rw [wrapDegrees_of_remainder hleft, if_neg (mt (lt_zero_iff h.isFinite).1 (not_lt.2 h.nonneg)),
    if_neg (mt (full_le_iff h.isFinite).1 (not_le.2 h.lt_full))]

/-- An angle that is not below zero is wrapped unless it reaches a full turn, which is 0 again. -/
theorem of_nonneg (hx : x.isFinite) (h0 : 0 ≤ value x) (hpacked : value x = 0 ∨ Packed x) :
    Wrapped (if whole 360 ≤ x then whole 0 else x) := by
  split
  · exact ⟨whole_zero.1, whole_zero.2.ge, by rw [whole_zero.2]; norm_num, .inl whole_zero.2⟩
  · rename_i hlt
    rw [full_le_iff hx, not_le] at hlt
    exact ⟨hx, h0, hlt, hpacked⟩

end Wrapped

/-- Adding a full turn to a negative remainder makes an angle that is not below zero, though
rounding may bring it to a full turn. -/
theorem add_full {x : Float} (hx : x.isFinite) (hlo : -360 < value x) (hhi : value x < 0) :
    Packed (x + whole 360) ∧ 0 ≤ value (x + whole 360) := by
  have hsum : 0 ≤ value x + value (whole 360 : Float) := by
    rw [whole_full.2]
    linarith
  have hlt : |value x + value (whole 360 : Float)| < 2 ^ 100 := by
    rw [abs_of_nonneg hsum, whole_full.2]
    linarith [show (360 : Rat) < 2 ^ 100 by norm_num]
  obtain ⟨hpacked, hnear⟩ := add_nearest hx whole_full.1 hlt
  exact ⟨hpacked, hnear.nonneg hsum⟩

/-- The remainder by a full turn of a finite angle. -/
theorem remainder_full {x : Float} (hx : x.isFinite) :
    let left : Float := remainder x (whole 360)
    IsRemainder (value x) 360 (value left) ∧ left.isFinite ∧ (value left = 0 ∨ Packed left) := by
  intro left
  obtain ⟨hspec, hzero, hpacked⟩ := exactRemainder_spec hx whole_full.1
    (by rw [whole_full.2]; norm_num)
  rw [whole_full.2] at hspec
  refine ⟨hspec, ?_⟩
  by_cases h0 : value x = 0
  · have hleft : left = x := hzero h0
    rw [hleft]
    exact ⟨hx, .inl h0⟩
  · exact ⟨(hpacked h0).isFinite, .inr (hpacked h0)⟩

/-- Every finite angle is wrapped, the tiny negative ones among them. -/
theorem wrapDegrees_wrapped {x : Float} (hx : x.isFinite) : Wrapped (wrapDegrees x) := by
  obtain ⟨hspec, hfin, hstored⟩ := remainder_full hx
  rw [wrapDegrees_of_remainder rfl]
  generalize remainder x (whole 360) = left at hspec hfin hstored
  by_cases hneg : left < whole 0
  · have hneg' := (lt_zero_iff hfin).1 hneg
    have hsmall := hspec.small
    rw [abs_of_neg hneg', abs_of_pos (by norm_num)] at hsmall
    obtain ⟨hsum, hsum0⟩ := add_full hfin (by linarith) hneg'
    simp only [if_pos hneg]
    exact .of_nonneg hsum.isFinite hsum0 (.inr hsum)
  · have hnonneg := not_lt.1 (mt (lt_zero_iff hfin).2 hneg)
    simp only [if_neg hneg]
    exact .of_nonneg hfin hnonneg hstored

/-! ## What is not finite -/

theorem unpack_not_finite {x : Float} (hx : ¬ x.isFinite) :
    x.toModel.unpack = .notANumber ∨ ∃ s, x.toModel.unpack = .infinity s := by
  have hx' : ¬ x.toModel.unpack.isFinite = true := hx
  cases hu : x.toModel.unpack with
  | notANumber => exact .inl rfl
  | infinity s => exact .inr ⟨s, rfl⟩
  | zero s => rw [hu] at hx'; exact absurd rfl hx'
  | finite s m e hm => rw [hu] at hx'; exact absurd rfl hx'

theorem unpack_nan : (0.0 / 0.0 : Float).toModel.unpack = .notANumber := by
  rfl

theorem not_isFinite_nan : ¬ (0.0 / 0.0 : Float).isFinite := by
  show ¬ (0.0 / 0.0 : Float).toModel.unpack.isFinite = true
  rw [unpack_nan]
  exact Bool.false_ne_true

/-- The remainder of what is not finite is no number. -/
theorem exactRemainder_of_not_finite {x y : Float} (hx : ¬ x.isFinite) (hy : y.isFinite) :
    exactRemainder x y = 0.0 / 0.0 := by
  unfold exactRemainder
  obtain ⟨s', hv⟩ | ⟨s', n, f, hn, hv, -⟩ := (canonical_of_isFinite hy).cases <;>
    rcases unpack_not_finite hx with hu | ⟨s, hu⟩ <;> rw [hu, hv]

theorem wrapDegrees_of_not_finite {x : Float} (hx : ¬ x.isFinite) : wrapDegrees x = 0.0 / 0.0 := by
  rw [wrapDegrees_of_remainder (exactRemainder_of_not_finite hx whole_full.1),
    if_neg (not_lt_of_nan unpack_nan _), if_neg (not_le_nan unpack_nan _)]

/-- Wrapping brings an angle into range exactly if it is finite. -/
theorem wrapped_wrapDegrees_iff {x : Float} : Wrapped (wrapDegrees x) ↔ x.isFinite := by
  refine ⟨fun h => ?_, wrapDegrees_wrapped⟩
  by_contra hx
  rw [wrapDegrees_of_not_finite hx] at h
  exact not_isFinite_nan h.isFinite

/-- Wrapping a wrapped heading changes nothing; this holds also of what is no number. -/
theorem wrapDegrees_idem (x : Float) : wrapDegrees (wrapDegrees x) = wrapDegrees x := by
  by_cases hx : x.isFinite
  · exact (wrapDegrees_wrapped hx).wrapDegrees_eq
  · rw [wrapDegrees_of_not_finite hx]
    exact wrapDegrees_of_not_finite not_isFinite_nan

end TurtleGraphics
