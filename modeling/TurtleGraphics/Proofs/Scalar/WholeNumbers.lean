import TurtleGraphics.Proofs.Scalar.Wrapping

/-!
# Whole numbers in binary64

Which whole numbers binary64 holds (`Holds`), and what it makes of the others: the nearest of those
it holds, and of two that are as near the even one (`RoundsTo`), which leaves only one
(`RoundsTo.unique`). Rounding a whole number gives a whole number (`Nearest.whole`), so an angle
that is one stays one when it is wrapped (`value_wrapDegrees`).
-/

set_option autoImplicit false

namespace TurtleGraphics

open Scalar

namespace Binary64

open Float.Model.UnpackedFloat

/-- Binary64 holds the whole number: without the zeros at its end it has at most 53 bits. The ones
that are too large for this are far beyond all numbers that lines can spell. -/
def Holds (k : Int) : Prop := ∃ (m : Int) (e : Nat), k = m * 2 ^ e ∧ |m| < 2 ^ 53

theorem holds_of_abs_le {k : Int} (h : |k| ≤ 2 ^ 53) : Holds k := by
  rcases h.lt_or_eq with hlt | heq
  · exact ⟨k, 0, by simp, hlt⟩
  · rcases abs_eq (by norm_num) |>.1 heq with rfl | rfl
    · exact ⟨1, 53, by norm_num, by norm_num⟩
    · exact ⟨-1, 53, by norm_num, by norm_num⟩

/-- A float that is a whole number is one that binary64 holds. -/
theorem holds_of_value {x : Float} (hx : x.isFinite) {k : Int} (h : value x = k) : Holds k := by
  unfold value at h
  obtain ⟨s, hu⟩ | ⟨s, m, e, hm, hu, hd⟩ := (canonical_of_isFinite hx).cases
  · rw [hu, rational_zero] at h
    obtain rfl : k = 0 := by exact_mod_cast h.symm
    exact ⟨0, 0, by simp, by norm_num⟩
  rw [hu, rational_finite] at h
  have hm' : |s.apply (m : Int)| < 2 ^ 53 := by
    have := hd.lt
    cases s <;> simp only [Sign.apply, abs_neg, Nat.abs_cast] <;> exact_mod_cast this
  rcases le_total 0 e with he | he
  · obtain ⟨d, rfl⟩ := Int.eq_ofNat_of_zero_le he
    rw [zpow_natCast] at h
    exact ⟨s.apply m, d, by exact_mod_cast h.symm, hm'⟩
  · -- the unit in the last place is at most one, so the number is no larger than its mantissa
    refine ⟨k, 0, by simp, ?_⟩
    have hle : |(k : Rat)| ≤ |((s.apply m : Int) : Rat)| * 1 := by
      rw [← h, abs_mul, abs_of_pos (by positivity : (0 : Rat) < 2 ^ e)]
      exact mul_le_mul_of_nonneg_left (zpow_le_one_of_nonpos₀ one_le_two he) (abs_nonneg _)
    have : |k| ≤ |s.apply (m : Int)| := by
      rw [mul_one] at hle
      exact_mod_cast hle
    exact this.trans_lt hm'

/-! ## Rounding whole numbers -/

/-- Binary64 holds `k`, and nothing nearer to `n`. If it holds another number that is as near, `k`
is the even one of the two: the one with more zeros at its end. -/
structure RoundsTo (n k : Int) : Prop where
  holds : Holds k
  nearest : ∀ j, Holds j → |n - k| ≤ |n - j|
  even : ∀ j, Holds j → |n - j| = |n - k| → j ≠ k → ∃ t : Nat, 2 ^ t ∣ k ∧ ¬ 2 ^ t ∣ j

theorem RoundsTo.eq_of_holds {n k : Int} (h : RoundsTo n k) (hn : Holds n) : k = n := by
  have hle := h.nearest n hn
  rw [sub_self, abs_zero] at hle
  have := abs_nonpos_iff.1 hle
  omega

/-- A whole number is rounded to one number only. -/
theorem RoundsTo.unique {n k j : Int} (hk : RoundsTo n k) (hj : RoundsTo n j) : j = k := by
  by_contra hne
  have hsame : |n - j| = |n - k| :=
    le_antisymm (hj.nearest k hk.holds) (hk.nearest j hj.holds)
  obtain ⟨t, htk, htj⟩ := hk.even j hj.holds hsame hne
  obtain ⟨u, huj, huk⟩ := hj.even k hk.holds hsame.symm (Ne.symm hne)
  rcases le_total t u with h | h
  · exact htj ((pow_dvd_pow 2 h).trans huj)
  · exact huk ((pow_dvd_pow 2 h).trans htk)

/-- What a whole number is rounded to is one itself: the same one, or a multiple of a unit that has
53 bits less than it, and an even one if two are as near. -/
theorem Nearest.whole {n : Int} {v : Rat} (h : Nearest n v) :
    ∃ k : Int, v = k ∧
      (k = n ∨ ∃ t : Nat, 2 ^ (t + 52) ≤ |n| ∧ 2 ^ t ∣ k ∧ 2 * |k - n| ≤ 2 ^ t ∧
        (2 * |k - n| = 2 ^ t → 2 ^ (t + 1) ∣ k)) := by
  obtain ⟨t, r, -, hbig, rfl, hn, heven⟩ := h
  rcases le_total 0 t with ht | ht
  · obtain ⟨d, rfl⟩ := Int.eq_ofNat_of_zero_le ht
    rcases hbig with hlow | hbig
    · omega
    rw [zpow_natCast] at hn heven
    refine ⟨r * 2 ^ d, by push_cast; rw [zpow_natCast], .inr ⟨d, ?_, ⟨r, mul_comm _ _⟩, ?_, ?_⟩⟩
    · exact_mod_cast hbig
    · exact_mod_cast hn
    · intro htie
      obtain ⟨c, rfl⟩ := (heven (by exact_mod_cast htie)).two_dvd
      exact ⟨c, by rw [pow_succ]; ring⟩
  · obtain ⟨d, rfl⟩ := Int.exists_eq_neg_ofNat ht
    have hn' : (n : Rat) = (n * 2 ^ d : Int) * 2 ^ (-(d : Int)) := by
      rw [zpow_neg, zpow_natCast]
      push_cast
      field_simp
    rw [hn'] at hn
    exact ⟨n, by rw [eq_of_near hn, ← hn'], .inl rfl⟩

/-- Two multiples of a unit are the same or at least that unit apart. -/
theorem le_abs_sub_of_dvd {u j k : Int} (hj : u ∣ j) (hk : u ∣ k) (h : j ≠ k) : u ≤ |j - k| :=
  Int.le_of_dvd (abs_pos.2 (sub_ne_zero.2 h)) ((dvd_abs _ _).2 (dvd_sub hj hk))

/-- Of the multiples of a unit none is nearer than one that is at most half of it away. -/
theorem near_of_dvd {u n k j : Int} (hk : u ∣ k) (hj : u ∣ j) (h : 2 * |k - n| ≤ u) :
    |n - k| ≤ |n - j| := by
  by_cases hjk : j = k
  · rw [hjk]
  have hle := le_abs_sub_of_dvd hj hk hjk
  have htri := abs_sub_le j n k
  rw [abs_sub_comm j n] at htri
  rw [abs_sub_comm] at h
  linarith

/-- What binary64 holds is a multiple of the unit, or it is farther away: a smaller unit makes only
numbers below the 53 bits of `n`, and those end with a multiple again. -/
theorem Holds.dvd_or_far {n k j : Int} {t : Nat} (hj : Holds j) (hbig : 2 ^ (t + 52) ≤ |n|)
    (hdvd : 2 ^ t ∣ k) (hnear : 2 * |k - n| ≤ 2 ^ t) : 2 ^ t ∣ j ∨ |n - k| < |n - j| := by
  obtain ⟨m, e, rfl, hm⟩ := hj
  rcases Nat.lt_or_ge e t with he | he
  · right
    have hlt : |m * 2 ^ e| < 2 ^ (t + 52) := by
      calc |m * 2 ^ e| = |m| * 2 ^ e := by rw [abs_mul, abs_pow, abs_two]
        _ < 2 ^ 53 * 2 ^ e := mul_lt_mul_of_pos_right hm (by positivity)
        _ = 2 ^ (53 + e) := (pow_add ..).symm
        _ ≤ 2 ^ (t + 52) := pow_le_pow_right₀ (by norm_num) (by omega)
    have hedge : (2 : Int) ^ t ∣ 2 ^ (t + 52) := pow_dvd_pow 2 (by omega)
    have hfar := abs_sub_abs_le_abs_sub n (m * 2 ^ e)
    rcases le_total 0 n with hn | hn
    · have := near_of_dvd hdvd hedge hnear
      rw [abs_of_nonneg hn] at hbig hfar
      rw [abs_of_nonneg (by linarith : 0 ≤ n - 2 ^ (t + 52))] at this
      linarith
    · have := near_of_dvd hdvd (dvd_neg.2 hedge) hnear
      rw [abs_of_nonpos hn] at hbig hfar
      rw [abs_of_nonpos (by linarith : n - -2 ^ (t + 52) ≤ 0)] at this
      linarith
  · exact .inl ((pow_dvd_pow 2 he).mul_left m)

/-- Of two multiples of a unit that are as near, the even one has more zeros at its end. -/
theorem even_of_tie {n k j : Int} {t : Nat} (hk : 2 ^ t ∣ k) (hj : 2 ^ t ∣ j)
    (hnear : 2 * |k - n| ≤ 2 ^ t) (heven : 2 * |k - n| = 2 ^ t → 2 ^ (t + 1) ∣ k)
    (hsame : |n - j| = |n - k|) (hne : j ≠ k) : 2 ^ (t + 1) ∣ k ∧ ¬ 2 ^ (t + 1) ∣ j := by
  have hle := le_abs_sub_of_dvd hj hk hne
  have htri := abs_sub_le j n k
  rw [abs_sub_comm j n, hsame, abs_sub_comm n k] at htri
  have hk' := heven (by linarith)
  refine ⟨hk', fun hj' => ?_⟩
  have hle' := le_abs_sub_of_dvd hj' hk' hne
  have hp : (0 : Int) < 2 ^ t := by positivity
  rw [pow_succ] at hle'
  linarith

/-- A float that a whole number is rounded to is what binary64 has nearest to it. -/
theorem Nearest.roundsTo {n : Int} {x : Float} (hx : x.isFinite) (h : Nearest n (value x)) :
    ∃ k : Int, value x = k ∧ RoundsTo n k := by
  obtain ⟨k, hk, hcases⟩ := h.whole
  refine ⟨k, hk, ?_⟩
  obtain rfl | ⟨t, hbig, hdvd, hnear, heven⟩ := hcases
  · refine ⟨holds_of_value hx hk, fun j _ => ?_, fun j _ hsame hne => ?_⟩
    · rw [sub_self, abs_zero]
      exact abs_nonneg _
    · rw [sub_self, abs_zero, abs_eq_zero, sub_eq_zero] at hsame
      exact absurd hsame.symm hne
  · refine ⟨holds_of_value hx hk, fun j hj => ?_, fun j hj hsame hne => ?_⟩
    · rcases hj.dvd_or_far hbig hdvd hnear with hj' | hfar
      · exact near_of_dvd hdvd hj' hnear
      · exact hfar.le
    · rcases hj.dvd_or_far hbig hdvd hnear with hj' | hfar
      · exact ⟨t + 1, even_of_tie hdvd hj' hnear heven hsame hne⟩
      · exact absurd hsame hfar.ne'

end Binary64

open Binary64

/-! ## Wrapping -/

/-- A whole number of degrees of less than a full turn is brought above zero without rounding. -/
theorem value_add_full {x : Float} (hx : x.isFinite) {j : Int} (h : value x = j) (hj : |j| < 360) :
    (x + whole 360).isFinite ∧ value (x + whole 360) = (j + 360 : Int) := by
  obtain ⟨hlo, hhi⟩ := abs_lt.1 hj
  have hsum : value x + value (whole 360 : Float) = (j + 360 : Int) := by
    rw [h, whole_full.2]
    push_cast
    rfl
  have hlarge : |value x + value (whole 360 : Float)| < 2 ^ 100 := by
    rw [hsum]
    exact_mod_cast (abs_lt.2 ⟨by omega, by omega⟩ : |j + 360| < 2 ^ 100)
  obtain ⟨hpacked, hnear⟩ := add_nearest hx whole_full.1 hlarge
  rw [hsum] at hnear
  obtain ⟨k, hk, hround⟩ := hnear.roundsTo hpacked.isFinite
  have hheld : Holds (j + 360) := holds_of_abs_le (abs_le.2 ⟨by omega, by omega⟩)
  rw [hround.eq_of_holds hheld] at hk
  exact ⟨hpacked.isFinite, hk⟩

/-- A whole number of degrees is wrapped without rounding. -/
theorem value_wrapDegrees {x : Float} (hx : x.isFinite) {k : Int} (h : value x = k) :
    value (wrapDegrees x) = (k % 360 : Int) := by
  obtain ⟨hspec, hfin, -⟩ := remainder_full hx
  rw [wrapDegrees_of_remainder rfl]
  generalize remainder x (whole 360) = left at hspec hfin
  obtain ⟨c, hc⟩ := hspec.multiple
  obtain ⟨j, hj⟩ : ∃ j : Int, value left = j := ⟨k - c * 360, by push_cast; linarith⟩
  rw [h, hj] at hspec
  have hkj : k = c * 360 + j := by
    rw [h, hj] at hc
    exact_mod_cast hc
  have hsmall : |j| < 360 := by
    have := hspec.small
    rw [abs_of_pos (by norm_num : (0 : Rat) < 360)] at this
    exact_mod_cast this
  obtain ⟨hlo, hhi⟩ := abs_lt.1 hsmall
  by_cases hneg : left < whole 0
  · have hj0 : j < 0 := by
      rw [lt_zero_iff hfin, hj] at hneg
      exact_mod_cast hneg
    obtain ⟨hfin', hvalue⟩ := value_add_full hfin hj hsmall
    have hfull : ¬ whole 360 ≤ left + whole 360 := by
      rw [full_le_iff hfin', hvalue, not_le]
      exact_mod_cast (by omega : j + 360 < 360)
    rw [if_pos hneg, if_neg hfull, hvalue]
    congr 1
    omega
  · have hj0 : 0 ≤ j := by
      rw [lt_zero_iff hfin, hj, not_lt] at hneg
      exact_mod_cast hneg
    have hfull : ¬ whole 360 ≤ left := by
      rw [full_le_iff hfin, hj, not_le]
      exact_mod_cast hhi
    rw [if_neg hneg, if_neg hfull, hj]
    congr 1
    omega

end TurtleGraphics
