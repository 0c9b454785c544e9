import TurtleGraphics.Decimal.Reader
import TurtleGraphics.Proofs.Scalar.Packing
import TurtleGraphics.Proofs.Text.Tokens

/-!
# Reading decimals

Which texts spell a float (`Spelled`): a decimal, or one of the words for what is no decimal, behind
at most one sign; nothing else is read (`read?_eq_some_iff`). A decimal is read as the nearest
float, a tie going to the even one, and as infinity from half a unit beyond the largest float on
(`ofDecimal_isFloatOf`).
-/

set_option autoImplicit false

namespace TurtleGraphics.Decimal

open Text Binary64
open Float.Model (Format UnpackedFloat)
open Float.Model.UnpackedFloat

/-! ## Grammar -/

/-- Digits with at most one point among or beside them. -/
inductive DecimalDigits : List Char → Numeral → Prop
  | whole {ds : List Char} (h : DigitRun ds) : DecimalDigits ds ⟨ds, 0⟩
  | pointed {ds fs : List Char} (hd : ∀ c ∈ ds, isDigit c) (hf : ∀ c ∈ fs, isDigit c)
      (h : ds ++ fs ≠ []) : DecimalDigits (ds ++ '.' :: fs) ⟨ds ++ fs, fs.length⟩

/-- Nothing, or the letter `e` and a whole number. -/
inductive DecimalExponent : List Char → Int → Prop
  | none : DecimalExponent [] 0
  | some {c : Char} {cs : List Char} {e : Int} (hc : c = 'e' ∨ c = 'E') (h : SignedDigits cs e) :
      DecimalExponent (c :: cs) e

/-- A decimal without a sign, with the digits `m` and the exponent `e` of the number
`m · 10 ^ e`. -/
inductive IsDecimal : List Char → Nat → Int → Prop
  | mk {front back : List Char} {numeral : Numeral} {e : Int} (hd : DecimalDigits front numeral)
      (he : DecimalExponent back e) :
      IsDecimal (front ++ back) (digitsValue numeral.digits) (e - numeral.places)

/-- The text without regard to the case of its letters. -/
def folded (cs : List Char) : String := String.ofList (cs.map Char.toLower)

/-- The float that a text without a sign spells. -/
inductive Unsigned : List Char → Float → Prop
  | decimal {cs : List Char} {m : Nat} {e : Int} (h : IsDecimal cs m e) :
      Unsigned cs (ofDecimal m e)
  | infinity {cs : List Char} (h : folded cs = "inf" ∨ folded cs = "infinity") :
      Unsigned cs (1.0 / 0.0)
  | notANumber {cs : List Char} (h : folded cs = "nan") : Unsigned cs (0.0 / 0.0)

/-- The float that a text spells. -/
inductive Spelled : List Char → Float → Prop
  | plain {cs : List Char} {x : Float} (h : Unsigned cs x) : Spelled cs x
  | plus {cs : List Char} {x : Float} (h : Unsigned cs x) : Spelled ('+' :: cs) x
  | minus {cs : List Char} {x : Float} (h : Unsigned cs x) : Spelled ('-' :: cs) (-x)

/-! ## First characters -/

theorem DecimalDigits.digits_ne_nil {front : List Char} {numeral : Numeral}
    (h : DecimalDigits front numeral) : numeral.digits ≠ [] := by
  cases h with
  | whole h => exact h.ne_nil
  | pointed _ _ h => exact h

/-- What stands behind the digits starts with neither a digit nor a point. -/
theorem DecimalExponent.head {back : List Char} {e : Int} (h : DecimalExponent back e) :
    ∀ c ∈ back.head?, isDigit c = false ∧ c ≠ '.' := by
  cases h with
  | none => exact fun c hc => by cases hc
  | some hc _ =>
    rintro c ⟨⟩
    rcases hc with rfl | rfl <;> decide

/-- Only letters fold to letters. -/
theorem le_of_toLower {c a : Char} (h : c.toLower = a) (ha : 'a' ≤ a) : 'A' ≤ c := by
  by_contra hc
  have hsmall : ¬ c.val ≥ 'A'.val := hc
  have hsame : c.toLower = c := by
    unfold Char.toLower
    rw [dif_neg fun h => hsmall h.1]
  rw [hsame] at h
  subst h
  exact hc (le_trans (by decide) ha)

theorem folded_head {cs : List Char}
    (h : folded cs = "inf" ∨ folded cs = "infinity" ∨ folded cs = "nan") :
    ∃ c rest, cs = c :: rest ∧ 'A' ≤ c := by
  cases cs with
  | nil => exact absurd h (by decide)
  | cons c rest =>
    refine ⟨c, rest, rfl, le_of_toLower rfl ?_⟩
    have hfolded : (folded (c :: rest)).toList.head? = some c.toLower := by simp [folded]
    rcases h with h | h | h
    all_goals
      rw [h] at hfolded
      obtain hc := Option.some.inj hfolded
      rw [← hc]
      decide

/-- Digits, points and signs come before all letters. -/
theorem not_letter {c : Char} (h : 'A' ≤ c) :
    isDigit c = false ∧ c ≠ '.' ∧ c ≠ '+' ∧ c ≠ '-' := by
  refine ⟨?_, ?_, ?_, ?_⟩
  · rw [isDigit, Bool.and_eq_false_iff]
    exact .inr (decide_eq_false (not_le.2 (lt_of_lt_of_le (by decide) h)))
  all_goals
    rintro rfl
    exact absurd h (by decide)

theorem not_sign {c : Char} (h : isDigit c ∨ c = '.') : c ≠ '+' ∧ c ≠ '-' := by
  constructor <;> rintro rfl <;> exact absurd h (by decide)

theorem DecimalDigits.head {front : List Char} {numeral : Numeral}
    (h : DecimalDigits front numeral) (back : List Char) :
    ∀ c ∈ (front ++ back).head?, isDigit c ∨ c = '.' := by
  intro c hc
  cases h with
  | whole h =>
    rw [List.head?_append_of_ne_nil _ h.ne_nil] at hc
    exact .inl (h.digits c (List.mem_of_mem_head? hc))
  | @pointed ds fs hd hf h =>
    cases ds with
    | nil => exact .inr (Option.some.inj hc).symm
    | cons d ds =>
      obtain rfl : d = c := Option.some.inj hc
      exact .inl (hd d List.mem_cons_self)

/-- What has no sign is not read as if it had one. -/
theorem Unsigned.splitSign_eq {cs : List Char} {x : Float} (h : Unsigned cs x) :
    splitSign cs = (false, cs) := by
  refine splitSign_of_head fun c hc => ?_
  have hword : (folded cs = "inf" ∨ folded cs = "infinity" ∨ folded cs = "nan") →
      c ≠ '+' ∧ c ≠ '-' := by
    intro hw
    obtain ⟨d, rest, rfl, hd⟩ := folded_head hw
    obtain rfl : d = c := Option.some.inj hc
    exact (not_letter hd).2.2
  cases h with
  | decimal h =>
    obtain ⟨hd, -⟩ := h
    exact not_sign (hd.head _ c hc)
  | infinity h => exact hword (h.imp_right .inl)
  | notANumber h => exact hword (.inr (.inr h))

/-! ## Reading -/

theorem takeWhile_digits {ds back : List Char} (hd : ∀ c ∈ ds, isDigit c)
    (hb : ∀ c ∈ back.head?, isDigit c = false) :
    (ds ++ back).takeWhile isDigit = ds ∧ (ds ++ back).dropWhile isDigit = back := by
  rw [List.takeWhile_append_of_pos hd, List.dropWhile_append_of_pos hd]
  cases back with
  | nil => simp
  | cons c back => simp [hb c rfl]

/-- The digits of a decimal are cut off as far as they go. -/
theorem DecimalDigits.splitNumeral_eq {front back : List Char} {numeral : Numeral}
    (h : DecimalDigits front numeral) (hb : ∀ c ∈ back.head?, isDigit c = false ∧ c ≠ '.') :
    splitNumeral (front ++ back) = (numeral, back) := by
  have hb' : ∀ c ∈ back.head?, isDigit c = false := fun c hc => (hb c hc).1
  unfold splitNumeral
  cases h with
  | whole h =>
    obtain ⟨htake, hdrop⟩ := takeWhile_digits h.digits hb'
    simp only [htake, hdrop]
    split
    · exact absurd rfl (hb '.' rfl).2
    · rfl
  | @pointed ds fs hd hf h =>
    have hpoint : ∀ c ∈ ('.' :: (fs ++ back)).head?, isDigit c = false := by
      rintro c ⟨⟩
      decide
    obtain ⟨htake, hdrop⟩ := takeWhile_digits hd hpoint
    obtain ⟨htake', hdrop'⟩ := takeWhile_digits hf hb'
    rw [List.append_assoc, List.cons_append]
    simp only [htake, hdrop, htake', hdrop']

/-- What is cut off are the digits of a decimal, if there are any. -/
theorem decimalDigits_of_splitNumeral {cs : List Char} (h : (splitNumeral cs).1.digits ≠ []) :
    ∃ front, cs = front ++ (splitNumeral cs).2 ∧ DecimalDigits front (splitNumeral cs).1 := by
  have hcut := (List.takeWhile_append_dropWhile (p := isDigit) (l := cs)).symm
  have hdigits : ∀ l : List Char, ∀ c ∈ l.takeWhile isDigit, isDigit c :=
    fun l c hc => List.mem_takeWhile_imp hc
  unfold splitNumeral at h ⊢
  dsimp only at h ⊢
  split at h
  · rename_i rest hrest
    have hcut' := (List.takeWhile_append_dropWhile (p := isDigit) (l := rest)).symm
    refine ⟨cs.takeWhile isDigit ++ '.' :: rest.takeWhile isDigit, ?_,
      .pointed (hdigits cs) (hdigits rest) h⟩
    rw [List.append_assoc, List.cons_append, ← hcut', ← hrest, ← hcut]
  · exact ⟨cs.takeWhile isDigit, hcut, .whole ⟨h, hdigits cs⟩⟩

theorem readExponent?_eq_some_iff {cs : List Char} {e : Int} :
    readExponent? cs = some e ↔ DecimalExponent cs e := by
  cases cs with
  | nil =>
    constructor
    · rintro ⟨⟩
      exact .none
    · rintro ⟨⟩
      rfl
  | cons c cs =>
    show (if c = 'e' ∨ c = 'E' then readInteger? cs else none) = some e ↔ _
    by_cases hc : c = 'e' ∨ c = 'E'
    · rw [if_pos hc, readInteger?_eq_some_iff]
      exact ⟨.some hc, fun h => by cases h; assumption⟩
    · rw [if_neg hc]
      exact ⟨nofun, fun h => by cases h; contradiction⟩

theorem readWord?_eq_some_iff {cs : List Char} {x : Float} : readWord? cs = some x ↔
    (folded cs = "inf" ∨ folded cs = "infinity") ∧ x = 1.0 / 0.0 ∨
      folded cs = "nan" ∧ x = 0.0 / 0.0 := by
  show (if folded cs = "inf" ∨ folded cs = "infinity" then some (1.0 / 0.0)
    else if folded cs = "nan" then some (0.0 / 0.0) else none) = some x ↔ _
  by_cases hinf : folded cs = "inf" ∨ folded cs = "infinity"
  · have hnan : folded cs ≠ "nan" := by
      rintro h
      rw [h] at hinf
      exact absurd hinf (by decide)
    rw [if_pos hinf, Option.some.injEq, eq_comm]
    exact ⟨fun h => .inl ⟨hinf, h⟩, fun h => (h.resolve_right fun h => hnan h.1).2⟩
  · rw [if_neg hinf]
    by_cases hnan : folded cs = "nan"
    · rw [if_pos hnan, Option.some.injEq, eq_comm]
      exact ⟨fun h => .inr ⟨hnan, h⟩, fun h => (h.resolve_left fun h => hinf h.1).2⟩
    · rw [if_neg hnan]
      refine ⟨nofun, fun h => ?_⟩
      rcases h with h | h
      · exact absurd h.1 hinf
      · exact absurd h.1 hnan

/-- There are no digits to cut off before a letter. -/
theorem splitNumeral_letter {c : Char} (hc : 'A' ≤ c) (rest : List Char) :
    (splitNumeral (c :: rest)).1.digits = [] := by
  obtain ⟨hdigit, hpoint, -⟩ := not_letter hc
  unfold splitNumeral
  rw [List.takeWhile_cons_of_neg (by simp [hdigit]), List.dropWhile_cons_of_neg (by simp [hdigit])]
  dsimp only
  split
  · rename_i heq
    exact absurd (List.cons.inj heq).1 hpoint
  · rfl

theorem readUnsigned?_eq_some_iff {cs : List Char} {x : Float} :
    readUnsigned? cs = some x ↔ Unsigned cs x := by
  have hword : (folded cs = "inf" ∨ folded cs = "infinity" ∨ folded cs = "nan") →
      readUnsigned? cs = readWord? cs := by
    intro h
    obtain ⟨c, rest, rfl, hc⟩ := folded_head h
    unfold readUnsigned?
    dsimp only
    rw [if_pos (by rw [splitNumeral_letter hc]; rfl)]
  constructor
  · intro h
    unfold readUnsigned? at h
    dsimp only at h
    split at h
    · obtain ⟨hw, rfl⟩ | ⟨hw, rfl⟩ := readWord?_eq_some_iff.1 h
      · exact .infinity hw
      · exact .notANumber hw
    · rename_i hne
      obtain ⟨e, he, rfl⟩ := Option.map_eq_some_iff.1 h
      obtain ⟨front, hcs, hd⟩ := decimalDigits_of_splitNumeral (by simpa using hne)
      have hdecimal := IsDecimal.mk hd (readExponent?_eq_some_iff.1 he)
      rw [← hcs] at hdecimal
      exact .decimal hdecimal
  · intro h
    cases h with
    | decimal h =>
      obtain ⟨hd, he⟩ := h
      unfold readUnsigned?
      rw [hd.splitNumeral_eq he.head]
      dsimp only
      rw [if_neg (by simpa using hd.digits_ne_nil), readExponent?_eq_some_iff.2 he]
      rfl
    | infinity h =>
      rw [hword (h.imp_right .inl)]
      exact readWord?_eq_some_iff.2 (.inl ⟨h, rfl⟩)
    | notANumber h =>
      rw [hword (.inr (.inr h))]
      exact readWord?_eq_some_iff.2 (.inr ⟨h, rfl⟩)

/-- A text is read exactly if it spells a float, and as this float. -/
theorem read?_eq_some_iff {cs : List Char} {x : Float} : read? cs = some x ↔ Spelled cs x := by
  have hread : read? cs = (readUnsigned? (splitSign cs).2).map fun y =>
    if (splitSign cs).1 then -y else y := rfl
  constructor
  · intro h
    rw [hread] at h
    obtain ⟨y, hy, rfl⟩ := Option.map_eq_some_iff.1 h
    rw [readUnsigned?_eq_some_iff] at hy
    clear h hread
    unfold splitSign at hy ⊢
    split at hy
    · exact .minus hy
    · exact .plus hy
    · exact .plain hy
  · intro h
    rw [hread]
    cases h with
    | plain h =>
      rw [h.splitSign_eq]
      exact Option.map_eq_some_iff.2 ⟨x, readUnsigned?_eq_some_iff.2 h, rfl⟩
    | plus h => exact Option.map_eq_some_iff.2 ⟨x, readUnsigned?_eq_some_iff.2 h, rfl⟩
    | @minus _ y h => exact Option.map_eq_some_iff.2 ⟨y, readUnsigned?_eq_some_iff.2 h, rfl⟩

/-! ## Rounding -/

/-- What binary64 makes of a number that is not negative: the nearest float, a tie going to the even
one, or infinity from half a unit beyond the largest float on. -/
structure IsFloatOf (q : Rat) (x : Float) : Prop where
  nearest : q < largest + 2 ^ (970 : Int) → x.isFinite ∧ Nearest q (value x)
  infinite : largest + 2 ^ (970 : Int) ≤ q → x.toModel.unpack = .infinity .positive

theorem IsFloatOf.of_rounded {q : Rat} {x : Float} (hq : 0 ≤ q) (h : Rounded q x) :
    IsFloatOf q x :=
  ⟨fun hlt => h.isFinite (by rwa [abs_of_nonneg hq]), h.infinite⟩

/-- A decimal that is not zero is far beyond the largest float if its exponent is as large as
this. -/
theorem large_of_exponent {m : Nat} (hm : 0 < m) {e : Int} (he : 2048 < e) :
    largest + 2 ^ (970 : Int) < m * 10 ^ e := by
  have hm' : (1 : Rat) ≤ m := by exact_mod_cast hm
  have hpos : (0 : Rat) < 2 ^ (970 : Int) := by positivity
  have hunit := largest_add_unit
  obtain ⟨k, rfl⟩ := Int.eq_ofNat_of_zero_le (by omega : 0 ≤ e)
  rw [zpow_natCast]
  calc largest + 2 ^ (970 : Int) < 2 ^ (1024 : Int) := by
        rw [hunit]
        exact lt_add_of_pos_right _ hpos
    _ ≤ 2 ^ (k : Int) := zpow_le_zpow_right₀ one_le_two (by omega)
    _ = 2 ^ k := zpow_natCast ..
    _ ≤ 10 ^ k := pow_le_pow_left₀ (by norm_num) (by norm_num) k
    _ ≤ m * 10 ^ k := le_mul_of_one_le_left (by positivity) hm'

/-- A decimal is rounded once, whatever its length. -/
theorem ofDecimal_isFloatOf (m : Nat) (e : Int) : IsFloatOf (m * 10 ^ e) (ofDecimal m e) := by
  obtain ⟨minus, k, hx, he⟩ : ∃ minus k, ofDecimal m e = Float.ofScientific m minus k ∧
      signedExponent minus k = e := by
    unfold ofDecimal
    by_cases h : 0 ≤ e
    · exact ⟨false, e.toNat, if_pos h, Int.toNat_of_nonneg h⟩
    · refine ⟨true, (-e).toNat, if_neg h, ?_⟩
      show -((-e).toNat : Int) = e
      omega
  rw [hx, ← he]
  by_cases h : m = 0 ∨ signedExponent minus k ≤ 2048
  · exact .of_rounded (by positivity) (ofScientific_rounded h)
  · obtain ⟨hm, hlarge⟩ := not_or.1 h
    have hlt := large_of_exponent (Nat.pos_of_ne_zero hm) (not_le.1 hlarge)
    refine ⟨fun h => absurd h (not_lt.2 hlt.le), fun _ => ?_⟩
    rw [ofScientific_infinite hm (not_le.1 hlarge)]
    rfl

theorem not_isFinite_infinity : ¬ (1.0 / 0.0 : Float).isFinite := by
  have h : (1.0 / 0.0 : Float).toModel.unpack.isFinite = false := rfl
  exact fun hfin => Bool.false_ne_true (h.symm.trans hfin)

/-- A finite number is read from a decimal only. -/
theorem Unsigned.exists_decimal {cs : List Char} {x : Float} (h : Unsigned cs x)
    (hx : x.isFinite) : ∃ m e, IsDecimal cs m e ∧ x = ofDecimal m e ∧
      (m : Rat) * 10 ^ e < largest + 2 ^ (970 : Int) := by
  cases h with
  | @decimal m e h =>
    refine ⟨m, e, h, rfl, ?_⟩
    by_contra hlarge
    have hinf := (ofDecimal_isFloatOf m e).infinite (not_lt.1 hlarge)
    have hx' : (ofDecimal m e).toModel.unpack.isFinite = true := hx
    rw [hinf] at hx'
    cases hx'
  | infinity _ => exact absurd hx not_isFinite_infinity
  | notANumber _ => exact absurd hx not_isFinite_nan

/-- It is not below zero, and zero only if it is at most half of the smallest float. -/
theorem value_ofDecimal {m : Nat} {e : Int}
    (h : (m : Rat) * 10 ^ e < largest + 2 ^ (970 : Int)) :
    0 ≤ value (ofDecimal m e) ∧
      (value (ofDecimal m e) = 0 ↔ 2 * ((m : Rat) * 10 ^ e) ≤ 2 ^ (-1074 : Int)) := by
  obtain ⟨-, hnear⟩ := (ofDecimal_isFloatOf m e).nearest h
  have hq : (0 : Rat) ≤ m * 10 ^ e := by positivity
  have hzero := hnear.eq_zero_iff
  rw [abs_of_nonneg hq] at hzero
  exact ⟨hnear.nonneg hq, hzero⟩

theorem Unsigned.value_nonneg {cs : List Char} {x : Float} (h : Unsigned cs x)
    (hx : x.isFinite) : 0 ≤ value x := by
  obtain ⟨m, e, -, rfl, hlt⟩ := h.exists_decimal hx
  exact (value_ofDecimal hlt).1

/-- The number is above half of the smallest float, and less than half a unit beyond the largest. -/
def InFloatRange (q : Rat) : Prop :=
  2 ^ (-1074 : Int) < 2 * q ∧ q < largest + 2 ^ (970 : Int)

/-- A text without a sign is read as a finite float above zero exactly if it is a decimal whose
number is in the range of floats. -/
theorem unsigned_pos_iff {cs : List Char} {x : Float} :
    Unsigned cs x ∧ x.isFinite ∧ 0 < value x ↔
      ∃ m e, IsDecimal cs m e ∧ InFloatRange (m * 10 ^ e) ∧ x = ofDecimal m e := by
  constructor
  · rintro ⟨h, hx, h0⟩
    obtain ⟨m, e, hd, rfl, hlt⟩ := h.exists_decimal hx
    refine ⟨m, e, hd, ⟨not_le.1 fun hsmall => ?_, hlt⟩, rfl⟩
    exact h0.ne' ((value_ofDecimal hlt).2.2 hsmall)
  · rintro ⟨m, e, hd, ⟨hlarge, hlt⟩, rfl⟩
    obtain ⟨hnonneg, hzero⟩ := value_ofDecimal hlt
    refine ⟨.decimal hd, ((ofDecimal_isFloatOf m e).nearest hlt).1, hnonneg.lt_of_ne' ?_⟩
    exact fun h0 => absurd (hzero.1 h0) (not_le.2 hlarge)

end TurtleGraphics.Decimal
