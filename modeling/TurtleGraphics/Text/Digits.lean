/-!
# Reading whole numbers

A run of ASCII digits has a value; a whole number is such a run with at most one sign in front,
and it is read only if it fits in 64 bits.
-/

set_option autoImplicit false

namespace TurtleGraphics.Text

def isDigit (c : Char) : Bool := '0' ≤ c && c ≤ '9'

/-- The value of a run of digits, the most significant first. -/
def digitsValue (ds : List Char) : Nat :=
  ds.foldl (fun v d => 10 * v + (d.toNat - '0'.toNat)) 0

/-- The value of a text made of at least one digit and nothing else. -/
def readDigits? (cs : List Char) : Option Nat :=
  if !cs.isEmpty && cs.all isDigit then some (digitsValue cs) else none

/-- The sign in front of a number, `true` for minus, and the rest. -/
def splitSign : List Char → Bool × List Char
  | '-' :: cs => (true, cs)
  | '+' :: cs => (false, cs)
  | cs => (false, cs)

/-- An optional sign and digits. -/
def readInteger? (cs : List Char) : Option Int :=
  let (minus, ds) := splitSign cs
  (readDigits? ds).map fun n => if minus then -(n : Int) else n

/-- The whole numbers of 64 bits are those from `-2 ^ 63` to `2 ^ 63 - 1`. -/
def FitsInt64 (n : Int) : Prop := -9223372036854775808 ≤ n ∧ n ≤ 9223372036854775807

instance (n : Int) : Decidable (FitsInt64 n) := by unfold FitsInt64; infer_instance

/-- A whole number of 64 bits. -/
def readInt64? (cs : List Char) : Option Int64 :=
  match readInteger? cs with
  | some n => if FitsInt64 n then some (Int64.ofInt n) else none
  | none => none

/-! ## Facts about reading -/

theorem readDigits?_eq_some_iff {cs : List Char} {n : Nat} :
    readDigits? cs = some n ↔ cs ≠ [] ∧ (∀ c ∈ cs, isDigit c) ∧ n = digitsValue cs := by
  by_cases h : !cs.isEmpty && cs.all isDigit
  · rw [readDigits?, if_pos h, Option.some.injEq, @eq_comm Nat n]
    simp_all
  · rw [readDigits?, if_neg h]
    grind [List.isEmpty_iff, List.all_eq_true]

theorem toInt_ofInt {n : Int} (h : FitsInt64 n) : (Int64.ofInt n).toInt = n :=
  Int64.toInt_ofInt_of_le h.1 (Int.lt_of_le_of_lt h.2 (by decide))

theorem toInt_of_readInt64?_eq_some {cs : List Char} {v : Int64} (h : readInt64? cs = some v) :
    readInteger? cs = some v.toInt := by
  unfold readInt64? at h
  split at h
  · rename_i n hn
    split at h
    · rename_i hb
      cases h
      rw [hn, toInt_ofInt hb]
    · simp at h
  · simp at h

end TurtleGraphics.Text
