import TurtleGraphics.Proofs.Text.Cutting
import TurtleGraphics.Text.Digits

/-!
# Words and whole numbers

The words of a text are its runs without blanks, cut off one after the other (`words_append`); a
text of one word is that word between blanks (`trimBoth_of_words`). What is read as a whole number
is an optional sign and a run of digits (`readInteger?_eq_some_iff`), and as one of 64 bits if its
value is one (`readInt64?_eq_some_iff`).
-/

set_option autoImplicit false

namespace TurtleGraphics.Text

/-! ## Words -/

theorem words_eq_filter (cs : List Char) :
    words cs = (cs.splitOnP isBlank).filter fun w => !w.isEmpty := by
  rw [words, pieces_eq_splitOnP]

theorem words_cons_blank {c : Char} (hc : isBlank c) (cs : List Char) :
    words (c :: cs) = words cs := by
  rw [words, ← List.nil_append (c :: cs), pieces_append_cons hc]
  rfl

theorem words_trimStart (cs : List Char) : words (trimStart cs) = words cs := by
  induction cs with
  | nil => rfl
  | cons c cs ih =>
    by_cases hc : isBlank c
    · rw [words_cons_blank hc, ← ih, trimStart, List.dropWhile_cons_of_pos hc, trimStart]
    · rw [trimStart, List.dropWhile_cons_of_neg hc]

/-- A run without blanks, up to a blank or to the end, is the first word. -/
theorem words_append {w rest : List Char} (hw : w ≠ []) (hb : ∀ c ∈ w, isBlank c = false)
    (hr : ∀ c ∈ rest.head?, isBlank c) : words (w ++ rest) = w :: words rest := by
  have hne : (!w.isEmpty) = true := by simpa using hw
  cases rest with
  | nil =>
    rw [List.append_nil, words, pieces_eq_singleton hb]
    simp [hw, words, pieces]
  | cons c rest =>
    have hc : isBlank c := hr c rfl
    rw [words_cons_blank hc, words, pieces_append_cons hc, pieces_eq_singleton hb]
    simp [hw, words]

/-- A text is cut at its first blank, if it has one. -/
theorem splitFirst_spec (cs : List Char) : (∀ c ∈ (splitFirst cs).1, isBlank c = false) ∧
    ∀ c ∈ (splitFirst cs).2.head?, isBlank c := by
  constructor
  · intro c hc
    simpa using List.mem_takeWhile_imp hc
  · intro c hc
    have := List.head?_dropWhile_not (fun c => !isBlank c) cs
    rw [splitFirst] at hc
    dsimp only at hc
    rw [Option.mem_def] at hc
    rw [hc] at this
    simpa using this

/-- A run without blanks, up to a blank or to the end, is what is cut off. -/
theorem splitFirst_eq {w rest : List Char} (hw : ∀ c ∈ w, isBlank c = false)
    (hr : ∀ c ∈ rest.head?, isBlank c) : splitFirst (w ++ rest) = (w, rest) := by
  have hall : ∀ c ∈ w, (!isBlank c) = true := fun c hc => by simp [hw c hc]
  rw [splitFirst, List.takeWhile_append_of_pos hall, List.dropWhile_append_of_pos hall]
  cases rest with
  | nil => simp
  | cons c rest => simp [hr c rfl]

/-- A text that starts with no blank starts with a word, unless it is empty. -/
theorem splitFirst_ne_nil {cs : List Char} (hne : cs ≠ [])
    (hs : ∀ c ∈ cs.head?, isBlank c = false) : (splitFirst cs).1 ≠ [] := by
  cases cs with
  | nil => exact absurd rfl hne
  | cons c cs => simp [splitFirst, hs c rfl]

/-- What is not blank starts with a word once its front is trimmed. -/
theorem exists_first_word {cs : List Char} (h : trimStart cs ≠ []) :
    ∃ w rest, trimStart cs = w ++ rest ∧ w ≠ [] ∧ (∀ c ∈ w, isBlank c = false) ∧
      words cs = w :: words rest := by
  obtain ⟨hw, hr⟩ := splitFirst_spec (trimStart cs)
  have happend := splitFirst_append (trimStart cs)
  have hne := splitFirst_ne_nil h (head?_trimStart cs)
  refine ⟨_, _, happend.symm, hne, hw, ?_⟩
  rw [← words_trimStart, ← words_append hne hw hr, happend]

theorem words_eq_nil_iff {cs : List Char} : words cs = [] ↔ ∀ c ∈ cs, isBlank c := by
  rw [← List.dropWhile_eq_nil_iff]
  constructor
  · intro h
    by_contra hne
    obtain ⟨w, rest, -, -, -, hwords⟩ := @exists_first_word cs hne
    rw [h] at hwords
    cases hwords
  · intro h
    rw [← words_trimStart, trimStart, h]
    rfl

/-- A text of one word is that word between blanks. -/
theorem trimBoth_of_words {cs w : List Char} (h : words cs = [w]) : trimBoth cs = w := by
  have hne : trimStart cs ≠ [] := by
    intro h0
    rw [← words_trimStart, h0] at h
    cases h
  obtain ⟨w', rest, hcut, hw', hb, hwords⟩ := exists_first_word hne
  rw [h] at hwords
  obtain ⟨rfl, hrest⟩ := List.cons.inj hwords
  have hblank := words_eq_nil_iff.1 hrest.symm
  have hlast : ∀ hl : w ≠ [], ¬ isBlank (w.getLast hl) := fun hl => by
    simp [hb _ (List.getLast_mem hl)]
  rw [trimBoth, hcut, trimEnd, List.reverse_append,
    List.dropWhile_append_of_pos (by simpa using hblank)]
  exact List.rdropWhile_eq_self_iff.2 hlast

/-! ## Whole numbers -/

/-- A run of at least one ASCII digit. -/
structure DigitRun (cs : List Char) : Prop where
  ne_nil : cs ≠ []
  digits : ∀ c ∈ cs, isDigit c

/-- An optional sign and a run of digits, with the whole number that they spell. -/
inductive SignedDigits : List Char → Int → Prop
  | plain {ds : List Char} (h : DigitRun ds) : SignedDigits ds (digitsValue ds)
  | plus {ds : List Char} (h : DigitRun ds) : SignedDigits ('+' :: ds) (digitsValue ds)
  | minus {ds : List Char} (h : DigitRun ds) : SignedDigits ('-' :: ds) (-(digitsValue ds : Int))

theorem readDigits?_eq_some {ds : List Char} {n : Nat} :
    readDigits? ds = some n ↔ DigitRun ds ∧ n = digitsValue ds := by
  rw [readDigits?_eq_some_iff]
  exact ⟨fun ⟨h1, h2, h3⟩ => ⟨⟨h1, h2⟩, h3⟩, fun ⟨⟨h1, h2⟩, h3⟩ => ⟨h1, h2, h3⟩⟩

theorem splitSign_of_head {cs : List Char} (h : ∀ c ∈ cs.head?, c ≠ '+' ∧ c ≠ '-') :
    splitSign cs = (false, cs) := by
  unfold splitSign
  split
  · exact absurd rfl (h '-' rfl).2
  · exact absurd rfl (h '+' rfl).1
  · rfl

theorem DigitRun.splitSign {ds : List Char} (h : DigitRun ds) : splitSign ds = (false, ds) := by
  refine splitSign_of_head fun c hc => ?_
  have hd := h.digits c (List.mem_of_mem_head? hc)
  constructor <;> rintro rfl <;> exact absurd hd (by decide)

theorem readInteger?_eq_some_iff {cs : List Char} {n : Int} :
    readInteger? cs = some n ↔ SignedDigits cs n := by
  constructor
  · intro h
    unfold readInteger? at h
    dsimp only at h
    cases hk : readDigits? (Text.splitSign cs).2 with
    | none => simp [hk] at h
    | some k =>
      obtain ⟨hrun, rfl⟩ := readDigits?_eq_some.1 hk
      obtain rfl : (if (Text.splitSign cs).1 then -(digitsValue (Text.splitSign cs).2 : Int)
          else digitsValue (Text.splitSign cs).2) = n := by simpa [hk] using h
      clear h hk
      unfold Text.splitSign at hrun ⊢
      split at hrun
      · exact .minus hrun
      · exact .plus hrun
      · exact .plain hrun
  · intro h
    cases h with
    | plain h => simp [readInteger?, h.splitSign, readDigits?_eq_some.2 ⟨h, rfl⟩]
    | plus h => simp [readInteger?, Text.splitSign, readDigits?_eq_some.2 ⟨h, rfl⟩]
    | minus h => simp [readInteger?, Text.splitSign, readDigits?_eq_some.2 ⟨h, rfl⟩]

/-- The text spells a whole number of 64 bits. -/
def Spells (cs : List Char) (v : Int64) : Prop := SignedDigits cs v.toInt

theorem readInt64?_eq_some_iff {cs : List Char} {v : Int64} :
    readInt64? cs = some v ↔ Spells cs v := by
  constructor
  · intro h
    exact readInteger?_eq_some_iff.1 (toInt_of_readInt64?_eq_some h)
  · intro h
    have hfits : FitsInt64 v.toInt := ⟨v.le_toInt, by have := v.toInt_lt; omega⟩
    unfold readInt64?
    rw [readInteger?_eq_some_iff.2 h]
    simp only [if_pos hfits, Int64.ofInt_toInt]

end TurtleGraphics.Text
