import TurtleGraphics.Proofs.Script.Codec

/-!
# Line feeds in written lines

Nothing marks a line feed inside a written line, so the file reads as more lines than were written:
a trimmed line with a line feed in it is read as at least two (`two_le_length_ofText`). Trimmed
lines come back as they were written exactly if none of them holds a line feed
(`ofText_textOf_iff`).
-/

set_option autoImplicit false

namespace TurtleGraphics.Script

/-! ## One line -/

/-- Lines that are not all blank leave a line when they are trimmed. -/
theorem trimmed_ne_nil {lines : List (List Char)} {cs : List Char} (hm : cs ∈ lines) {c : Char}
    (hc : c ∈ cs) (hb : Text.isBlank c = false) : trimmed lines ≠ [] := by
  have hcs : Text.trimBoth cs ≠ [] := by
    intro he
    have := Text.trimBoth_eq_nil_iff.1 he c hc
    simp [hb] at this
  refine List.ne_nil_of_mem (a := String.ofList (Text.trimBoth cs)) ?_
  simp only [trimmed, List.mem_filter, List.mem_map]
  refine ⟨⟨cs, hm, rfl⟩, ?_⟩
  simpa using hcs

/-- A text that is not all blank holds a line. -/
theorem ofText_ne_nil {text : String} {c : Char} (hc : c ∈ text.toList)
    (hb : Text.isBlank c = false) : (ofText text).lines ≠ [] := by
  have hlf : decide (c = '\n') = false := by
    rw [decide_eq_false_iff_not]
    rintro rfl
    exact absurd hb (by decide)
  obtain ⟨q, hq, hcq⟩ := Text.exists_mem_pieces (p := (· = '\n')) hc hlf
  exact trimmed_ne_nil hq hcq hb

/-- A line feed inside a trimmed line ends a line and starts another. -/
theorem two_le_length_ofText {line : String} (ht : Text.trim line = line)
    (hlf : '\n' ∈ line.toList) : 2 ≤ (ofText line).lines.length := by
  obtain ⟨front, back, hl⟩ := List.append_of_mem hlf
  have hto : Text.trimBoth (front ++ '\n' :: back) = front ++ '\n' :: back := by
    rw [← hl, ← Text.toList_trim, ht]
  obtain ⟨⟨c, hc, hcb⟩, d, hd, hdb⟩ := Text.exists_around_blank (by decide) hto
  have hcut : (ofText line).lines =
      (ofText (String.ofList front)).lines ++ (ofText (String.ofList back)).lines := by
    simp only [ofText, String.toList_ofList]
    rw [hl, Text.pieces_append_cons (by simp), trimmed_append]
  have hf : (ofText (String.ofList front)).lines ≠ [] := ofText_ne_nil (by simpa using hc) hcb
  have hb : (ofText (String.ofList back)).lines ≠ [] := ofText_ne_nil (by simpa using hd) hdb
  rw [hcut, List.length_append]
  have := List.length_pos_iff.2 hf
  have := List.length_pos_iff.2 hb
  omega

/-! ## Many lines -/

theorem length_le_length_flatMap {α β : Type} {f : α → List β} {l : List α}
    (h : ∀ x ∈ l, f x ≠ []) : l.length ≤ (l.flatMap f).length := by
  induction l with
  | nil => simp
  | cons x l ih =>
    have hx := List.length_pos_iff.2 (h x (.head _))
    have hl := ih fun y hy => h y (.tail _ hy)
    rw [List.flatMap_cons, List.length_append, List.length_cons]
    omega

/-- Trimmed lines, none of them blank, read as more lines if a line feed is in one of them. -/
theorem length_lt_length_ofText {lines : List String} (ht : ∀ l ∈ lines, Text.trim l = l)
    (hne : ∀ l ∈ lines, l ≠ "") {line : String} (hm : line ∈ lines) (hlf : '\n' ∈ line.toList) :
    lines.length < (ofText (textOf lines)).lines.length := by
  have hsome : ∀ l ∈ lines, (ofText l).lines ≠ [] := by
    intro l hl he
    by_cases h : '\n' ∈ l.toList
    · have := two_le_length_ofText (ht l hl) h
      simp [he] at this
    · have := (IsLine.mk (ht l hl) (hne l hl) h).ofText_eq
      simp [this] at he
  obtain ⟨front, back, rfl⟩ := List.append_of_mem hm
  have hline := two_le_length_ofText (ht line hm) hlf
  have hfront := length_le_length_flatMap (f := fun l => (ofText l).lines) (l := front)
    fun l hl => hsome l (by simp [hl])
  have hback := length_le_length_flatMap (f := fun l => (ofText l).lines) (l := back)
    fun l hl => hsome l (by simp [hl])
  rw [ofText_textOf_eq ht hne]
  simp only [List.flatMap_append, List.flatMap_cons, List.length_append, List.length_cons]
  omega

/-- Trimmed lines, none of them blank, are read back exactly if each is a single line. -/
theorem ofText_textOf_iff {lines : List String} (ht : ∀ l ∈ lines, Text.trim l = l)
    (hne : ∀ l ∈ lines, l ≠ "") :
    ofText (textOf lines) = ⟨lines⟩ ↔ ∀ l ∈ lines, '\n' ∉ l.toList := by
  constructor
  · intro h l hl hlf
    have := length_lt_length_ofText ht hne hl hlf
    rw [h] at this
    exact lt_irrefl _ this
  · intro h
    exact ofText_textOf fun l hl => ⟨ht l hl, hne l hl, h l hl⟩

end TurtleGraphics.Script
