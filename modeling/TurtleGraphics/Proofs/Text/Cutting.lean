import Mathlib.Data.List.DropRight
import TurtleGraphics.Text.Blank

/-!
# Trimming and cutting

Trimming twice is trimming once (`trimBoth_trimBoth`), and it adds no character
(`mem_of_mem_trimBoth`). Of blanks and a text that does not start or end with one, trimming leaves
the text (`trimStart_append`, `trimEnd_append`). A blank inside a trimmed text has other characters
on both sides (`exists_around_blank`). The pieces of a text are the library's `List.splitOnP`
(`pieces_eq_splitOnP`): no piece holds a divider (`eq_false_of_mem_pieces`), every other character
is in some piece (`exists_mem_pieces`), and a list written with a divider behind each member is cut
into the pieces of its members and one empty piece (`pieces_flatMap_append`). A list can be cut
before or after it is written in another alphabet, if that has dividers for dividers only
(`pieces_flatMap`).
-/

set_option autoImplicit false

namespace TurtleGraphics.Text

/-! ## Trimming -/

/-- What starts with no blank still does so once its end is trimmed. -/
theorem trimStart_trimEnd {cs : List Char} (h : trimStart cs = cs) :
    trimStart (trimEnd cs) = trimEnd cs := by
  obtain ⟨behind, hb⟩ : trimEnd cs <+: cs := List.rdropWhile_prefix isBlank cs
  cases he : trimEnd cs with
  | nil => rfl
  | cons c rest =>
    rw [he] at hb
    have hc : ¬ isBlank c := by
      intro hc
      rw [← hb] at h
      have hl := congrArg List.length h
      have := List.length_dropWhile_le isBlank (rest ++ behind)
      simp only [trimStart, List.cons_append, List.dropWhile_cons, hc, if_true,
        List.length_cons] at hl
      omega
    simp [trimStart, hc]

theorem trimBoth_trimBoth (cs : List Char) : trimBoth (trimBoth cs) = trimBoth cs := by
  unfold trimBoth
  rw [trimStart_trimEnd (trimStart_trimStart cs), trimEnd_trimEnd]

theorem mem_of_mem_trimBoth {c : Char} {cs : List Char} (h : c ∈ trimBoth cs) : c ∈ cs := by
  have h' : c ∈ trimStart cs := (List.rdropWhile_prefix isBlank _).subset h
  exact (List.dropWhile_sublist isBlank).subset h'

@[simp] theorem toList_trim (s : String) : (trim s).toList = trimBoth s.toList := by
  simp [trim]

theorem trim_trim (s : String) : trim (trim s) = trim s := by
  rw [trim, toList_trim, trimBoth_trimBoth]; rfl

theorem trimBoth_eq_nil_iff {cs : List Char} : trimBoth cs = [] ↔ ∀ c ∈ cs, isBlank c := by
  have he : trimBoth cs = (trimStart cs).rdropWhile isBlank := rfl
  rw [he, List.rdropWhile_eq_nil_iff]
  constructor
  · intro h c hc
    -- a character is dropped in front, or it is still there when the end is trimmed
    rw [← List.takeWhile_append_dropWhile (p := isBlank) (l := cs)] at hc
    rcases List.mem_append.1 hc with hc | hc
    · exact List.mem_takeWhile_imp hc
    · exact h c hc
  · intro h c hc
    exact h c ((List.dropWhile_sublist isBlank).subset hc)

/-- What stands in front of a blank, in a text that starts with no blank, is not all blank. -/
theorem exists_before_blank {front back : List Char} {c : Char} (hc : isBlank c)
    (h : trimStart (front ++ c :: back) = front ++ c :: back) :
    ∃ x ∈ front, isBlank x = false := by
  by_contra hn
  have hall : ∀ x ∈ front, isBlank x := by simpa using hn
  rw [trimStart, List.dropWhile_append_of_pos hall, List.dropWhile_cons_of_pos hc] at h
  have hl := congrArg List.length h
  have := List.length_dropWhile_le isBlank back
  simp only [List.length_append, List.length_cons] at hl
  omega

/-- A blank inside a trimmed text has characters that are not blank on both sides. -/
theorem exists_around_blank {front back : List Char} {c : Char} (hc : isBlank c)
    (h : trimBoth (front ++ c :: back) = front ++ c :: back) :
    (∃ x ∈ front, isBlank x = false) ∧ ∃ x ∈ back, isBlank x = false := by
  have hs : trimStart (front ++ c :: back) = front ++ c :: back := by
    rw [← h, trimBoth, trimStart_trimEnd (trimStart_trimStart _)]
  have he : trimEnd (front ++ c :: back) = front ++ c :: back := by
    rw [← h, trimBoth, trimEnd_trimEnd]
  refine ⟨exists_before_blank hc hs, ?_⟩
  -- the end is trimmed as the front of the reversed text
  have hr : trimStart (back.reverse ++ c :: front.reverse) =
      back.reverse ++ c :: front.reverse := by
    simpa [trimEnd, trimStart] using congrArg List.reverse he
  obtain ⟨x, hx, hn⟩ := exists_before_blank hc hr
  exact ⟨x, List.mem_reverse.1 hx, hn⟩

theorem trimStart_append {front rest : List Char} (hf : ∀ c ∈ front, isBlank c)
    (hr : ∀ c ∈ rest.head?, isBlank c = false) : trimStart (front ++ rest) = rest := by
  rw [trimStart, List.dropWhile_append_of_pos hf]
  cases rest with
  | nil => rfl
  | cons c rest => simp [hr c rfl]

theorem trimEnd_append {front back : List Char} (hf : ∀ c ∈ front.getLast?, isBlank c = false)
    (hb : ∀ c ∈ back, isBlank c) : trimEnd (front ++ back) = front := by
  have h : (back.reverse ++ front.reverse).dropWhile isBlank = front.reverse :=
    trimStart_append (by simpa using hb) (by simpa using hf)
  rw [trimEnd, List.reverse_append, h, List.reverse_reverse]

/-- A blank behind a text is trimmed off. -/
theorem trimBoth_concat {c : Char} (hc : isBlank c) (cs : List Char) :
    trimBoth (cs ++ [c]) = trimBoth cs := by
  simp only [trimBoth, trimStart, List.dropWhile_append, List.isEmpty_iff]
  split
  · rename_i he
    simp [he, hc]
  · exact List.rdropWhile_concat_pos isBlank _ c hc

theorem head?_trimStart (cs : List Char) : ∀ c ∈ (trimStart cs).head?, isBlank c = false := by
  intro c hc
  have := List.head?_dropWhile_not isBlank cs
  rw [trimStart] at hc
  rw [Option.mem_def.1 hc] at this
  simpa using this

theorem getLast?_trimEnd (cs : List Char) : ∀ c ∈ (trimEnd cs).getLast?, isBlank c = false := by
  rw [trimEnd, List.getLast?_reverse]
  exact head?_trimStart cs.reverse

/-! ## Pieces -/

section
variable {α : Type} {p : α → Bool}

theorem pieces_eq_splitOnP (p : α → Bool) (cs : List α) : pieces p cs = cs.splitOnP p := by
  induction cs with
  | nil => rfl
  | cons c cs ih =>
    rw [List.splitOnP_cons_eq_if_modifyHead, ← ih]
    simp only [pieces, List.foldr_cons]
    split
    · rfl
    · cases h : pieces p cs with
      | nil => exact absurd h (pieces_ne_nil p cs)
      | cons q qs => simp only [pieces] at h; simp [h]

theorem pieces_append_cons {sep : α} (hsep : p sep) (cs ds : List α) :
    pieces p (cs ++ sep :: ds) = pieces p cs ++ pieces p ds := by
  simp only [pieces_eq_splitOnP]
  exact List.splitOnP_append_cons cs ds hsep

theorem pieces_eq_singleton {cs : List α} (h : ∀ c ∈ cs, p c = false) : pieces p cs = [cs] := by
  rw [pieces_eq_splitOnP]
  exact List.splitOnP_eq_singleton h

/-- No piece holds a divider. -/
theorem eq_false_of_mem_pieces {cs q : List α} (hq : q ∈ pieces p cs) {c : α} (hc : c ∈ q) :
    p c = false := by
  rw [pieces_eq_splitOnP] at hq
  induction cs generalizing q with
  | nil =>
    rw [List.splitOnP_nil, List.mem_singleton] at hq
    subst hq
    cases hc
  | cons a cs ih =>
    rw [List.splitOnP_cons_eq_if_modifyHead] at hq
    split at hq
    · rcases List.mem_cons.1 hq with rfl | hq
      · cases hc
      · exact ih hq hc
    · rename_i ha
      cases hs : cs.splitOnP p with
      | nil => simp [hs] at hq
      | cons r rs =>
        rw [hs] at hq ih
        rcases List.mem_cons.1 hq with rfl | hq
        · rcases List.mem_cons.1 hc with rfl | hc
          · simpa using ha
          · exact ih (.head _) hc
        · exact ih (.tail _ hq) hc

/-- What is no divider is in some piece. -/
theorem exists_mem_pieces {cs : List α} {c : α} (hc : c ∈ cs) (hp : p c = false) :
    ∃ q ∈ pieces p cs, c ∈ q := by
  obtain ⟨front, back, rfl⟩ := List.append_of_mem hc
  induction front with
  | nil =>
    rw [pieces_eq_splitOnP, List.nil_append, List.splitOnP_cons_eq_if_modifyHead, hp]
    cases hs : back.splitOnP p with
    | nil => exact absurd hs (List.splitOnP_ne_nil p back)
    | cons q qs => exact ⟨c :: q, by simp, by simp⟩
  | cons a front ih =>
    obtain ⟨q, hq, hm⟩ := ih (by simp)
    rw [pieces_eq_splitOnP] at hq ⊢
    rw [List.cons_append, List.splitOnP_cons_eq_if_modifyHead]
    split
    · exact ⟨q, .tail _ hq, hm⟩
    · cases hs : (front ++ c :: back).splitOnP p with
      | nil => simp [hs] at hq
      | cons r rs =>
        rw [hs] at hq
        rcases List.mem_cons.1 hq with rfl | hq
        · exact ⟨a :: q, by simp, .tail _ hm⟩
        · exact ⟨q, by simp [hq], hm⟩

theorem pieces_cons_of_divider {sep : α} (hsep : p sep) (cs : List α) :
    pieces p (sep :: cs) = [] :: pieces p cs :=
  pieces_append_cons hsep [] cs

/-- What stands in front of the first divider belongs to the first piece. -/
theorem pieces_append {front : List α} (h : ∀ c ∈ front, p c = false) (cs : List α) :
    pieces p (front ++ cs) = (pieces p cs).modifyHead (front ++ ·) := by
  simp only [pieces_eq_splitOnP]
  induction front with
  | nil =>
    rw [List.nil_append]
    cases List.splitOnP p cs <;> rfl
  | cons a front ih =>
    rw [List.cons_append, List.splitOnP_cons_eq_if_modifyHead, ih fun c hc => h c (.tail _ hc),
      h a (.head _)]
    cases List.splitOnP p cs <;> rfl

/-- If dividers, and no other members, are written as dividers, then the pieces of what is written
are the pieces as they are written. -/
theorem pieces_flatMap {β : Type} {q : β → Bool} {write : α → List β}
    (hdiv : ∀ c, p c → ∃ sep, q sep ∧ write c = [sep])
    (hother : ∀ c, p c = false → ∀ b ∈ write c, q b = false) (cs : List α) :
    pieces q (cs.flatMap write) = (pieces p cs).map (List.flatMap write) := by
  induction cs with
  | nil => rfl
  | cons c cs ih =>
    rw [List.flatMap_cons]
    cases hc : p c with
    | true =>
      obtain ⟨sep, hsep, hw⟩ := hdiv c hc
      rw [hw, List.singleton_append, pieces_cons_of_divider hsep, pieces_cons_of_divider hc, ih]
      rfl
    | false =>
      have hone : ∀ a ∈ [c], p a = false := by simpa using hc
      rw [pieces_append (hother c hc), ih, ← List.singleton_append, pieces_append hone]
      cases pieces p cs <;> simp

/-- A list written with a divider behind each member is cut into the pieces of its members and what
is left. -/
theorem pieces_flatMap_append {sep : α} (hsep : p sep) (ws : List (List α)) :
    pieces p (ws.flatMap fun w => w ++ [sep]) = ws.flatMap (pieces p) ++ [[]] := by
  induction ws with
  | nil => rfl
  | cons w ws ih =>
    rw [List.flatMap_cons, List.flatMap_cons, List.append_assoc, List.singleton_append,
      pieces_append_cons hsep, ih, List.append_assoc]

end

end TurtleGraphics.Text
