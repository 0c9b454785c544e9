import TurtleGraphics.Proofs.Text.Utf8
import TurtleGraphics.Script

/-!
# Reading back a written script

The lines of a script are trimmed, not blank and free of line feeds (`isLine_of_decode?`), and
lines of this kind are read back from the file they are written to (`decode?_encode`).
-/

set_option autoImplicit false

namespace TurtleGraphics.Script

/-- A text that a script can hold as a line. -/
structure IsLine (text : String) : Prop where
  trimmed : Text.trim text = text
  ne_empty : text ≠ ""
  oneLine : '\n' ∉ text.toList

/-- A text without line feeds has a trimmed form without line feeds. -/
theorem lineFeed_not_mem_trim {text : String} (h : '\n' ∉ text.toList) :
    '\n' ∉ (Text.trim text).toList := by
  rw [Text.toList_trim]
  exact fun hm => h (Text.mem_of_mem_trimBoth hm)

theorem isLine_of_ofText {text line : String} (h : line ∈ (ofText text).lines) : IsLine line := by
  simp only [ofText, trimmed, List.mem_filter, List.mem_map] at h
  obtain ⟨⟨cs, hcs, rfl⟩, hne⟩ := h
  refine ⟨?_, by simpa using hne, ?_⟩
  · rw [Text.trim, String.toList_ofList, Text.trimBoth_trimBoth]
  · rw [String.toList_ofList]
    intro hm
    have hf := Text.eq_false_of_mem_pieces hcs (Text.mem_of_mem_trimBoth hm)
    simp at hf

theorem isLine_of_decode? {bytes : ByteArray} {script : Script} (h : decode? bytes = some script)
    {line : String} (hl : line ∈ script.lines) : IsLine line := by
  obtain ⟨text, -, rfl⟩ := Option.map_eq_some_iff.1 h
  exact isLine_of_ofText hl

theorem trimmed_toList {lines : List String} (ht : ∀ l ∈ lines, Text.trim l = l)
    (hne : ∀ l ∈ lines, l ≠ "") : trimmed (lines.map String.toList) = lines := by
  have hm : (lines.map String.toList).map (fun cs => String.ofList (Text.trimBoth cs)) = lines := by
    rw [List.map_map]
    exact List.map_congr_left ht |>.trans (List.map_id _)
  rw [trimmed, hm, List.filter_eq_self]
  exact fun l hl => by simpa using hne l hl

/-- The bytes of a file with the given lines as they are, a line feed behind each. -/
def fileOf (lines : List String) : ByteArray := (String.join (lines.map (· ++ "\n"))).toUTF8

/-- Lines that are trimmed and not blank are written as they are. -/
theorem encode_eq_fileOf {lines : List String} (ht : ∀ l ∈ lines, Text.trim l = l)
    (hne : ∀ l ∈ lines, l ≠ "") : encode lines = fileOf lines := by
  rw [encode, textOf, trimmed_toList ht hne]
  rfl

theorem trimmed_empty : trimmed [[]] = [] := by
  simp [trimmed, Text.trimBoth, Text.trimStart, Text.trimEnd]

theorem trimmed_append (ls ms : List (List Char)) :
    trimmed (ls ++ ms) = trimmed ls ++ trimmed ms := by
  simp [trimmed]

theorem trimmed_flatMap {α : Type} (f : α → List (List Char)) (ls : List α) :
    trimmed (ls.flatMap f) = ls.flatMap fun l => trimmed (f l) := by
  induction ls with
  | nil => rfl
  | cons l ls ih => rw [List.flatMap_cons, List.flatMap_cons, trimmed_append, ih]

/-- A text of trimmed lines, none of them blank, is read as the scripts in these lines. -/
theorem ofText_textOf_eq {lines : List String} (ht : ∀ l ∈ lines, Text.trim l = l)
    (hne : ∀ l ∈ lines, l ≠ "") :
    ofText (textOf lines) = ⟨lines.flatMap fun l => (ofText l).lines⟩ := by
  have hto : (textOf lines).toList = (lines.map String.toList).flatMap fun w => w ++ ['\n'] := by
    rw [textOf, trimmed_toList ht hne, String.toList_join, List.flatMap_map, List.flatMap_map]
    simp
  rw [ofText, hto, Text.pieces_flatMap_append (by simp), trimmed_append, trimmed_empty,
    List.append_nil, List.flatMap_map, trimmed_flatMap]
  rfl

/-- A line is the script in it. -/
theorem IsLine.ofText_eq {line : String} (h : IsLine line) : ofText line = ⟨[line]⟩ := by
  have hp : Text.pieces (· = '\n') line.toList = [line.toList] := by
    apply Text.pieces_eq_singleton
    intro c hc
    rw [decide_eq_false_iff_not]
    rintro rfl
    exact h.oneLine hc
  have ht : Script.trimmed ([line].map String.toList) = [line] := by
    apply trimmed_toList
    · intro l hl
      cases List.mem_singleton.1 hl
      exact h.trimmed
    · intro l hl
      cases List.mem_singleton.1 hl
      exact h.ne_empty
  rw [ofText, hp]
  exact congrArg Script.mk ht

/-- A text of lines is read as these lines. -/
theorem ofText_textOf {lines : List String} (h : ∀ l ∈ lines, IsLine l) :
    ofText (textOf lines) = ⟨lines⟩ := by
  rw [ofText_textOf_eq (fun l hl => (h l hl).trimmed) (fun l hl => (h l hl).ne_empty)]
  congr 1
  calc lines.flatMap (fun l => (ofText l).lines)
      = lines.flatMap fun l => [l] := List.flatMap_congr fun l hl => by rw [(h l hl).ofText_eq]
    _ = lines := List.flatMap_singleton' lines

/-- Whatever is written is a script. -/
theorem decode?_encode_eq (lines : List String) :
    decode? (encode lines) = some (ofText (textOf lines)) := by
  rw [decode?, encode, Text.fromUTF8?_toUTF8, Option.map_some]

/-- What is written is read back. -/
theorem decode?_encode {lines : List String} (h : ∀ l ∈ lines, IsLine l) :
    decode? (encode lines) = some ⟨lines⟩ := by
  rw [decode?_encode_eq, ofText_textOf h]

end TurtleGraphics.Script
