import TurtleGraphics.Console
import TurtleGraphics.Proofs.Text.Utf8

/-!
# Typed lines

The lines of an input are taken up to the first one that is no text (`validPrefix_spec`). None of
them holds a line feed (`lineFeed_not_mem_of_mem_typedLines`): the input is cut at that byte, and no
other character is written with it.
-/

set_option autoImplicit false

namespace TurtleGraphics.Terminal

/-- The texts are read from the first lines, and the line behind these is no text. -/
theorem validPrefix_spec (lines : List (List UInt8)) :
    ∃ read unread, lines = read ++ unread ∧
      read.map (fun l => String.fromUTF8? ⟨l.toArray⟩) = (validPrefix lines).map some ∧
      ∀ l ∈ unread.head?, String.fromUTF8? ⟨l.toArray⟩ = none := by
  induction lines with
  | nil => exact ⟨[], [], rfl, rfl, by simp⟩
  | cons l rest ih =>
    simp only [validPrefix]
    cases hl : String.fromUTF8? ⟨l.toArray⟩ with
    | none => exact ⟨[], l :: rest, rfl, rfl, by simpa using hl⟩
    | some text =>
      obtain ⟨read, unread, rfl, hread, hunread⟩ := ih
      refine ⟨l :: read, unread, rfl, ?_, hunread⟩
      rw [List.map_cons, hl, hread]
      rfl

/-! ## Line feeds -/

/-- A text that was read from bytes without line feeds has none. -/
theorem lineFeed_not_mem_of_fromUTF8? {bytes : List UInt8} {text : String}
    (h : String.fromUTF8? ⟨bytes.toArray⟩ = some text) (hb : 10 ∉ bytes) :
    '\n' ∉ text.toList := by
  intro hm
  obtain rfl : bytes = Text.utf8 text.toList := Text.fromUTF8?_eq_some_iff.1 h
  refine hb (List.mem_flatMap.2 ⟨'\n', hm, ?_⟩)
  rw [Text.utf8EncodeChar_lineFeed]
  exact .head _

theorem lineFeed_not_mem_of_mem_rawLines {input line : List UInt8} (h : line ∈ rawLines input) :
    10 ∉ line := by
  have hpiece : ∀ q ∈ Text.pieces (· = 10) input, 10 ∉ q := by
    intro q hq hm
    have := Text.eq_false_of_mem_pieces hq hm
    simp at this
  -- every line is a piece, or a piece without its last byte
  have hended : line ∈ (Text.pieces (· = 10) input).dropLast.map
      (fun l => if l.getLast? = some 13 then l.dropLast else l) → 10 ∉ line := by
    intro hm hin
    obtain ⟨q, hq, rfl⟩ := List.mem_map.1 hm
    have hq' := hpiece q ((List.dropLast_sublist _).subset hq)
    split at hin
    · exact hq' ((List.dropLast_sublist _).subset hin)
    · exact hq' hin
  unfold rawLines at h
  dsimp only at h
  split at h
  · exact hended h
  · exact hended h
  · rename_i l hne hlast
    rcases List.mem_append.1 h with h | h
    · exact hended h
    · cases List.mem_singleton.1 h
      exact hpiece line (List.mem_of_getLast? hlast)

theorem lineFeed_not_mem_of_mem_typedLines {input : ByteArray} {line : String}
    (h : line ∈ typedLines input) : '\n' ∉ line.toList := by
  obtain ⟨read, unread, hlines, hread, -⟩ := validPrefix_spec (rawLines input.toList)
  have hm : some line ∈ read.map fun l => String.fromUTF8? ⟨l.toArray⟩ := by
    rw [hread]
    exact List.mem_map_of_mem h
  obtain ⟨bytes, hb, htext⟩ := List.mem_map.1 hm
  have hraw : bytes ∈ rawLines input.toList := by
    rw [hlines]
    exact List.mem_append_left _ hb
  exact lineFeed_not_mem_of_fromUTF8? htext (lineFeed_not_mem_of_mem_rawLines hraw)

end TurtleGraphics.Terminal
