import TurtleGraphics.Console

/-!
# The last line of the output

Each text that is shown is written with a line feed behind it, so the output ends in the last line
of the text that was shown last (`suffix_of_lastLine`); if this is a single line, it is the last one
(`lastLine_push`).
-/

set_option autoImplicit false

namespace TurtleGraphics.Console

/-- The text of the output: a line feed behind everything that was shown. -/
def stdout (shown : Array String) : String := String.join (shown.toList.map (· ++ "\n"))

/-- The last line of an output that ends each of its lines. -/
def LastLine (output line : String) : Prop :=
  '\n' ∉ line.toList ∧ ∃ front, output.toList = front ++ (line.toList ++ ['\n']) ∧
    (front = [] ∨ front.getLast? = some '\n')

theorem toList_stdout_push (shown : Array String) (text : String) :
    (stdout (shown.push text)).toList = (stdout shown).toList ++ (text.toList ++ ['\n']) := by
  simp [stdout, String.toList_join]

/-- Nothing was written, or the last line is ended. -/
theorem stdout_ended (shown : Array String) :
    (stdout shown).toList = [] ∨ (stdout shown).toList.getLast? = some '\n' := by
  unfold stdout
  rcases List.eq_nil_or_concat shown.toList with h | ⟨front, last, h⟩
  · left
    rw [h]
    rfl
  · right
    rw [h]
    simp [String.toList_join]

/-- A line that was shown last is the last line. -/
theorem lastLine_push (shown : Array String) {line : String} (h : '\n' ∉ line.toList) :
    LastLine (stdout (shown.push line)) line :=
  ⟨h, _, toList_stdout_push shown line, stdout_ended shown⟩

/-- Where everything ends in a line feed, the last part does, unless it is empty. -/
theorem mem_of_ended {cs front more : List Char} (hcs : cs = [] ∨ cs.getLast? = some '\n')
    (h : cs = front ++ more) : more = [] ∨ '\n' ∈ more := by
  cases hm : more.getLast? with
  | none => exact .inl (List.getLast?_eq_none_iff.1 hm)
  | some c =>
    have hlast : cs.getLast? = some c := by
      rw [h, List.getLast?_append, hm]
      rfl
    rcases hcs with rfl | hcs
    · cases hlast
    · rw [hcs] at hlast
      cases hlast
      exact .inr (List.mem_of_getLast? hm)

/-- The text that was shown last ends in the last line. If it is a line, it is this one. -/
theorem suffix_of_lastLine {shown : Array String} {text line : String}
    (h : LastLine (stdout (shown.push text)) line) :
    line.toList <:+ text.toList ∧ ('\n' ∉ text.toList → text = line) := by
  obtain ⟨hline, front, hout, hfront⟩ := h
  have hended := stdout_ended shown
  rw [toList_stdout_push, ← List.append_assoc, ← List.append_assoc] at hout
  replace hout := List.append_cancel_right hout
  generalize (stdout shown).toList = before at hout hended
  -- either the last text goes back behind the start of the line, or the line does behind its start
  rcases List.append_eq_append_iff.1 hout with ⟨more, hf, ht⟩ | ⟨more, hb, hl⟩
  · refine ⟨⟨more, ht.symm⟩, fun hone => ?_⟩
    rcases mem_of_ended hfront hf with rfl | hm
    · exact String.toList_injective ht
    · rw [ht] at hone
      exact absurd (List.mem_append_left _ hm) hone
  · rcases mem_of_ended hended hb with rfl | hm
    · rw [hl]
      exact ⟨List.suffix_refl _, fun _ => (String.toList_injective hl).symm⟩
    · rw [hl] at hline
      exact absurd (List.mem_append_left _ hm) hline

end TurtleGraphics.Console
