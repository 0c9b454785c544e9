import TurtleGraphics.Proofs.Command.Reading
import TurtleGraphics.Proofs.FileSystem.Components

/-!
# The characters of a path

The path that a line names is cut out of the text of the line (`mem_of_mem_path`), and the
extension it may be given adds a dot and the extension (`mem_ensureExtension`). So a character that
was not typed is not in a path.
-/

set_option autoImplicit false

namespace TurtleGraphics

variable {c : Char}

theorem Path.mem_ensureExtension {p : Path} {ext : String} (hext : ext ≠ "")
    (h : c ∈ (p.ensureExtension ext).text.toList) :
    c ∈ p.text.toList ∨ c = '.' ∨ c ∈ ext.toList := by
  cases he : p.extension? with
  | some e =>
    simp only [ensureExtension, he, Option.isSome_some, if_true] at h
    exact .inl h
  | none =>
    cases hf : p.fileName? with
    | none =>
      simp only [ensureExtension, he, Option.isSome_none, Bool.false_eq_true, if_false,
        replaceExtension, hf] at h
      exact .inl h
    | some name =>
      obtain ⟨tail, -, htext⟩ := p.text_eq
      obtain ⟨hname, -⟩ := fileName?_eq_some hf
      rw [ensureExtension_of_none hf he hext, String.toList_ofList] at h
      rw [htext, hname]
      simp only [List.mem_append, List.mem_cons] at h ⊢
      rcases h with h | h | h | h
      · exact .inl (.inl h)
      · exact .inl (.inr (.inl h))
      · exact .inr (.inl h)
      · exact .inr (.inr h)

theorem Line.mem_of_mem_arguments {text args : String} {l : Line}
    (h : read text = .ok (some l)) (ha : l.arguments = some args) (hc : c ∈ args.toList) :
    c ∈ text.toList := by
  unfold read at h
  split at h
  · cases h
  · rename_i cs _
    dsimp only at h
    split at h
    · cases h
      dsimp only at ha
      split at ha
      · cases ha
      · -- the arguments are the trimmed line behind its first word
        cases ha
        rw [String.toList_ofList] at hc
        have hb := (List.dropWhile_sublist Text.isBlank).subset hc
        have hcs := (List.dropWhile_sublist (fun c => !Text.isBlank c)).subset hb
        exact Text.mem_of_mem_trimBoth hcs
    · cases h

theorem Arguments.mem_of_mem_file {name : Keyword} {args : Option String} {kind : FileKind}
    {path : Path} (h : file name args = .ok (kind, some path)) (hc : c ∈ path.text.toList) :
    ∃ text, args = some text ∧ c ∈ text.toList := by
  unfold file at h
  dsimp only at h
  split at h
  · cases h
  · rename_i hk
    cases args with
    | none => cases hk
    | some text =>
      refine ⟨text, rfl, ?_⟩
      simp only [Except.ok.injEq, Prod.mk.injEq, Option.ite_none_left_eq_some,
        Option.some.injEq] at h
      obtain ⟨-, -, rfl⟩ := h
      rw [String.toList_ofList] at hc
      have hb := Text.mem_of_mem_trimBoth hc
      exact (List.dropWhile_sublist (fun c => !Text.isBlank c)).subset hb

/-- What a path of a save is made of was typed. -/
theorem Command.mem_of_mem_path {text : String} {kind : FileKind} {path : Path}
    (h : ofText text = .ok (some (.save kind (some path)))) (hc : c ∈ path.text.toList) :
    c ∈ text.toList := by
  obtain ⟨⟨name, args, typed⟩, hl, hx⟩ := ofText_eq_ok h
  cases name with
  | save =>
    obtain ⟨⟨k, p⟩, hf, he⟩ := bind_eq_ok hx
    cases he
    obtain ⟨a, ha, hca⟩ := Arguments.mem_of_mem_file hf hc
    exact Line.mem_of_mem_arguments hl ha hca
  | _ =>
    obtain ⟨x, -, he⟩ := bind_eq_ok hx
    cases he

end TurtleGraphics
