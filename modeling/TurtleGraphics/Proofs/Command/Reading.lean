import TurtleGraphics.Command.Arguments
import TurtleGraphics.Proofs.Except
import TurtleGraphics.Proofs.Text.Cutting

/-!
# Reading commands

A word in lowercase is the word of a command, or else an alias of one, or else unknown
(`resolves_or_unknown`). Outer blanks of a line do not matter (`ofText_trim`), so a recorded line,
which is trimmed, asks for what the typed one asked for. A text whose command loads begins with a
word that loads (`isLoad_of_ofText`), and no alias stands for that word (`notice_of_load`).
-/

set_option autoImplicit false

namespace TurtleGraphics

/-! ## Commands that words stand for -/

namespace Keyword

theorem ofWord?_eq_some_iff {w : String} {name : Keyword} :
    ofWord? w = some name ↔ name.word = w := by
  constructor
  · intro h
    simpa using List.find?_some h
  · rintro rfl
    exact ofWord?_word name

theorem ofWord?_eq_none_iff {w : String} : ofWord? w = none ↔ ∀ name : Keyword, name.word ≠ w := by
  simp [ofWord?, mem_all]

/-- No alias stands for two commands. -/
theorem ofAlias?_of_mem : ∀ e ∈ aliases, ofAlias? e.1 = some e.2 := by decide

theorem ofAlias?_eq_some_iff {w : String} {name : Keyword} :
    ofAlias? w = some name ↔ (w, name) ∈ aliases := by
  constructor
  · intro h
    obtain ⟨front, back, he, -⟩ := List.lookup_eq_some_iff.1 h
    simp [he]
  · exact ofAlias?_of_mem (w, name)

end Keyword

namespace Line

/-- A lowercase word stands for a command, as its own word or, if it is no command's own, as an
alias that is remembered. -/
inductive Resolves (word : String) : Keyword → Option String → Prop
  | own {name : Keyword} (h : name.word = word) : Resolves word name none
  | aliased {name : Keyword} (hn : ∀ other : Keyword, other.word ≠ word)
      (h : (word, name) ∈ Keyword.aliases) : Resolves word name (some word)

/-- A lowercase word stands for no command. -/
structure Unknown (word : String) : Prop where
  not_own : ∀ name : Keyword, name.word ≠ word
  not_alias : ∀ name : Keyword, (word, name) ∉ Keyword.aliases

theorem resolve_of_resolves {word : String} {name : Keyword} {typed : Option String}
    (h : Resolves word name typed) : resolve word = .ok (name, typed) := by
  cases h with
  | own h => simp only [resolve, Keyword.ofWord?_eq_some_iff.2 h]
  | aliased hn h =>
    simp only [resolve, Keyword.ofWord?_eq_none_iff.2 hn, Keyword.ofAlias?_eq_some_iff.2 h]

theorem resolve_of_unknown {word : String} (h : Unknown word) :
    resolve word = .error (.unknownWord word) := by
  have hnone : Keyword.ofAlias? word = none := by
    rw [Option.eq_none_iff_forall_ne_some]
    exact fun name ha => h.not_alias name (Keyword.ofAlias?_eq_some_iff.1 ha)
  simp only [resolve, Keyword.ofWord?_eq_none_iff.2 h.not_own, hnone]

theorem resolves_or_unknown (word : String) :
    (∃ name typed, Resolves word name typed) ∨ Unknown word := by
  by_cases hown : ∃ name : Keyword, name.word = word
  · obtain ⟨name, h⟩ := hown
    exact .inl ⟨name, none, .own h⟩
  · have hn : ∀ name : Keyword, name.word ≠ word := fun name h => hown ⟨name, h⟩
    by_cases halias : ∃ name, (word, name) ∈ Keyword.aliases
    · obtain ⟨name, h⟩ := halias
      exact .inl ⟨name, some word, .aliased hn h⟩
    · exact .inr ⟨hn, fun name h => halias ⟨name, h⟩⟩

theorem resolves_of_resolve {word : String} {name : Keyword} {typed : Option String}
    (h : resolve word = .ok (name, typed)) : Resolves word name typed := by
  rcases resolves_or_unknown word with ⟨name', typed', hw⟩ | hw
  · rw [resolve_of_resolves hw] at h
    cases h
    exact hw
  · rw [resolve_of_unknown hw] at h
    cases h

/-- No alias stands for saving or loading. -/
theorem Resolves.typed_of_file {word : String} {name : Keyword} {typed : Option String}
    (h : Resolves word name typed) (hf : name = .save ∨ name = .load) : typed = none := by
  cases h with
  | own _ => rfl
  | aliased _ h =>
    have hnone : ∀ e ∈ Keyword.aliases, ¬ (e.2 = .save ∨ e.2 = .load) := by decide
    exact absurd hf (hnone _ h)

/-! ## Outer blanks -/

theorem read_trim (text : String) : read (Text.trim text) = read text := by
  unfold read
  rw [Text.toList_trim, Text.trimBoth_trimBoth]

/-- A line that is not blank stays so when it is trimmed. -/
theorem trim_ne_empty {text : String} {l : Line} (h : read text = .ok (some l)) :
    Text.trim text ≠ "" := by
  intro he
  have ht : Text.trimBoth text.toList = [] := by
    rw [← Text.toList_trim, he]; rfl
  rw [read, ht] at h
  cases h

theorem notice_of_load {text : String} {l : Line} (h : read text = .ok (some l))
    (hl : l.keyword = .load) : l.notice = none := by
  unfold read at h
  split at h
  · cases h
  · rename_i cs _
    simp only at h
    split at h
    · rename_i name corrected hr
      cases h
      simp only at hl
      subst hl
      rw [notice, (resolves_of_resolve hr).typed_of_file (.inr rfl)]
      rfl
    · cases h

end Line

/-! ## Commands of a text -/

namespace Command

theorem ofText_eq_ok {text : String} {c : Command} (h : ofText text = .ok (some c)) :
    ∃ l, Line.read text = .ok (some l) ∧ ofLine l = .ok c := by
  unfold ofText at h
  split at h
  · cases h
  · cases h
  · rename_i l hl
    obtain ⟨c', hc, he⟩ := map_eq_ok h
    cases he
    exact ⟨l, hl, hc⟩

theorem ofText_trim (text : String) : ofText (Text.trim text) = ofText text := by
  rw [ofText, Line.read_trim]; rfl

theorem trim_ne_empty_of_ofText {text : String} {c : Command} (h : ofText text = .ok (some c)) :
    Text.trim text ≠ "" := by
  obtain ⟨l, hl, -⟩ := ofText_eq_ok h
  exact Line.trim_ne_empty hl

/-- Only the word that loads gives a command that loads. -/
theorem keyword_of_ofLine_load {l : Line} {kind : FileKind} {path : Option Path}
    (h : ofLine l = .ok (.load kind path)) : l.keyword = .load := by
  obtain ⟨name, args, typed⟩ := l
  cases name with
  | load => rfl
  | _ =>
    unfold ofLine at h
    obtain ⟨x, -, hx⟩ := bind_eq_ok h
    cases hx

/-- All other words than those that save and load give actions. -/
theorem exists_act_iff {l : Line} {c : Command} (h : ofLine l = .ok c) :
    (∃ a, c = .act a) ↔ ¬ (l.keyword = .save ∨ l.keyword = .load) := by
  obtain ⟨name, args, typed⟩ := l
  cases name with
  | save | load =>
    obtain ⟨x, -, hx⟩ := bind_eq_ok h
    cases hx
    simp
  | _ =>
    unfold ofLine at h
    obtain ⟨x, -, hx⟩ := bind_eq_ok h
    cases hx
    simp

/-- A line that acts does not load. -/
theorem isLoad_eq_false_of_ofText {text : String} {a : Action}
    (h : ofText text = .ok (some (.act a))) : Line.isLoad text = false := by
  obtain ⟨l, hl, hc⟩ := ofText_eq_ok h
  have hne : l.keyword ≠ .load := fun h => (exists_act_iff hc).1 ⟨a, rfl⟩ (.inr h)
  simp [Line.isLoad, hl, hne]

theorem isLoad_of_ofText {text : String} {kind : FileKind} {path : Option Path}
    (h : ofText text = .ok (some (.load kind path))) : Line.isLoad text = true := by
  obtain ⟨l, hl, hc⟩ := ofText_eq_ok h
  simp [Line.isLoad, hl, keyword_of_ofLine_load hc]

theorem ofText_ne_load {text : String} (h : Line.isLoad text = false) (kind : FileKind)
    (path : Option Path) : ofText text ≠ .ok (some (.load kind path)) := by
  intro hc
  rw [isLoad_of_ofText hc] at h
  cases h

end Command

end TurtleGraphics
