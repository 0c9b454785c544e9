import TurtleGraphics.Proofs.Command.Reading
import TurtleGraphics.Proofs.Text.Tokens

/-!
# How a line is cut

A text that is not all blank is, in one way only, blanks, a first word, the blanks behind it, what
is left, and blanks again (`exists_parts`, `Parts.Of.unique`). The word in lowercase stands for a
command or is unknown (`resolves_or_unknown`). So the parts say what a line is read as, and all
lines are read like this (`read_iff`).
-/

set_option autoImplicit false

namespace TurtleGraphics

open Text

namespace Line

/-! ## The parts of a text -/

/-- A text cut into a word, what follows it, and the blanks around and between the two. -/
structure Parts where
  before : List Char
  word : List Char
  gap : List Char
  rest : List Char
  behind : List Char

namespace Parts

/-- The parts are those of a text: its first word and the longest rest that neither starts nor ends
with a blank. Without a rest all blanks behind the word are outer ones. -/
structure Of (p : Parts) (text : List Char) : Prop where
  append : text = p.before ++ (p.word ++ (p.gap ++ p.rest)) ++ p.behind
  before : ∀ c ∈ p.before, isBlank c
  word_ne_nil : p.word ≠ []
  word : ∀ c ∈ p.word, isBlank c = false
  gap : ∀ c ∈ p.gap, isBlank c
  gap_eq_nil_iff : p.gap = [] ↔ p.rest = []
  rest_head : ∀ c ∈ p.rest.head?, isBlank c = false
  rest_last : ∀ c ∈ p.rest.getLast?, isBlank c = false
  behind : ∀ c ∈ p.behind, isBlank c

/-- The command word, in lowercase. -/
def lowerWord (p : Parts) : String := lower (String.ofList p.word)

/-- The rest as the arguments of a line. -/
def arguments (p : Parts) : Option String :=
  if p.rest = [] then none else some (String.ofList p.rest)

section
variable {p q : Parts} {text : List Char} (h : p.Of text)
include h

theorem Of.head : ∀ c ∈ (p.word ++ (p.gap ++ p.rest)).head?, isBlank c = false := by
  intro c hc
  cases hw : p.word with
  | nil => exact absurd hw h.word_ne_nil
  | cons d w =>
    rw [hw] at hc
    obtain rfl : d = c := by simpa using hc
    exact h.word d (by simp [hw])

theorem Of.last : ∀ c ∈ (p.word ++ (p.gap ++ p.rest)).getLast?, isBlank c = false := by
  intro c hc
  by_cases hr : p.rest = []
  · -- the word is the last part
    rw [hr, h.gap_eq_nil_iff.2 hr, List.append_nil, List.append_nil] at hc
    exact h.word c (List.mem_of_getLast? hc)
  · rw [← List.append_assoc, List.getLast?_append_of_ne_nil _ hr] at hc
    exact h.rest_last c hc

theorem Of.trimStart_eq : trimStart text = (p.word ++ (p.gap ++ p.rest)) ++ p.behind := by
  rw [h.append, List.append_assoc]
  refine trimStart_append h.before fun c hc => ?_
  rw [List.head?_append_of_ne_nil _ (by simp [h.word_ne_nil])] at hc
  exact h.head c hc

theorem Of.trimBoth_eq : trimBoth text = p.word ++ (p.gap ++ p.rest) := by
  rw [trimBoth, h.trimStart_eq, trimEnd_append h.last h.behind]

theorem Of.splitFirst_eq : splitFirst (trimBoth text) = (p.word, p.gap ++ p.rest) := by
  rw [h.trimBoth_eq]
  refine Text.splitFirst_eq h.word fun c hc => ?_
  cases hg : p.gap with
  | nil => simp [hg, h.gap_eq_nil_iff.1 hg] at hc
  | cons d gap =>
    obtain rfl : d = c := by simpa [hg] using hc
    exact h.gap d (by simp [hg])

theorem Of.trimStart_rest : trimStart (p.gap ++ p.rest) = p.rest :=
  trimStart_append h.gap h.rest_head

/-- A text is cut into parts in one way only. -/
theorem Of.unique (hq : q.Of text) : q = p := by
  obtain ⟨hword, htail⟩ := Prod.mk.inj (hq.splitFirst_eq.symm.trans h.splitFirst_eq)
  have hrest : q.rest = p.rest := by
    rw [← hq.trimStart_rest, htail, h.trimStart_rest]
  have hgap : q.gap = p.gap := List.append_cancel_right (hrest ▸ htail)
  have hbehind : q.behind = p.behind := by
    have := hq.trimStart_eq.symm.trans h.trimStart_eq
    rw [hword, htail] at this
    exact List.append_cancel_left this
  have hbefore : q.before = p.before := by
    have := hq.append.symm.trans h.append
    rw [hword, htail, hbehind] at this
    exact List.append_cancel_right (List.append_cancel_right this)
  cases p
  cases q
  simp_all

end

/-- The blanks that are no outer ones are followed by something. -/
theorem gap_eq_nil_iff_of_splitFirst {core : List Char}
    (hl : ∀ c ∈ core.getLast?, isBlank c = false) :
    (splitFirst core).2.takeWhile isBlank = [] ↔ trimStart (splitFirst core).2 = [] := by
  obtain ⟨-, hr⟩ := splitFirst_spec core
  have hcore := splitFirst_append core
  generalize (splitFirst core).1 = word at hcore
  generalize (splitFirst core).2 = tail at hcore hr
  cases tail with
  | nil => simp [trimStart]
  | cons c tail =>
    have hc : isBlank c := hr c rfl
    refine ⟨fun h => by simp [hc] at h, fun h => ?_⟩
    have hall := List.dropWhile_eq_nil_iff.1 h
    -- a tail of blanks would be the end of the text
    have hne : c :: tail ≠ [] := List.cons_ne_nil c tail
    have hlast : core.getLast? = some ((c :: tail).getLast hne) := by
      rw [← hcore, List.getLast?_append_of_ne_nil _ hne, List.getLast?_eq_some_getLast hne]
    have := hl _ hlast
    simp [hall _ (List.getLast_mem hne)] at this

/-- A text that is not all blank has parts. -/
theorem exists_parts {text : List Char} (h : ∃ c ∈ text, isBlank c = false) :
    ∃ p : Parts, p.Of text := by
  obtain ⟨x, hx, hxb⟩ := h
  have hlast := getLast?_trimEnd (trimStart text)
  have hcore := splitFirst_append (trimBoth text)
  obtain ⟨hword, -⟩ := splitFirst_spec (trimBoth text)
  have hne : trimBoth text ≠ [] := fun h => by simp [trimBoth_eq_nil_iff.1 h x hx] at hxb
  have hhead : ∀ c ∈ (trimBoth text).head?, isBlank c = false := by
    have := head?_trimStart (trimBoth text)
    rwa [trimBoth, trimStart_trimEnd (trimStart_trimStart _), ← trimBoth] at this
  refine ⟨⟨text.takeWhile isBlank, (splitFirst (trimBoth text)).1,
    (splitFirst (trimBoth text)).2.takeWhile isBlank, trimStart (splitFirst (trimBoth text)).2,
    (trimStart text).rtakeWhile isBlank⟩, ?_⟩
  refine ⟨?_, fun _ => List.mem_takeWhile_imp, splitFirst_ne_nil hne hhead, hword,
    fun _ => List.mem_takeWhile_imp, gap_eq_nil_iff_of_splitFirst hlast, head?_trimStart _, ?_,
    fun _ => List.mem_rtakeWhile_imp⟩
  · have hend : trimBoth text ++ (trimStart text).rtakeWhile isBlank = trimStart text :=
      List.rdropWhile_append_rtakeWhile ..
    have htail : (splitFirst (trimBoth text)).2.takeWhile isBlank ++
        trimStart (splitFirst (trimBoth text)).2 = (splitFirst (trimBoth text)).2 :=
      List.takeWhile_append_dropWhile
    dsimp only
    rw [htail, hcore, List.append_assoc, hend]
    exact List.takeWhile_append_dropWhile.symm
  · intro c hc
    obtain ⟨front, hf⟩ : trimStart (splitFirst (trimBoth text)).2 <:+ trimBoth text :=
      (List.dropWhile_suffix _).trans ⟨_, hcore⟩
    refine hlast c ?_
    rw [← trimBoth, ← hf, List.getLast?_append_of_ne_nil _ (by rintro h0; simp [h0] at hc)]
    exact hc

theorem existsUnique_iff {text : List Char} :
    (∃! p : Parts, p.Of text) ↔ ∃ c ∈ text, isBlank c = false := by
  constructor
  · rintro ⟨p, h, -⟩
    obtain ⟨c, hc⟩ := List.exists_mem_of_ne_nil _ h.word_ne_nil
    exact ⟨c, by simp [h.append, hc], h.word c hc⟩
  · intro h
    obtain ⟨p, hp⟩ := exists_parts h
    exact ⟨p, hp, fun q hq => hp.unique hq⟩

end Parts

/-! ## Reading -/

/-- What a text is read as. -/
inductive Reads (text : String) : Except Error (Option Line) → Prop
  | blank (h : ∀ c ∈ text.toList, isBlank c) : Reads text (.ok none)
  | command {p : Parts} {name : Keyword} {typed : Option String} (hp : p.Of text.toList)
      (hw : Resolves p.lowerWord name typed) : Reads text (.ok (some ⟨name, p.arguments, typed⟩))
  | unknown {p : Parts} (hp : p.Of text.toList) (hw : Unknown p.lowerWord) :
      Reads text (.error (.unknownWord p.lowerWord))

theorem read_of_parts {text : String} {p : Parts} (h : p.Of text.toList) :
    read text = (resolve p.lowerWord).map fun r => some ⟨r.1, p.arguments, r.2⟩ := by
  have hne : trimBoth text.toList ≠ [] := by
    rw [h.trimBoth_eq]
    simp [h.word_ne_nil]
  unfold read
  cases hc : trimBoth text.toList with
  | nil => exact absurd hc hne
  | cons c cs =>
    dsimp only
    rw [← hc, h.splitFirst_eq, h.trimStart_rest]
    simp only [Parts.arguments, Parts.lowerWord, List.isEmpty_iff]
    cases resolve (lower (String.ofList p.word)) <;> rfl

theorem read_of_reads {text : String} {r : Except Error (Option Line)} (h : Reads text r) :
    read text = r := by
  cases h with
  | blank h => rw [read, trimBoth_eq_nil_iff.2 h]
  | command hp hw =>
    rw [read_of_parts hp, resolve_of_resolves hw]
    rfl
  | unknown hp hw =>
    rw [read_of_parts hp, resolve_of_unknown hw]
    rfl

theorem exists_reads (text : String) : ∃ r, Reads text r := by
  by_cases hb : ∃ c ∈ text.toList, isBlank c = false
  · obtain ⟨p, hp⟩ := Parts.exists_parts hb
    obtain ⟨name, typed, hw⟩ | hw := resolves_or_unknown p.lowerWord
    · exact ⟨_, .command hp hw⟩
    · exact ⟨_, .unknown hp hw⟩
  · exact ⟨_, .blank (by simpa using hb)⟩

/-- The arguments of a line are not blank and have no outer blanks. -/
theorem arguments_trimmed {text : String} {l : Line} (h : read text = .ok (some l))
    {args : String} (ha : l.arguments = some args) : args ≠ "" ∧ trim args = args := by
  obtain ⟨r, hr⟩ := exists_reads text
  rw [read_of_reads hr] at h
  cases hr with
  | blank _ => cases h
  | unknown _ _ => cases h
  | @command p _ _ hp _ =>
    cases h
    simp only [Parts.arguments] at ha
    split at ha
    · cases ha
    · rename_i hne
      cases ha
      have hrest : trimBoth p.rest = p.rest := by
        have hs : trimStart ([] ++ p.rest) = p.rest := trimStart_append (by simp) hp.rest_head
        have he : trimEnd (p.rest ++ []) = p.rest := trimEnd_append hp.rest_last (by simp)
        rw [List.nil_append] at hs
        rw [List.append_nil] at he
        rw [trimBoth, hs, he]
      refine ⟨by simpa using hne, ?_⟩
      rw [trim, String.toList_ofList, hrest]

/-- Every text is read as its parts say, and a text has parts, in one way, exactly if it is not all
blank. The arguments are what the parts leave of the text, never empty and never with outer
blanks. -/
theorem read_iff (text : String) :
    (∀ r, read text = r ↔ Reads text r) ∧
      ((∃! p : Parts, p.Of text.toList) ↔ ∃ c ∈ text.toList, isBlank c = false) ∧
      ∀ l args, read text = .ok (some l) → l.arguments = some args →
        args ≠ "" ∧ trim args = args := by
  refine ⟨fun r => ⟨?_, read_of_reads⟩, Parts.existsUnique_iff,
    fun l args h ha => arguments_trimmed h ha⟩
  rintro rfl
  obtain ⟨r, hr⟩ := exists_reads text
  rwa [read_of_reads hr]

/-- A Kelvin sign becomes a letter in lowercase; commas and inner blanks stay as they are. -/
example : read " \tB\u212A\u3000255, 0 ,10\n" =
    .ok (some ⟨.reverse, some "255, 0 ,10", some "bk"⟩) := by
  cbv

end Line

end TurtleGraphics
