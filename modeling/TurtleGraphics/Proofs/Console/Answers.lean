import TurtleGraphics.Console
import TurtleGraphics.Proofs.Session.Conduct

/-!
# Typed answers

How the lines that wait at a terminal answer the questions of a session. `Answer q used rest` says
that the lines `used` were read for the question `q` and that `rest` was waiting then: lines that
decide nothing are read over until one decides, a question about a file takes the next line, and a
question that finds no line is declined. One question after the other is answered in this way
(`Answers`), whatever is shown in between (`enter_answers`).
-/

set_option autoImplicit false

namespace TurtleGraphics.Terminal

/-! ## Answers -/

/-- What may be typed for a decision. -/
def wordsFor : Decision → List String
  | .discard => ["d", "discard"]
  | .saveFirst => ["s", "save"]
  | .cancel => ["c", "cancel"]

/-- The line is one of the words for a decision, in any letter case and between blanks. -/
def Says (line : String) (decision : Decision) : Prop :=
  Text.lower (Text.trim line) ∈ wordsFor decision

theorem decisionOf?_eq_some_iff {line : String} {decision : Decision} :
    decisionOf? line = some decision ↔ Says line decision := by
  unfold decisionOf? Says
  generalize Text.lower (Text.trim line) = word
  constructor
  · intro h
    split at h
    all_goals cases h
    all_goals simp [wordsFor]
  · intro h
    cases decision with
    | _ =>
      simp only [wordsFor, List.mem_cons, List.not_mem_nil, or_false] at h
      rcases h with rfl | rfl <;> rfl

/-- How a question was answered: the lines read for it, and those still waiting then. -/
inductive Answer : Question → List String → List String → Prop
  | decided {question line : String} {decision : Decision} {idle rest : List String}
      (hidle : ∀ l ∈ idle, ∀ d, ¬ Says l d) (h : Says line decision) :
      Answer (.unsaved question decision) (idle ++ [line]) rest
  /-- The lines ran out. -/
  | undecided {question : String} {idle : List String} (hidle : ∀ l ∈ idle, ∀ d, ¬ Says l d) :
      Answer (.unsaved question .cancel) idle []
  | said (path : Path) (line : String) (rest : List String) :
      Answer (.replace path (isYes line)) [line] rest
  /-- There was no line. -/
  | unsaid (path : Path) : Answer (.replace path false) [] []
  /-- The console never asks where to save. -/
  | suggested (path : Path) (rest : List String) : Answer (.savePath path (some path)) [] rest

/-- A line that decides nothing is read over. -/
theorem Answer.skip {question line : String} {decision : Decision} {used rest : List String}
    (hl : ∀ d, ¬ Says line d) (h : Answer (.unsaved question decision) used rest) :
    Answer (.unsaved question decision) (line :: used) rest := by
  have hall : ∀ {idle : List String}, (∀ l ∈ idle, ∀ d, ¬ Says l d) →
      ∀ l ∈ line :: idle, ∀ d, ¬ Says l d := by
    intro idle hidle l hm
    rcases List.mem_cons.1 hm with rfl | hm
    · exact hl
    · exact hidle l hm
  cases h with
  | decided hidle h => exact .decided (hall hidle) h
  | undecided hidle => exact .undecided (hall hidle)

/-- With one attempt more than lines, reading ends with an answer or with the lines. -/
theorem readDecision_answer (question : String) {fuel : Nat} {t : Terminal}
    (hf : t.waiting.length < fuel) :
    ∃ used, t.waiting = used ++ (readDecision fuel t).2.waiting ∧
      Answer (.unsaved question (readDecision fuel t).1) used (readDecision fuel t).2.waiting := by
  induction fuel generalizing t with
  | zero => omega
  | succ fuel ih =>
    obtain ⟨waiting, shown, progress, starvedAt⟩ := t
    cases waiting with
    | nil => exact ⟨[], rfl, .undecided (by simp)⟩
    | cons line rest =>
      simp only [readDecision, answer]
      cases hd : decisionOf? line with
      | some decision =>
        have hidle : ∀ l ∈ ([] : List String), ∀ d, ¬ Says l d := by simp
        exact ⟨[line], rfl, .decided hidle (decisionOf?_eq_some_iff.1 hd)⟩
      | none =>
        have hl : ∀ d, ¬ Says line d := by
          intro d hs
          rw [decisionOf?_eq_some_iff.2 hs] at hd
          cases hd
        have hlen : rest.length < fuel := by
          simp only [List.length_cons] at hf
          omega
        obtain ⟨used, hw, ha⟩ :=
          ih (t := write "Please answer d, s or c." ⟨rest, shown, progress, starvedAt⟩) hlen
        refine ⟨line :: used, ?_, ha.skip hl⟩
        rw [List.cons_append, ← hw]
        rfl

theorem askUnsaved_answer (question : String) (t : Terminal) :
    ∃ used, t.waiting = used ++ (askUnsaved question t).2.waiting ∧
      Answer (.unsaved question (askUnsaved question t).1) used
        (askUnsaved question t).2.waiting := by
  unfold askUnsaved
  generalize hq : write _ t = t'
  have hw : t'.waiting = t.waiting := by
    rw [← hq]
    rfl
  rw [← hw]
  exact readDecision_answer question (by omega)

theorem askReplace_answer (path : Path) (t : Terminal) :
    ∃ used, t.waiting = used ++ (askReplace path t).2.waiting ∧
      Answer (.replace path (askReplace path t).1) used (askReplace path t).2.waiting := by
  obtain ⟨waiting, shown, progress, starvedAt⟩ := t
  cases waiting with
  | nil => exact ⟨[], rfl, .unsaid path⟩
  | cons line rest =>
    simp only [askReplace, answer, write, Option.any_some]
    exact ⟨[line], rfl, .said path line rest⟩

/-! ## Answers in a row -/

/-- How questions were answered in a row: the lines read for them, and those still waiting then. -/
inductive Answers : List Question → List String → List String → Prop
  | nil (rest : List String) : Answers [] [] rest
  | cons {q : Question} {qs : List Question} {used later rest : List String}
      (h : Answer q used (later ++ rest)) (ht : Answers qs later rest) :
      Answers (q :: qs) (used ++ later) rest

theorem Answers.concat {q : Question} {qs : List Question} {used later rest : List String}
    (h : Answers qs used (later ++ rest)) (hq : Answer q later rest) :
    Answers (qs ++ [q]) (used ++ later) rest := by
  generalize hr : later ++ rest = left at h
  induction h with
  | nil left =>
    subst hr
    simpa using Answers.cons hq (.nil rest)
  | cons h ht ih =>
    subst hr
    rw [List.cons_append, List.append_assoc]
    refine .cons ?_ (ih rfl)
    rwa [List.append_assoc]

/-- Of the lines that were waiting, the questions in the log have used up the first ones. -/
def Serves (lines : List String) (u : Terminal × List Question) : Prop :=
  ∃ used, lines = used ++ u.1.waiting ∧ Answers u.2 used u.1.waiting

theorem Serves.ask {lines : List String} {t t' : Terminal} {log : List Question} {q : Question}
    (h : Serves lines (t, log))
    (hq : ∃ used, t.waiting = used ++ t'.waiting ∧ Answer q used t'.waiting) :
    Serves lines (t', log ++ [q]) := by
  obtain ⟨used, hlines, hlog⟩ := h
  obtain ⟨later, hw, ha⟩ := hq
  dsimp only at hlines hlog
  rw [hw] at hlines hlog
  exact ⟨used ++ later, by rw [hlines, List.append_assoc], hlog.concat ha⟩

theorem dialogue_keeps_serves (lines : List String) : dialogue.logged.Keeps (Serves lines) where
  tell _ _ h := h
  askUnsaved question u h := h.ask (askUnsaved_answer question u.1)
  showProgress _ _ _ h := h
  askReplace path u h := h.ask (askReplace_answer path u.1)
  askSavePath suggested u h := h.ask ⟨[], rfl, .suggested suggested u.1.waiting⟩
  clearStop _ h := h

/-- Taking a line uses up waiting lines for the answers to its questions, and no others. -/
theorem enter_answers (text : String) (s : Session Terminal) :
    let r := s.withLog.enter dialogue.logged text
    ∃ used, s.user.waiting = used ++ r.2.user.1.waiting ∧
      Answers r.2.user.2 used r.2.user.1.waiting :=
  Session.enter_keeps (dialogue_keeps_serves s.user.waiting) text ⟨[], rfl, .nil _⟩

end TurtleGraphics.Terminal
