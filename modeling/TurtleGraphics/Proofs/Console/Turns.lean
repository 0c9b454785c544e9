import TurtleGraphics.Proofs.Console.Answers
import TurtleGraphics.Proofs.Console.Messages
import TurtleGraphics.Proofs.Console.TypedLines
import TurtleGraphics.Proofs.Session.Overwriting

/-!
# A run of the console, turn by turn

The lines that are typed at the console serve as commands and as answers. A turn takes one of them
as a command, and the lines behind it as answers to the questions of this command (`Turn`). A run is
a row of turns that uses up all lines, each of them once (`Turns`, `run_turns`).

What carries a run from one turn to the next is `Ready`: no replay is going on, and what was shown
last is not the notice that the program may end with.
-/

set_option autoImplicit false

namespace TurtleGraphics.Console

open Terminal (Answers typedLines rawLines)

/-! ## Turns -/

/-- The session once the first waiting line is taken from the queue. -/
def taken (s : Session Terminal) : Session Terminal :=
  { s with user := { s.user with waiting := s.user.waiting.tail } }

/-- The session with a log of the questions, once the command is entered. -/
def entered (command : String) (s : Session Terminal) :
    Except Error (Option String) × Session (Terminal × List Question) :=
  (taken s).withLog.enter Terminal.dialogue.logged command

/-- The questions that were asked in a turn, oldest first, with their answers. -/
def asked (command : String) (s : Session Terminal) : List Question := (entered command s).2.user.2

/-- From `s` to `t` the console takes a command and the answers to the questions it asks. -/
structure Turn (command : String) (answers : List String) (s t : Session Terminal) : Prop where
  /-- The lines come from the front of the queue. -/
  queue : s.user.waiting = command :: (answers ++ t.user.waiting)
  /-- The first of them is entered as a command. -/
  outcome : t = ((taken s).enter Terminal.dialogue command).2
  /-- The log of the questions changes nothing but itself. -/
  log : Session.mapResult Prod.fst (entered command s) =
    (taken s).enter Terminal.dialogue command
  answered : Answers (asked command s) answers t.user.waiting
  /-- If one of the questions was declined, the command has no effect. -/
  declined : ∀ q ∈ asked command s, q.Declines →
    t.drawing = s.drawing ∧ t.history = s.history ∧ t.files = s.files

/-- Turns in a row, until no line is waiting. -/
inductive Turns : List (String × List String) → Session Terminal → Session Terminal → Prop
  | done {s : Session Terminal} (h : s.user.waiting = []) : Turns [] s s
  | next {command : String} {answers : List String} {turns : List (String × List String)}
      {s t u : Session Terminal} (h : Turn command answers s t) (ht : Turns turns t u) :
      Turns ((command, answers) :: turns) s u

/-- All lines that were waiting are used up, in their order. -/
theorem Turns.waiting_eq {turns : List (String × List String)} {s t : Session Terminal}
    (h : Turns turns s t) : s.user.waiting = turns.flatMap fun turn => turn.1 :: turn.2 := by
  induction h with
  | done h => exact h
  | next h _ ih => rw [h.queue, ih, List.flatMap_cons, List.cons_append]

/-! ## One turn -/

/-- Between two turns no replay is going on, and the output does not end in the notice. -/
structure Ready (s : Session Terminal) : Prop where
  config : s.config = .standard
  calm : s.history.replaying = false
  told : ∃ (before : Array String) (message : String),
    s.user.shown = before.push message ∧ Apart message

theorem plainPaths_standard : Session.PlainPaths .standard := by
  constructor
  · simp [Config.standard]
  · simp [Config.standard]

theorem start_ready (files : FileSystem) (terminal : Terminal) :
    Ready (start files terminal) where
  config := rfl
  calm := rfl
  told := by
    refine ⟨terminal.shown, welcome, rfl, .of_ending ?_⟩
    simp [welcome]

theorem step_eq {s : Session Terminal} {line : String} {rest : List String}
    (h : s.user.waiting = line :: rest) :
    step s = ((taken s).enter Terminal.dialogue line).2 := by
  unfold step taken
  rw [h]
  rfl

/-- A waiting line without line feeds starts a turn. -/
theorem step_turn {s : Session Terminal} (hs : Ready s) {line : String} {rest : List String}
    (h : s.user.waiting = line :: rest) : ∃ answers, Turn line answers s (step s) := by
  have hlog : Session.mapResult Prod.fst (entered line s) =
      (taken s).enter Terminal.dialogue line :=
    Session.enter_logged _ _ _
  have hstep : (entered line s).2.mapUser Prod.fst = step s := by
    rw [step_eq h, ← hlog]
    rfl
  obtain ⟨answers, hqueue, hanswers⟩ := Terminal.enter_answers line (taken s)
  have hwaiting : (entered line s).2.user.1.waiting = (step s).user.waiting :=
    congrArg (fun t : Session Terminal => t.user.waiting) hstep
  have htail : (taken s).user.waiting = rest := congrArg List.tail h
  refine ⟨answers, ?_, step_eq h, hlog, ?_, fun q hq hd => ?_⟩
  · rw [h, ← hwaiting, ← htail, hqueue]
    rfl
  · rw [← hwaiting]
    exact hanswers
  · rw [← hstep]
    exact Session.enter_of_declines (s := taken s) Terminal.dialogue hs.calm hd hq

theorem step_ready {s : Session Terminal} (hs : Ready s) {line : String} {rest : List String}
    (h : s.user.waiting = line :: rest) (hl : '\n' ∉ line.toList) : Ready (step s) := by
  rw [step_eq h]
  have hplain : Session.PlainPaths (taken s).config := by
    have hc : (taken s).config = .standard := hs.config
    rw [hc]
    exact plainPaths_standard
  refine ⟨?_, Session.enter_replaying Terminal.dialogue line hs.calm, ?_⟩
  · rw [(Session.enter_leads Terminal.dialogue line (taken s)).config]
    exact hs.config
  · obtain he | ⟨told, user, hm, he⟩ := Session.enter_told Terminal.dialogue hl hplain
    · rw [he]
      exact hs.told
    · rw [he]
      exact ⟨user.shown, told, rfl, hm⟩

/-! ## A run -/

/-- With as many attempts as lines, turn follows turn until all lines are used up. -/
theorem loop_turns {fuel : Nat} {s : Session Terminal} (hs : Ready s)
    (hf : s.user.waiting.length ≤ fuel) (hl : ∀ line ∈ s.user.waiting, '\n' ∉ line.toList) :
    ∃ turns, Turns turns s (loop fuel s) ∧ Ready (loop fuel s) := by
  induction fuel generalizing s with
  | zero => exact ⟨[], .done (List.length_eq_zero_iff.1 (by omega)), hs⟩
  | succ fuel ih =>
    unfold loop
    cases hw : s.user.waiting with
    | nil => exact ⟨[], .done hw, hs⟩
    | cons line rest =>
      simp only [List.isEmpty_cons, Bool.false_eq_true, if_false]
      obtain ⟨answers, hturn⟩ := step_turn hs hw
      have hready : Ready (step s) := step_ready hs hw (hl line (by simp [hw]))
      have hlen : (step s).user.waiting.length ≤ fuel := by
        rw [hturn.queue, List.length_cons, List.length_append] at hf
        omega
      have hrest : ∀ l ∈ (step s).user.waiting, '\n' ∉ l.toList := by
        intro l hm
        refine hl l ?_
        rw [hturn.queue]
        exact List.mem_cons_of_mem _ (List.mem_append_right _ hm)
      obtain ⟨turns, hturns, hlast⟩ := ih hready hlen hrest
      exact ⟨_, .next hturn hturns, hlast⟩

/-- The notice is the last line of the output if something is unsaved, and only then. -/
theorem finish_lastLine {s : Session Terminal} (hs : Ready s) :
    LastLine (stdout (finish s).user.shown) unsavedNotice ↔ s.history.dirty = true := by
  unfold finish
  cases hd : s.history.dirty with
  | true =>
    have hone : '\n' ∉ unsavedNotice.toList := by simp [unsavedNotice]
    exact ⟨fun _ => rfl, fun _ => lastLine_push s.user.shown hone⟩
  | false =>
    obtain ⟨before, message, hshown, hapart⟩ := hs.told
    refine ⟨fun h => ?_, fun h => by cases h⟩
    simp only [Bool.false_eq_true, if_false, hshown] at h
    exact absurd h hapart.not_lastLine

/-- On every input the program comes to its end without failing. The lines in front of the first
one that is no text are used up in turns, each line once and in order, as a command or as an answer
to a question of the command in front of it. A question that finds no line is declined, and a
command with a declined question changes nothing. The output ends in the notice about unsaved
changes if there are some in the end, and only then. -/
theorem run_turns (input : ByteArray) (files : FileSystem) :
    let o := run input files
    ∃ turns last, Turns turns (start files (.ofLines (typedLines input))) last ∧
      turns.flatMap (fun turn => turn.1 :: turn.2) = typedLines input ∧
      (∃ read unread, rawLines input.toList = read ++ unread ∧
        read.map (fun l => String.fromUTF8? ⟨l.toArray⟩) = (typedLines input).map some ∧
        ∀ l ∈ unread.head?, String.fromUTF8? ⟨l.toArray⟩ = none) ∧
      o.exitCode = 0 ∧ o.files = last.files ∧
      (LastLine (stdout o.output) unsavedNotice ↔ last.history.dirty = true) := by
  intro o
  have hl : ∀ line ∈ typedLines input, '\n' ∉ line.toList := fun _ hm =>
    Terminal.lineFeed_not_mem_of_mem_typedLines hm
  obtain ⟨turns, hturns, hready⟩ := loop_turns
    (start_ready files (.ofLines (typedLines input))) (Nat.le_refl _) hl
  have hfiles : ∀ s, (finish s).files = s.files := by
    intro s
    unfold finish
    split <;> rfl
  exact ⟨turns, _, hturns, hturns.waiting_eq.symm, Terminal.validPrefix_spec _, rfl, hfiles _,
    finish_lastLine hready⟩

end TurtleGraphics.Console
