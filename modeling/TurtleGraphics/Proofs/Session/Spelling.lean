import TurtleGraphics.Proofs.Command.Tokenizing
import TurtleGraphics.Proofs.Session.Asking
import TurtleGraphics.Proofs.Session.Loading

/-!
# Spellings of a line

Two lines are spellings of each other if their words stand for one command and their arguments are
the same text; case, aliases and the blanks around and between them may differ. What a session does
with a line depends on its spelling in two places only: an alias is reported first, and the line is
recorded as it was typed (`enter_spelling`). Files are saved and loaded by no alias, so there is no
difference at all for lines that ask questions (`enter_file`); what an action does to the session
depends neither on the user nor on its line (`act_spelling`).

The calls that a session makes on its user are written down by `Dialogue.transcribed`.
-/

set_option autoImplicit false

namespace TurtleGraphics

/-! ## The calls on the user -/

/-- One call of a session on its user. -/
inductive Dialogue.Call where
  | told (text : String)
  | asked (question : Question)
  | progress (i n : Nat)
  | stopCleared
  deriving DecidableEq

namespace Dialogue

variable {σ : Type}

/-- The user with a transcript of all calls, oldest first. -/
def transcribed (ui : Dialogue σ) : Dialogue (σ × List Call) where
  tell text u := (ui.tell text u.1, u.2 ++ [.told text])
  askUnsaved question u :=
    let (decision, user) := ui.askUnsaved question u.1
    (decision, user, u.2 ++ [.asked (.unsaved question decision)])
  showProgress i n u := (ui.showProgress i n u.1, u.2 ++ [.progress i n])
  askReplace path u :=
    let (yes, user) := ui.askReplace path u.1
    (yes, user, u.2 ++ [.asked (.replace path yes)])
  askSavePath suggested u :=
    let (chosen, user) := ui.askSavePath suggested u.1
    (chosen, user, u.2 ++ [.asked (.savePath suggested chosen)])
  stopRequested u := ui.stopRequested u.1
  clearStop u := (ui.clearStop u.1, u.2 ++ [.stopCleared])

theorem transcribed_projects (ui : Dialogue σ) : Projects Prod.fst ui.transcribed ui where
  tell _ _ := rfl
  askUnsaved _ _ := rfl
  showProgress _ _ _ := rfl
  askReplace _ _ := rfl
  askSavePath _ _ := rfl
  stopRequested _ := rfl
  clearStop _ := rfl

end Dialogue

namespace Session

variable {σ : Type} (ui : Dialogue σ)

/-- The session with an empty transcript. -/
def withTranscript (s : Session σ) : Session (σ × List Dialogue.Call) :=
  { s with user := (s.user, []) }

/-- The transcript changes nothing but itself. -/
theorem enter_transcribed (text : String) (s : Session σ) :
    mapResult Prod.fst (s.withTranscript.enter ui.transcribed text) = s.enter ui text :=
  (enter_mapUser ui.transcribed_projects text s.withTranscript).symm

/-! ## Lines that were read -/

/-- The session once the user was told of an alias, if there was one. -/
def noted (l : Line) (s : Session σ) : Session σ :=
  match l.notice with
  | some notice => s.tell ui notice
  | none => s

theorem noted_eq (l : Line) (s : Session σ) :
    s.noted ui l = { s with user := (s.noted ui l).user } := by
  unfold noted
  cases l.notice <;> rfl

theorem noted_congr {l l' : Line} (h : l.notice = l'.notice) (s : Session σ) :
    s.noted ui l = s.noted ui l' := by
  simp only [noted, h]

theorem noted_transcript (l : Line) (s : Session σ) :
    (s.withTranscript.noted ui.transcribed l).user.2 = l.notice.toList.map .told := by
  unfold noted
  cases l.notice <;> rfl

theorem noted_stopRequested (h : ∀ said user, ui.stopRequested (ui.tell said user) =
    ui.stopRequested user) (l : Line) (s : Session σ) :
    ui.stopRequested (s.noted ui l).user = ui.stopRequested s.user := by
  unfold noted
  cases l.notice with
  | none => rfl
  | some notice => exact h notice s.user

theorem enter_of_read {text : String} {l : Line} (h : Line.read text = .ok (some l))
    (s : Session σ) :
    s.enter ui text = match Command.ofLine l with
      | .error e => report ui (.error e, s.noted ui l)
      | .ok c => report ui ((s.noted ui l).run ui (load ui) (Text.trim text) c) := by
  unfold enter enterWith hear noted
  rw [h]
  dsimp only
  cases Command.ofLine l <;> rfl

/-! ## Files -/

/-- The text of a line plays no part in saving and loading. -/
theorem run_file {s : Session σ} (hn : s.history.replaying = false) {c : Command}
    (hc : ¬ ∃ a, c = .act a) (line line' : String) :
    s.run ui (load ui) line c = s.run ui (load ui) line' c := by
  cases c with
  | act a => exact absurd ⟨a, rfl⟩ hc
  | save kind path => cases kind <;> rfl
  | load kind path => simp [run, load, hn]

/-- A line that saves or loads does the same in all spellings. -/
theorem enter_file {text text' : String} {l : Line} (hl : Line.read text = .ok (some l))
    (hl' : Line.read text' = .ok (some l)) (hf : l.keyword = .save ∨ l.keyword = .load)
    {s : Session σ} (hn : s.history.replaying = false) : s.enter ui text = s.enter ui text' := by
  have hnoted : (s.noted ui l).history.replaying = false := by
    rw [noted_eq]
    exact hn
  rw [enter_of_read ui hl, enter_of_read ui hl']
  cases hc : Command.ofLine l with
  | error e => rfl
  | ok c =>
    have hact : ¬ ∃ a, c = .act a := fun h => (Command.exists_act_iff hc).1 h hf
    exact congrArg (report ui) (run_file ui hnoted hact _ _)

/-! ## Actions -/

/-- What two spellings of a line leave of a session: the same but for the user's side and the text
of the record that they have added, if they have added one. -/
structure Spelled (line line' : String) (s t t' : Session σ) : Prop where
  config : t.config = t'.config
  drawing : t.drawing = t'.drawing
  files : t.files = t'.files
  dirty : t.history.dirty = t'.history.dirty
  replaying : t.history.replaying = t'.history.replaying
  records : t.history.records = t'.history.records ∨ ∃ purpose,
    t.history.records = s.history.records ++ [⟨line, purpose, s.history.dirty⟩] ∧
      t'.history.records = s.history.records ++ [⟨line', purpose, s.history.dirty⟩]

theorem Spelled.of_user {line line' : String} (s t : Session σ) (user user' : σ) :
    Spelled line line' s { t with user } { t with user := user' } :=
  ⟨rfl, rfl, rfl, rfl, rfl, .inl rfl⟩

/-- Two outcomes of a line in two spellings, and what the users were told in the end. -/
structure SpelledAlike {α : Type} (line line' : String) (s : Session σ) (user user' : σ)
    (r r' : α × Session σ) : Prop where
  outcome : r.1 = r'.1
  session : Spelled line line' s r.2 r'.2
  told : ∃ message, r.2.user = ui.tell message user ∧ r'.2.user = ui.tell message user'

/-- An action does the same whatever its line is and whoever the user is. -/
theorem act_spelling (line line' : String) (a : Action) (s : Session σ) (user user' : σ) :
    let r := act line a { s with user }
    let r' := act line' a { s with user := user' }
    r.1 = r'.1 ∧ Spelled line line' s r.2 r'.2 ∧ r.2.user = user ∧ r'.2.user = user' := by
  intro r r'
  obtain ⟨hu, -⟩ := act_frame line a { s with user }
  obtain ⟨hu', -⟩ := act_frame line' a { s with user := user' }
  by_cases ha : a = .reset
  · subst ha
    exact ⟨rfl, .of_user s { s with
      drawing := s.drawing.resetTurtle s.config, history := s.history.clear } user user', hu, hu'⟩
  · cases hx : (a.execute s.config s.drawing).1 with
    | error e =>
      have he : r = (.error e, { s with user }) := act_of_error line hx
      have he' : r' = (.error e, { s with user := user' }) := act_of_error line' hx
      rw [he, he']
      exact ⟨rfl, .of_user s s user user', rfl, rfl⟩
    | ok message =>
      have hp : a.execute s.config s.drawing =
          (.ok message, (a.execute s.config s.drawing).2) := Prod.ext hx rfl
      have he : r = _ := act_of_ok line ha hp
      have he' : r' = _ := act_of_ok line' ha hp
      rw [he, he']
      exact ⟨rfl, ⟨rfl, rfl, rfl, rfl, rfl, .inr ⟨a.purpose, rfl, rfl⟩⟩, rfl, rfl⟩

theorem report_spelling {line line' : String} {s : Session σ} {user user' : σ}
    {r r' : Except Error String × Session σ} (ho : r.1 = r'.1) (hs : Spelled line line' s r.2 r'.2)
    (hu : r.2.user = user) (hu' : r'.2.user = user') :
    SpelledAlike ui line line' s user user' (report ui r) (report ui r') := by
  obtain ⟨outcome, t⟩ := r
  obtain ⟨outcome', t'⟩ := r'
  obtain rfl : outcome = outcome' := ho
  subst hu hu'
  cases outcome with
  | ok message =>
    exact ⟨rfl, ⟨hs.config, hs.drawing, hs.files, hs.dirty, hs.replaying, hs.records⟩, _, rfl, rfl⟩
  | error e =>
    exact ⟨rfl, ⟨hs.config, hs.drawing, hs.files, hs.dirty, hs.replaying, hs.records⟩, _, rfl, rfl⟩

/-- A line that neither saves nor loads does the same in all spellings, once the users were told of
the aliases. -/
theorem enter_action {text text' : String} {l l' : Line} (hl : Line.read text = .ok (some l))
    (hl' : Line.read text' = .ok (some l')) (hc : Command.ofLine l = Command.ofLine l')
    (hf : ¬ (l.keyword = .save ∨ l.keyword = .load)) (s : Session σ) :
    SpelledAlike ui (Text.trim text) (Text.trim text') s (s.noted ui l).user (s.noted ui l').user
      (s.enter ui text) (s.enter ui text') := by
  rw [enter_of_read ui hl, enter_of_read ui hl', ← hc, noted_eq ui l, noted_eq ui l']
  cases hx : Command.ofLine l with
  | error e => exact report_spelling ui rfl (.of_user s s _ _) rfl rfl
  | ok c =>
    obtain ⟨a, rfl⟩ := (Command.exists_act_iff hx).2 hf
    obtain ⟨ho, hs, hu, hu'⟩ := act_spelling (Text.trim text) (Text.trim text') a s
      (s.noted ui l).user (s.noted ui l').user
    exact report_spelling ui ho hs hu hu'

/-! ## Spellings -/

/-- Two lines whose words stand for one command and whose arguments are one text have one outcome
and leave the same, but for the text of the record that they add. The calls on the user are the
same but for what is said of an alias, which comes first; so the user's side is the same if the same
is said of the words, and the wish to stop is unless the user takes it from what they are told. -/
theorem enter_spelling {text text' : String} {p p' : Line.Parts} {name : Keyword}
    {typed typed' : Option String} {s : Session σ} (hn : s.history.replaying = false)
    (hp : p.Of text.toList) (hp' : p'.Of text'.toList)
    (hw : Line.Resolves p.lowerWord name typed) (hw' : Line.Resolves p'.lowerWord name typed')
    (hrest : p.rest = p'.rest) :
    let notice := (Line.mk name p.arguments typed).notice
    let notice' := (Line.mk name p'.arguments typed').notice
    let r := s.enter ui text
    let r' := s.enter ui text'
    let transcript := s.withTranscript.enter ui.transcribed text
    let transcript' := s.withTranscript.enter ui.transcribed text'
    r.1 = r'.1 ∧ Spelled (Text.trim text) (Text.trim text') s r.2 r'.2 ∧
      mapResult Prod.fst transcript = r ∧ mapResult Prod.fst transcript' = r' ∧
      (∃ calls, transcript.2.user.2 = notice.toList.map .told ++ calls ∧
        transcript'.2.user.2 = notice'.toList.map .told ++ calls) ∧
      (notice = notice' → r.2.user = r'.2.user) ∧
      ((∀ said user, ui.stopRequested (ui.tell said user) = ui.stopRequested user) →
        ui.stopRequested r.2.user = ui.stopRequested r'.2.user) := by
  intro notice notice' r r' transcript transcript'
  have hl : Line.read text = .ok (some ⟨name, p.arguments, typed⟩) :=
    Line.read_of_reads (.command hp hw)
  have hl' : Line.read text' = .ok (some ⟨name, p'.arguments, typed'⟩) :=
    Line.read_of_reads (.command hp' hw')
  have hargs : p'.arguments = p.arguments := by
    simp only [Line.Parts.arguments, hrest]
  by_cases hf : name = .save ∨ name = .load
  · obtain rfl := hw.typed_of_file hf
    obtain rfl := hw'.typed_of_file hf
    rw [hargs] at hl'
    have hr : r = r' := enter_file ui hl hl' hf hn
    have htranscript : transcript = transcript' := enter_file ui.transcribed hl hl' hf hn
    rw [← hr, ← htranscript]
    exact ⟨rfl, .of_user s r.2 _ _, enter_transcribed ui text s, enter_transcribed ui text s,
      ⟨_, rfl, rfl⟩, fun _ => rfl, fun _ => rfl⟩
  · have hc : Command.ofLine ⟨name, p.arguments, typed⟩ =
        Command.ofLine ⟨name, p'.arguments, typed'⟩ := by
      rw [hargs]
      rfl
    obtain ⟨ho, hs, message, hu, hu'⟩ := enter_action ui hl hl' hc hf s
    obtain ⟨-, -, message', htu, htu'⟩ :=
      enter_action ui.transcribed hl hl' hc hf s.withTranscript
    refine ⟨ho, hs, enter_transcribed ui text s, enter_transcribed ui text' s,
      ⟨[.told message'], ?_, ?_⟩, fun h => ?_, fun htell => ?_⟩
    · rw [htu, ← noted_transcript ui ⟨name, p.arguments, typed⟩ s]
      rfl
    · rw [htu', ← noted_transcript ui ⟨name, p'.arguments, typed'⟩ s]
      rfl
    · rw [hu, hu', noted_congr ui h]
    · rw [hu, hu', htell, htell, noted_stopRequested ui htell, noted_stopRequested ui htell]

def fwdParts : Line.Parts := ⟨"  ".toList, "FWD".toList, "\t".toList, "10".toList, " ".toList⟩

def moveParts : Line.Parts := ⟨[], "move".toList, " ".toList, "10".toList, []⟩

theorem fwdParts_of : fwdParts.Of "  FWD\t10 ".toList := by
  constructor <;> simp [fwdParts] <;> decide

theorem moveParts_of : moveParts.Of "move 10".toList := by
  constructor <;> simp [moveParts] <;> decide

/-- An alias in capitals, with a tab behind it, is as good as the command's own word. -/
theorem enter_spelling_alias :
    let s : Session Nat := start .standard (.blank ⟨200, 200⟩) .empty 0
    let r := s.enter (stopsAfter 9) "  FWD\t10 "
    let r' := s.enter (stopsAfter 9) "move 10"
    s.history.replaying = false ∧ fwdParts.Of "  FWD\t10 ".toList ∧
      moveParts.Of "move 10".toList ∧ Line.Resolves fwdParts.lowerWord .move (some "fwd") ∧
      Line.Resolves moveParts.lowerWord .move none ∧ fwdParts.rest = moveParts.rest ∧
      r.1 = r'.1 ∧ r.2.drawing = r'.2.drawing ∧ r.2.history.dirty = r'.2.history.dirty := by
  intro s r r'
  have hfwd : Line.Resolves fwdParts.lowerWord .move (some "fwd") := by
    have hw : fwdParts.lowerWord = "fwd" := by decide
    rw [hw]
    exact .aliased (by intro other; cases other <;> decide) (by decide)
  have hmove : Line.Resolves moveParts.lowerWord .move none := .own (by decide)
  obtain ⟨ho, hs, -⟩ :=
    enter_spelling (stopsAfter 9) (s := s) rfl fwdParts_of moveParts_of hfwd hmove rfl
  exact ⟨rfl, fwdParts_of, moveParts_of, hfwd, hmove, rfl, ho, hs.drawing, hs.dirty⟩

end Session

end TurtleGraphics
