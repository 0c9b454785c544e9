import TurtleGraphics.Proofs.Session.Questions
import TurtleGraphics.Proofs.Session.Rejection
import TurtleGraphics.Proofs.Session.Trace

/-!
# Which questions are asked

What each operation of a session adds to the log of the questions. Reading a line and reporting on
it ask nothing, and neither does an action. A save asks before it replaces a file, unless a script
is replayed (`Saves`). A load asks about unsaved changes, and if the user wants them saved first,
where to save them (`Asks`).
-/

set_option autoImplicit false

namespace TurtleGraphics.Session

variable {σ : Type} (ui : Dialogue σ)

/-! ## Lines -/

theorem hear_logged (text : String) (s : Session (σ × List Question)) :
    ∃ user, s.hear ui.logged text =
      (Command.ofText text, { s with user := (user, s.user.2) }) := by
  unfold hear Command.ofText
  cases Line.read text with
  | error e => exact ⟨s.user.1, rfl⟩
  | ok line =>
    cases line with
    | none => exact ⟨s.user.1, rfl⟩
    | some line =>
      dsimp only
      cases line.notice with
      | none => exact ⟨s.user.1, rfl⟩
      | some notice => exact ⟨_, rfl⟩

theorem report_logged (r : Except Error String × Session (σ × List Question)) :
    ∃ user, report ui.logged r = (r.1.map some, { r.2 with user := (user, r.2.user.2) }) := by
  obtain ⟨outcome, s⟩ := r
  cases outcome with
  | ok message => exact ⟨_, rfl⟩
  | error e => exact ⟨_, rfl⟩

section
variable (loads : Loader (σ × List Question)) {text : String}

theorem enterWith_idle_logged (h : ∀ c, Command.ofText text ≠ .ok (some c))
    (s : Session (σ × List Question)) :
    ∃ user result, s.enterWith ui.logged loads text =
      (result, { s with user := (user, s.user.2) }) := by
  obtain ⟨user, hh⟩ := hear_logged ui text s
  unfold enterWith
  rw [hh]
  cases hc : Command.ofText text with
  | error e => exact ⟨_, _, rfl⟩
  | ok command =>
    cases command with
    | none => exact ⟨_, _, rfl⟩
    | some c => exact absurd hc (h c)

/-- A line asks what its command asks. -/
theorem enterWith_command_logged {c : Command} (h : Command.ofText text = .ok (some c))
    (s : Session (σ × List Question)) :
    ∃ heard told,
      let r := run ui.logged loads (Text.trim text) c { s with user := (heard, s.user.2) }
      s.enterWith ui.logged loads text =
        (r.1.map some, { r.2 with user := (told, r.2.user.2) }) := by
  obtain ⟨heard, hh⟩ := hear_logged ui text s
  obtain ⟨told, ht⟩ := report_logged ui
    (run ui.logged loads (Text.trim text) c { s with user := (heard, s.user.2) })
  refine ⟨heard, told, ?_⟩
  unfold enterWith
  rw [hh, h]
  exact ht

end

theorem act_frame (line : String) (a : Action) (s : Session σ) :
    (s.act line a).2.user = s.user ∧ (s.act line a).2.files = s.files := by
  obtain ⟨e, he⟩ | ⟨-, he⟩ | ⟨-, message, drawing, -, he⟩ := act_cases line a s
  all_goals
    rw [he]
    exact ⟨rfl, rfl⟩

/-- A line that neither saves nor loads asks nothing. -/
theorem enterWith_quiet (loads : Loader (σ × List Question)) {text : String}
    (hs : ∀ kind path, Command.ofText text ≠ .ok (some (.save kind path)))
    (hn : ∀ kind path, Command.ofText text ≠ .ok (some (.load kind path)))
    (s : Session (σ × List Question)) :
    (s.enterWith ui.logged loads text).2.user.2 = s.user.2 := by
  by_cases hc : ∃ c, Command.ofText text = .ok (some c)
  · obtain ⟨c, hc⟩ := hc
    cases c with
    | act a =>
      obtain ⟨heard, told, he⟩ := enterWith_command_logged ui loads hc s
      obtain ⟨hu, -⟩ := act_frame (Text.trim text) a { s with user := (heard, s.user.2) }
      have hlog := congrArg Prod.snd hu
      rw [he]
      exact hlog
    | save kind path => exact absurd hc (hs kind path)
    | load kind path => exact absurd hc (hn kind path)
  · obtain ⟨user, result, he⟩ := enterWith_idle_logged ui loads (fun c h => hc ⟨c, h⟩) s
    rw [he]

/-! ## Saves -/

/-- The question that is asked before a file is written, with its answer. -/
def replaceQuestions (path : Path) (yes : Bool) (s : Session σ) : List Question :=
  if s.files.exists? path && !s.history.replaying then [.replace path yes] else []

theorem mayReplace_logged (path : Path) (s : Session (σ × List Question)) :
    (s.mayReplace ui.logged path).2.user.2 =
      s.user.2 ++ s.replaceQuestions path (s.mayReplace ui.logged path).1 := by
  unfold mayReplace replaceQuestions
  split
  · rfl
  · exact (List.append_nil _).symm

/-- Only a user who was asked declines. -/
theorem asked_of_declined {path : Path} {s : Session σ} (h : (s.mayReplace ui path).1 = false) :
    s.files.exists? path = true ∧ s.history.replaying = false := by
  unfold mayReplace at h
  split at h
  · rename_i hq
    simpa using hq
  · cases h

theorem replaceQuestions_eq {path : Path} {s : Session σ} (he : s.files.exists? path = true)
    (hn : s.history.replaying = false) (yes : Bool) :
    s.replaceQuestions path yes = [.replace path yes] := by
  simp [replaceQuestions, he, hn]

/-- The outcomes of writing `bytes` under `path`, and whether they were written: they were and
nothing is unsaved any more, or only the question has been asked, or the write has failed. -/
inductive Saves (path : Path) (bytes : ByteArray) (s : Session (σ × List Question)) :
    Bool → Session (σ × List Question) → Prop
  | written (user : σ) {files : FileSystem} (hw : s.files.write path bytes = (.ok (), files)) :
      Saves path bytes s true
        { s with
          user := (user, s.user.2 ++ s.replaceQuestions path true)
          files
          history := s.history.markSaved }
  | declined (user : σ) (he : s.files.exists? path = true) (hn : s.history.replaying = false) :
      Saves path bytes s false { s with user := (user, s.user.2 ++ [.replace path false]) }
  | failed (user : σ) {fault : Fault} {files : FileSystem}
      (hw : s.files.write path bytes = (.error fault, files)) :
      Saves path bytes s false
        { s with user := (user, s.user.2 ++ s.replaceQuestions path true), files }

/-- What is said before and after a save takes no part in it. -/
theorem Saves.tell {path : Path} {bytes : ByteArray} {s s' : Session (σ × List Question)}
    {heard : σ} {yes : Bool} (h : Saves path bytes { s with user := (heard, s.user.2) } yes s')
    (told : σ) : Saves path bytes s yes { s' with user := (told, s'.user.2) } := by
  cases h with
  | written _ hw => exact .written told hw
  | declined _ he hn => exact .declined told he hn
  | failed _ hw => exact .failed told hw

/-- A save that came out like this has written its file. -/
def hasWritten : Except Error Bool → Bool
  | .ok saved => saved
  | .error _ => false

theorem saveBytes_saves (path : Path) (bytes : ByteArray) (s : Session (σ × List Question)) :
    Saves path bytes s (hasWritten (s.saveBytes ui.logged path bytes).1)
      (s.saveBytes ui.logged path bytes).2 := by
  obtain ⟨user, files, hm, hw, h⟩ | ⟨user, hm, h⟩ | ⟨user, fault, files, hm, hw, h⟩ :=
    saveBytes_cases ui.logged path bytes s
  all_goals
    obtain ⟨user, asked⟩ := user
    have ha := mayReplace_logged ui path s
    rw [hm] at ha
    dsimp only at ha
    subst ha
    rw [h]
  · exact .written user hw
  · obtain ⟨he, hn⟩ := asked_of_declined ui.logged (congrArg Prod.fst hm)
    rw [replaceQuestions_eq he hn]
    exact .declined user he hn
  · exact .failed user hw

/-- A line that saves, typed or replayed, saves if there is something to write. -/
theorem enterWith_saves (loads : Loader (σ × List Question)) {text : String} {kind : FileKind}
    {path : Option Path} (hc : Command.ofText text = .ok (some (.save kind path)))
    (s : Session (σ × List Question)) :
    (s.contents kind = none ∧ ∃ told,
        (s.enterWith ui.logged loads text).2 = { s with user := (told, s.user.2) }) ∨
      ∃ bytes yes, s.contents kind = some bytes ∧
        Saves (s.saveTarget kind path) bytes s yes (s.enterWith ui.logged loads text).2 := by
  obtain ⟨heard, told, he⟩ := enterWith_command_logged ui loads hc s
  rw [he, run_save]
  have hcontents : contents { s with user := (heard, s.user.2) } kind = s.contents kind := by
    cases kind <;> rfl
  rw [hcontents]
  cases s.contents kind with
  | none => exact .inl ⟨rfl, told, rfl⟩
  | some bytes =>
    have hs := saveBytes_saves ui (s.saveTarget kind path) bytes
      { s with user := (heard, s.user.2) }
    exact .inr ⟨bytes, _, rfl, hs.tell told⟩

/-! ## Unsaved changes -/

/-- The answers by which a user who is asked about unsaved changes keeps them, where saving them
first would write `bytes`, and the files by then. -/
inductive Refuses (question : String) (bytes : ByteArray) (s : Session σ) :
    List Question → FileSystem → Prop
  | cancelled : Refuses question bytes s [.unsaved question .cancel] s.files
  | noPath : Refuses question bytes s
      [.unsaved question .saveFirst, .savePath s.config.scriptPath none] s.files
  | declined {chosen : Path} (he : s.files.exists? (chosen.ensureExtension "txt") = true) :
      Refuses question bytes s
        [.unsaved question .saveFirst, .savePath s.config.scriptPath (some chosen),
          .replace (chosen.ensureExtension "txt") false] s.files
  | failed {chosen : Path} {fault : Fault} {files : FileSystem}
      (hw : s.files.write (chosen.ensureExtension "txt") bytes = (.error fault, files)) :
      Refuses question bytes s
        (.unsaved question .saveFirst :: .savePath s.config.scriptPath (some chosen) ::
          s.replaceQuestions (chosen.ensureExtension "txt") true) files

/-- How a session and its log are left, and whether a load goes on, once the user was asked about
unsaved changes: with the log as the only change, or with the commands saved, or with a write that
has failed. -/
inductive Asks (question : String) (s : Session (σ × List Question)) :
    Bool × Session (σ × List Question) → Prop
  | clean (hd : s.history.dirty = false) : Asks question s (true, s)
  | discarded (hd : s.history.dirty = true) (user : σ) :
      Asks question s (true, { s with user := (user, s.user.2 ++ [.unsaved question .discard]) })
  | saved (hd : s.history.dirty = true) (user : σ) {chosen : Path} {files : FileSystem}
      (hw : s.files.write (chosen.ensureExtension "txt")
        (Script.encode s.history.scriptLines) = (.ok (), files)) :
      Asks question s (true,
        { s with
          user := (user, s.user.2 ++ .unsaved question .saveFirst ::
            .savePath s.config.scriptPath (some chosen) ::
            s.replaceQuestions (chosen.ensureExtension "txt") true)
          files
          history := s.history.markSaved })
  | refused (hd : s.history.dirty = true) (user : σ) {asked : List Question} {files : FileSystem}
      (h : Refuses question (Script.encode s.history.scriptLines) s asked files) :
      Asks question s (false, { s with user := (user, s.user.2 ++ asked), files })

/-- Saving first is a save under the path that the user chose, if they chose one. -/
theorem saveFirst_saves {s : Session (σ × List Question)} {chosen : Path}
    {user : σ × List Question}
    (h : ui.logged.askSavePath s.config.scriptPath s.user = (some chosen, user)) :
    Saves (chosen.ensureExtension "txt") (Script.encode s.history.scriptLines) { s with user }
      (s.saveFirst ui.logged).1 (s.saveFirst ui.logged).2 := by
  have hs := saveBytes_saves ui (chosen.ensureExtension "txt")
    (Script.encode s.history.scriptLines) { s with user }
  unfold saveFirst saveLines
  rw [h]
  dsimp only at hs ⊢
  generalize saveBytes ui.logged _ _ _ = r at hs
  obtain ⟨outcome, s'⟩ := r
  cases outcome with
  | error e => exact hs.tell _
  | ok saved =>
    cases saved with
    | false => exact hs
    | true => exact hs.tell _

/-- Saving first saves the commands, or the user keeps what is unsaved. -/
theorem saveFirst_logged (question : String) (s : Session (σ × List Question)) (user₀ : σ)
    (log : List Question) :
    (∃ user chosen files,
        s.files.write (Path.ensureExtension chosen "txt") (Script.encode s.history.scriptLines) =
          (.ok (), files) ∧
        saveFirst ui.logged { s with user := (user₀, log) } = (true,
          { s with
            user := (user, log ++ .savePath s.config.scriptPath (some chosen) ::
              s.replaceQuestions (chosen.ensureExtension "txt") true)
            files
            history := s.history.markSaved })) ∨
      ∃ user asked files,
        Refuses question (Script.encode s.history.scriptLines) s
          (.unsaved question .saveFirst :: asked) files ∧
        saveFirst ui.logged { s with user := (user₀, log) } =
          (false, { s with user := (user, log ++ asked), files }) := by
  have ha := Dialogue.logged_askSavePath ui s.config.scriptPath (user₀, log)
  generalize ui.askSavePath s.config.scriptPath user₀ = answer at ha
  obtain ⟨chosen, user⟩ := answer
  cases chosen with
  | none =>
    refine .inr ⟨user, [.savePath s.config.scriptPath none], s.files, .noPath, ?_⟩
    unfold saveFirst
    rw [ha]
  | some chosen =>
    have hs := saveFirst_saves ui (s := { s with user := (user₀, log) }) ha
    dsimp only at hs
    generalize saveFirst ui.logged _ = r at hs
    obtain ⟨yes, s'⟩ := r
    cases hs with
    | written user hw =>
      refine .inl ⟨user, chosen, _, hw, ?_⟩
      simp [replaceQuestions]
    | declined user he hn =>
      refine .inr ⟨user, _, s.files, .declined he, ?_⟩
      simp
    | failed user hw =>
      refine .inr ⟨user, _, _, .failed hw, ?_⟩
      simp [replaceQuestions]

theorem mayDiscard_asks (intention : String) (s : Session (σ × List Question)) :
    Asks (unsavedQuestion intention) s (s.mayDiscard ui.logged intention) := by
  unfold mayDiscard
  cases hd : s.history.dirty with
  | false => exact .clean hd
  | true =>
    simp only [if_true]
    rw [Dialogue.logged_askUnsaved]
    generalize ui.askUnsaved (unsavedQuestion intention) s.user.1 = answer
    obtain ⟨decision, user⟩ := answer
    cases decision with
    | discard => exact .discarded hd user
    | cancel => exact .refused hd user .cancelled
    | saveFirst =>
      dsimp only
      obtain ⟨user, chosen, files, hw, h⟩ | ⟨user, asked, files, hr, h⟩ :=
        saveFirst_logged ui (unsavedQuestion intention) s user
          (s.user.2 ++ [.unsaved (unsavedQuestion intention) .saveFirst])
      all_goals rw [h, List.append_assoc]
      · exact .saved hd user hw
      · exact .refused hd user hr

end TurtleGraphics.Session
