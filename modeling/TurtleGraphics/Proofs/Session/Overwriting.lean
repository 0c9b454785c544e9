import TurtleGraphics.Proofs.Session.Consent

/-!
# No file is overwritten without consent

Taking a line saves in three ways (`Saving`): the line itself is a save, a load saves unsaved
changes first, or a replayed line is a save. A save writes the lines on record or the picture,
to the path that the user was asked about if there was something to overwrite, and marks the work
as saved only when it has written it (`Stored`). A place in the tree of files that has changed was
written by one of these saves (`saves_consented`), in full or up to where the write broke off.
-/

set_option autoImplicit false

namespace TurtleGraphics.Session

variable {σ : Type}

/-- What the file of a save holds: the lines to replay, each followed by a line feed, or the picture
that the renderer makes of the canvas at that moment. -/
def fileContents (s : Session σ) : FileKind → Option ByteArray
  | .script => some (Script.fileOf s.history.scriptLines)
  | .image => s.drawing.canvas.picture

theorem WellKept.contents_eq {s : Session σ} (hs : s.WellKept) (kind : FileKind) :
    s.contents kind = s.fileContents kind := by
  cases kind with
  | script => exact congrArg some hs.encode_eq
  | image => rfl

/-! ## Saves -/

/-- A save of a kind under a path that is made while `text` is taken in session `s`, with the
sessions before and after it. -/
inductive Saving (ui : Dialogue σ) (text : String) (s : Session σ) :
    FileKind → Path → Session σ → Session σ → Prop
  | typed {kind : FileKind} {path : Option Path}
      (hc : Command.ofText text = .ok (some (.save kind path))) :
      Saving ui text s kind (s.saveTarget kind path) s (s.enter ui text).2
  | first {kind : FileKind} {path : Option Path} {chosen : Path} {user user' : σ}
      (hc : Command.ofText text = .ok (some (.load kind path)))
      (hn : s.history.replaying = false) (hd : s.history.dirty = true)
      (hu : ui.askUnsaved (unsavedQuestion (intention kind)) s.user = (.saveFirst, user))
      (hp : ui.askSavePath s.config.scriptPath user = (some chosen, user')) :
      Saving ui text s .script (chosen.ensureExtension "txt") s
        (s.mayDiscard ui (intention kind)).2
  | replayed {kind : FileKind} {path : Option Path} {line : String} {t : Session σ}
      (hm : (line, t) ∈ s.replayed ui text)
      (hc : Command.ofText line = .ok (some (.save kind path))) :
      Saving ui text s kind (t.saveTarget kind path) t (t.enter ui line).2

/-- Among the questions that were asked is the consent to replace what stands at a path. None is
needed if there is nothing, or in a replay. -/
def Consented (path : Path) (asked : List Question) (before : Session σ) : Prop :=
  before.files.exists? path = true → before.history.replaying = false → .replace path true ∈ asked

/-- What a save has done, where `asked` are the questions: the file is written, and nothing is
unsaved any more; or its write has failed, and the history is what it was; or files and history are
what they were. Nothing is written without consent, not even in part. -/
inductive Stored (kind : FileKind) (path : Path) (asked : List Question)
    (before after : Session σ) : Prop
  | written {bytes : ByteArray} (hb : before.fileContents kind = some bytes)
      (hw : before.files.write path bytes = (.ok (), after.files))
      (hh : after.history = before.history.markSaved) (hq : Consented path asked before)
  | failed {bytes : ByteArray} {fault : Fault} (hb : before.fileContents kind = some bytes)
      (hw : before.files.write path bytes = (.error fault, after.files))
      (hh : after.history = before.history) (hq : Consented path asked before)
  | kept (hf : after.files = before.files) (hh : after.history = before.history)

/-- No consent is needed in a replay. -/
theorem Stored.of_replaying {kind : FileKind} {path : Path} {asked : List Question}
    {before after : Session σ} (h : Stored kind path asked before after)
    (hr : before.history.replaying = true) (asked' : List Question) :
    Stored kind path asked' before after := by
  have hq : Consented path asked' before := fun _ hn => absurd (hr.symm.trans hn) (by simp)
  cases h with
  | written hb hw hh _ => exact .written hb hw hh hq
  | failed hb hw hh _ => exact .failed hb hw hh hq
  | kept hf hh => exact .kept hf hh

section
variable (ui : Dialogue σ) {s : Session (σ × List Question)} {kind : FileKind} {path : Path}
  {before after : Session (σ × List Question)}

/-- If the user wants unsaved changes saved and says where, being asked about them is a save. -/
theorem mayDiscard_saves {intention : String} {chosen : Path} {user user' : σ × List Question}
    (hd : s.history.dirty = true)
    (hu : ui.logged.askUnsaved (unsavedQuestion intention) s.user = (.saveFirst, user))
    (hp : ui.logged.askSavePath s.config.scriptPath user = (some chosen, user')) :
    ∃ yes, Saves (chosen.ensureExtension "txt") (Script.encode s.history.scriptLines)
      { s with user := user' } yes (s.mayDiscard ui.logged intention).2 := by
  have hm : s.mayDiscard ui.logged intention = saveFirst ui.logged { s with user } := by
    unfold mayDiscard
    rw [if_pos hd, hu]
  rw [hm]
  exact ⟨_, saveFirst_saves ui (s := { s with user }) hp⟩

/-- Each save writes its file or fails, or there is nothing to write. -/
theorem Saving.saves {text : String} (h : Saving ui.logged text s kind path before after) :
    (before.contents kind = none ∧ ∃ user, after = { before with user }) ∨
      ∃ user bytes yes, before.contents kind = some bytes ∧
        Saves path bytes { before with user } yes after := by
  have hline : ∀ {line : String} {path : Option Path} (t : Session (σ × List Question)),
      Command.ofText line = .ok (some (.save kind path)) →
      (t.contents kind = none ∧ ∃ user, (t.enter ui.logged line).2 = { t with user }) ∨
        ∃ user bytes yes, t.contents kind = some bytes ∧
          Saves (t.saveTarget kind path) bytes { t with user } yes (t.enter ui.logged line).2 := by
    intro line path t hc
    obtain ⟨hb, told, he⟩ | ⟨bytes, yes, hb, hs⟩ := enterWith_saves ui (load ui.logged) hc t
    · exact .inl ⟨hb, _, he⟩
    · exact .inr ⟨t.user, bytes, yes, hb, hs⟩
  cases h with
  | typed hc => exact hline s hc
  | first _ _ hd hu hp =>
    obtain ⟨yes, hs⟩ := mayDiscard_saves ui hd hu hp
    exact .inr ⟨_, _, yes, rfl, hs⟩
  | replayed _ hc => exact hline before hc

theorem Saves.stored {bytes : ByteArray} {yes : Bool} {user : σ × List Question}
    (h : Saves path bytes { before with user } yes after)
    (hb : before.fileContents kind = some bytes) : Stored kind path after.user.2 before after := by
  have hq : Consented path (user.2 ++ replaceQuestions path true { before with user }) before := by
    intro he hn
    simp [replaceQuestions, he, hn]
  cases h with
  | written _ hw => exact .written hb hw rfl hq
  | declined _ he hn => exact .kept rfl rfl
  | failed _ hw => exact .failed hb hw rfl hq

theorem Saving.stored {text : String} (h : Saving ui.logged text s kind path before after)
    (hk : before.WellKept) : Stored kind path after.user.2 before after := by
  obtain ⟨-, user, rfl⟩ | ⟨user, bytes, yes, hb, hs⟩ := h.saves
  · exact .kept rfl rfl
  · exact hs.stored (hk.contents_eq kind ▸ hb)

end

/-! ## Places that change -/

/-- A save under a path that leads to `place`. It has left `left` in the file there: all that there
was to write, or an initial part of it if the write has failed. -/
structure Wrote (kind : FileKind) (path : Path) (place : Place) (left : ByteArray)
    (before after : Session σ) : Prop where
  write : ∃ bytes outcome, before.fileContents kind = some bytes ∧
    before.files.write path bytes = (outcome, after.files) ∧ FileSystem.LeftBy outcome bytes left
  target : before.files.target path = .ok place
  entry : after.files.entryAt? place = some (.file left)

/-- A place that a save has changed is the one its path leads to. -/
theorem Wrote.of_write {kind : FileKind} {path : Path} {place : Place} {bytes : ByteArray}
    {outcome : Except Fault Unit} {before after : Session σ}
    (hb : before.fileContents kind = some bytes)
    (hw : before.files.write path bytes = (outcome, after.files))
    (hne : after.files.entryAt? place ≠ before.files.entryAt? place) :
    ∃ left, Wrote kind path place left before after := by
  obtain ⟨ht, left, hleft, hentry⟩ := FileSystem.target_of_write hw hne
  exact ⟨left, ⟨bytes, outcome, hb, hw, hleft⟩, ht, hentry⟩

section
variable (ui : Dialogue σ)

/-- A line that loads nothing leaves the files, or it is a save that has written to them. -/
theorem enterWith_files (loads : Loader σ) {line : String}
    (hn : ∀ kind path, Command.ofText line ≠ .ok (some (.load kind path))) (s : Session σ) :
    (s.enterWith ui loads line).2.files = s.files ∨
      ∃ kind path bytes outcome, Command.ofText line = .ok (some (.save kind path)) ∧
        s.contents kind = some bytes ∧
        s.files.write (s.saveTarget kind path) bytes =
          (outcome, (s.enterWith ui loads line).2.files) := by
  by_cases hc : ∃ c, Command.ofText line = .ok (some c)
  · obtain ⟨c, hc⟩ := hc
    obtain ⟨heard, told, he⟩ := enterWith_command ui loads hc s
    rw [he]
    cases c with
    | act a => exact .inl (act_frame (Text.trim line) a { s with user := heard }).2
    | save kind path =>
      have ht := saveTarget_user kind path s heard
      have hcontents := contents_user kind s heard
      obtain ⟨bytes, user, files, hb, hw, h⟩ | ⟨user, files, outcome, hf, -, h⟩ :=
        run_save_cases ui loads (Text.trim line) kind path { s with user := heard }
      all_goals rw [h]
      · rw [hcontents] at hb
        rw [ht] at hw
        exact .inr ⟨kind, path, bytes, _, hc, hb, hw⟩
      · rw [ht] at hf
        obtain rfl | ⟨bytes, fault, hb, hw⟩ := hf
        · exact .inl rfl
        · rw [hcontents] at hb
          exact .inr ⟨kind, path, bytes, _, hc, hb, hw⟩
    | load kind path => exact absurd hc (hn kind path)
  · obtain ⟨user, result, he⟩ := enterWith_idle ui loads (fun c h => hc ⟨c, h⟩) s
    rw [he]
    exact .inl rfl

/-- A place that such a line changes it has written to. -/
theorem enterWith_wrote (loads : Loader σ) {line : String}
    (hn : ∀ kind path, Command.ofText line ≠ .ok (some (.load kind path))) {s : Session σ}
    (hk : s.WellKept) {place : Place}
    (hne : (s.enterWith ui loads line).2.files.entryAt? place ≠ s.files.entryAt? place) :
    ∃ kind path left, Command.ofText line = .ok (some (.save kind path)) ∧
      Wrote kind (s.saveTarget kind path) place left s (s.enterWith ui loads line).2 := by
  obtain hf | ⟨kind, path, bytes, outcome, hc, hb, hw⟩ := enterWith_files ui loads hn s
  · rw [hf] at hne
    exact absurd rfl hne
  · obtain ⟨left, hwrote⟩ := Wrote.of_write (hk.contents_eq kind ▸ hb) hw hne
    exact ⟨kind, path, left, hc, hwrote⟩

/-- A place that a replay has changed was last written by a save among its lines. -/
theorem ReplayStart.wrote (r : ReplayStart σ) {place : Place}
    (hne : (r.fed ui).2.files.entryAt? place ≠ r.session.files.entryAt? place) :
    ∃ line t kind path left, (line, t) ∈ r.carried ui ∧
      Command.ofText line = .ok (some (.save kind path)) ∧
      Wrote kind (t.saveTarget kind path) place left t (t.enter ui line).2 ∧
      (r.fed ui).2.files.entryAt? place = some (.file left) := by
  -- every line leaves the place as the replay found it or as some line wrote it
  have hkeep := r.keeps ui
    (I := fun u => u.files.entryAt? place = r.session.files.entryAt? place ∨
      ∃ line t kind path left, (line, t) ∈ r.carried ui ∧
        Command.ofText line = .ok (some (.save kind path)) ∧
        Wrote kind (t.saveTarget kind path) place left t (t.enter ui line).2 ∧
        u.files.entryAt? place = some (.file left))
    (fun _ _ h => h) (fun _ _ _ h => h) (fun line t hm hl hi => ?_) (.inl rfl)
  · exact hkeep.1.resolve_left hne
  · by_cases hsame : (t.enterWith ui refuseLoad line).2.files.entryAt? place =
        t.files.entryAt? place
    · rwa [← hsame] at hi
    · obtain ⟨kind, path, left, hc, hw⟩ := enterWith_wrote ui refuseLoad
        (Command.ofText_ne_load hl) (r.wellKept ui _ hm) hsame
      have hentry := hw.entry
      rw [← r.enter_of_mem_carried ui hm] at hw
      exact .inr ⟨line, t, kind, path, left, hm, hc, hw, hentry⟩

end

section
variable (ui : Dialogue σ) {place : Place} {s : Session (σ × List Question)}

theorem Saves.wrote {kind : FileKind} {path : Path} {bytes : ByteArray} {yes : Bool}
    {user : σ × List Question} {after : Session (σ × List Question)}
    (h : Saves path bytes { s with user } yes after) (hb : s.fileContents kind = some bytes)
    (hne : after.files.entryAt? place ≠ s.files.entryAt? place) :
    ∃ left, Wrote kind path place left s after := by
  cases h with
  | written _ hw => exact Wrote.of_write hb hw hne
  | declined _ he hn => exact absurd rfl hne
  | failed _ hw => exact Wrote.of_write hb hw hne

theorem enter_loadImage_files {text : String} {path : Option Path}
    (hc : Command.ofText text = .ok (some (.load .image path)))
    (hn : s.history.replaying = false) :
    (s.enter ui.logged text).2.files = (s.mayDiscard ui.logged "load image").2.files := by
  obtain ⟨told, he⟩ := enter_load ui.logged hc s
  rw [he]
  simp only [load, hn, Bool.false_eq_true, if_false]
  obtain ⟨s', hm, hl⟩ | ⟨s', e, hm, hl⟩ | ⟨s', bytes, hm, hl⟩ := loadImage_cases ui.logged path s
  all_goals rw [hl, hm]

/-- Being asked about unsaved changes changes files only if the user wants them saved and says
where. -/
theorem mayDiscard_asked {intention : String}
    (hne : (s.mayDiscard ui.logged intention).2.files ≠ s.files) :
    ∃ chosen user user', s.history.dirty = true ∧
      ui.logged.askUnsaved (unsavedQuestion intention) s.user = (.saveFirst, user) ∧
      ui.logged.askSavePath s.config.scriptPath user = (some chosen, user') := by
  unfold mayDiscard at hne
  cases hd : s.history.dirty with
  | false =>
    rw [hd] at hne
    exact absurd rfl hne
  | true =>
    simp only [hd, if_true] at hne
    generalize ui.logged.askUnsaved (unsavedQuestion intention) s.user = answer at hne ⊢
    obtain ⟨decision, user⟩ := answer
    cases decision with
    | discard => exact absurd rfl hne
    | cancel => exact absurd rfl hne
    | saveFirst =>
      cases hp : ui.logged.askSavePath s.config.scriptPath user with
      | mk chosen user' =>
        cases chosen with
        | some chosen => exact ⟨chosen, user, user', rfl, rfl, hp⟩
        | none =>
          have he : saveFirst ui.logged { s with user := user } =
              (false, { s with user := user' }) := by
            unfold saveFirst
            rw [hp]
          dsimp only at hne
          rw [he] at hne
          exact absurd rfl hne

/-- A place that has changed once a line is taken was last written by one of its saves. -/
theorem enter_wrote {text : String} (hn : s.history.replaying = false) (hk : s.WellKept)
    (hne : (s.enter ui.logged text).2.files.entryAt? place ≠ s.files.entryAt? place) :
    ∃ kind path before after left, Saving ui.logged text s kind path before after ∧
      Wrote kind path place left before after ∧
      (s.enter ui.logged text).2.files.entryAt? place = some (.file left) := by
  by_cases hc : ∃ kind path, Command.ofText text = .ok (some (.load kind path))
  · obtain ⟨kind, path, hc⟩ := hc
    have hfirst : (s.enter ui.logged text).2.files.entryAt? place =
          (s.mayDiscard ui.logged (intention kind)).2.files.entryAt? place →
        ∃ kind path before after left, Saving ui.logged text s kind path before after ∧
          Wrote kind path place left before after ∧
          (s.enter ui.logged text).2.files.entryAt? place = some (.file left) := by
      intro hsame
      rw [hsame] at hne
      obtain ⟨chosen, user, user', hd, hu, hp⟩ :=
        mayDiscard_asked ui fun h => hne (congrArg (FileSystem.entryAt? · place) h)
      obtain ⟨yes, hs⟩ := mayDiscard_saves ui hd hu hp
      obtain ⟨left, hw⟩ := hs.wrote (hk.contents_eq .script).symm hne
      exact ⟨_, _, _, _, left, .first hc hn hd hu hp, hw, hsame.trans hw.entry⟩
    cases kind with
    | image => exact hfirst (by rw [enter_loadImage_files ui hc hn]; rfl)
    | script =>
      cases hr : s.replayStart? ui.logged text with
      | none =>
        obtain ⟨told, outcome, he⟩ := enter_of_no_replayStart hr hc hn
        exact hfirst (by rw [he]; rfl)
      | some r =>
        obtain ⟨-, -, -, hm, -⟩ := replayStart?_eq_some hr
        obtain ⟨told, he⟩ := enter_replayStart hr
        have hfiles : (s.enter ui.logged text).2.files = (r.fed ui.logged).2.files := by
          rw [he]
          rfl
        by_cases hsame : (r.fed ui.logged).2.files.entryAt? place =
            r.session.files.entryAt? place
        · refine hfirst ?_
          rw [hfiles, hsame]
          show _ = (s.mayDiscard ui.logged "load commands").2.files.entryAt? place
          rw [hm]
        · obtain ⟨line, t, kind, path, left, hl, hs, hw, hentry⟩ := r.wrote ui.logged hsame
          rw [← hfiles] at hentry
          rw [← replayed_eq hr] at hl
          exact ⟨kind, _, t, _, left, .replayed hl hs, hw, hentry⟩
  · obtain ⟨kind, path, left, hs, hw⟩ :=
      enterWith_wrote ui.logged (load ui.logged) (fun kind path h => hc ⟨kind, path, h⟩) hk hne
    exact ⟨kind, _, s, _, left, .typed hs, hw, hw.entry⟩

end

/-! ## Declined -/

/-- Whoever agrees to a file being replaced does not decline. -/
theorem not_declines_of_mem_replaceQuestions {path : Path} {s : Session σ} {q : Question}
    (h : q ∈ s.replaceQuestions path true) : ¬ q.Declines := by
  unfold replaceQuestions at h
  split at h
  · rw [List.mem_singleton.1 h]
    simp [Question.Declines]
  · cases h

/-- If the user declines anything while a line is taken, it changes nothing. -/
theorem enter_of_declines (ui : Dialogue σ) {text : String} {s : Session σ}
    (hn : s.history.replaying = false) {q : Question} (hq : q.Declines)
    (h : q ∈ (s.withLog.enter ui.logged text).2.user.2) :
    (s.withLog.enter ui.logged text).2.drawing = s.drawing ∧
      (s.withLog.enter ui.logged text).2.history = s.history ∧
      (s.withLog.enter ui.logged text).2.files = s.files := by
  by_cases hload : ∃ kind path, Command.ofText text = .ok (some (.load kind path))
  · obtain ⟨kind, path, hc⟩ := hload
    obtain ⟨hasked, hcancelled⟩ := enter_load_logged ui hc (s := s.withLog) hn
    have hasks := mayDiscard_asks ui (intention kind) s.withLog
    rw [hasked] at h
    generalize s.withLog.mayDiscard ui.logged (intention kind) = m at hasks h hcancelled
    cases hasks with
    | clean hd => cases h
    | discarded hd user =>
      rw [List.mem_singleton.1 h] at hq
      cases hq
    | saved hd user hw =>
      simp only [withLog, List.nil_append, List.mem_cons] at h
      rcases h with rfl | rfl | h
      · cases hq
      · cases hq
      · exact absurd hq (not_declines_of_mem_replaceQuestions h)
    | refused hd user hr =>
      obtain ⟨told, he⟩ := hcancelled rfl
      rw [he]
      cases hr with
      | failed hw =>
        simp only [withLog, List.nil_append, List.mem_cons] at h
        rcases h with rfl | rfl | h
        · cases hq
        · cases hq
        · exact absurd hq (not_declines_of_mem_replaceQuestions h)
      | _ => exact ⟨rfl, rfl, rfl⟩
  · have hload' := fun kind path h => hload ⟨kind, path, h⟩
    by_cases hsave : ∃ kind path, Command.ofText text = .ok (some (.save kind path))
    · obtain ⟨kind, path, hc⟩ := hsave
      unfold enter at h ⊢
      obtain ⟨-, told, he⟩ | ⟨bytes, yes, -, hs⟩ :=
        enterWith_saves ui (load ui.logged) hc s.withLog
      · rw [he]
        exact ⟨rfl, rfl, rfl⟩
      · generalize (s.withLog.enterWith ui.logged (load ui.logged) text).2 = s' at hs h
        cases hs with
        | written user hw => exact absurd hq (not_declines_of_mem_replaceQuestions h)
        | declined user he hn => exact ⟨rfl, rfl, rfl⟩
        | failed user hw => exact absurd hq (not_declines_of_mem_replaceQuestions h)
    · have hquiet := enterWith_quiet ui (load ui.logged)
        (fun kind path h => hsave ⟨kind, path, h⟩) hload' s.withLog
      unfold enter at h
      rw [hquiet] at h
      cases h

/-- A user who keeps a file has nothing changed. -/
theorem enter_declined (ui : Dialogue σ) {text : String} {s : Session σ}
    (hn : s.history.replaying = false) {path : Path}
    (h : .replace path false ∈ (s.withLog.enter ui.logged text).2.user.2) :
    (s.withLog.enter ui.logged text).2.drawing = s.drawing ∧
      (s.withLog.enter ui.logged text).2.history = s.history ∧
      (s.withLog.enter ui.logged text).2.files = s.files := by
  have hq : (Question.replace path false).Declines := rfl
  exact enter_of_declines ui hn hq h

/-- Taking a line overwrites no file without consent and writes no other. Each of its saves writes
the lines on record, one per line if no line holds a line feed, or the picture of the canvas to the
very path that the user was asked about, if there was something to overwrite and no replay was
going on; and only once this is done nothing is unsaved any more. A place that has changed holds
what one of the saves has written there, which is an initial part if its write has failed. If the
user declines nothing has changed. -/
theorem saves_consented (ui : Dialogue σ) (config : Config) (canvas : Canvas Float)
    (files : FileSystem) (user : σ) (events : List (Event σ)) (text : String) :
    let s := (start config canvas files user).live ui events
    let r := s.withLog.enter ui.logged text
    let asked := r.2.user.2
    mapResult Prod.fst r = s.enter ui text ∧
      (∀ kind path before after, Saving ui.logged text s.withLog kind path before after →
        let lines := before.history.scriptLines
        Stored kind path asked before after ∧ (∀ l ∈ lines, Text.trim l = l) ∧
          ((∀ l ∈ lines, '\n' ∉ l.toList) →
            Script.decode? (Script.fileOf lines) = some ⟨lines⟩)) ∧
      (∀ place, r.2.files.entryAt? place ≠ s.files.entryAt? place →
        ∃ kind path before after left, Saving ui.logged text s.withLog kind path before after ∧
          Wrote kind path place left before after ∧
          r.2.files.entryAt? place = some (.file left)) ∧
      ∀ path, .replace path false ∈ asked →
        r.2.drawing = s.drawing ∧ r.2.history = s.history ∧ r.2.files = s.files := by
  intro s r asked
  have hn : s.history.replaying = false := live_replaying ui events rfl
  have hkept : s.withLog.WellKept := live_wellKept ui config canvas files user events
  refine ⟨enter_logged ui text s, fun kind path before after h => ?_,
    fun place hne => enter_wrote ui hn hkept hne, fun path h => enter_declined ui hn h⟩
  intro lines
  have hlines : before.WellKept → (∀ l ∈ lines, Text.trim l = l) ∧
      ((∀ l ∈ lines, '\n' ∉ l.toList) → Script.decode? (Script.fileOf lines) = some ⟨lines⟩) :=
    fun hk => ⟨fun _ hl => (hk.of_mem_scriptLines hl).1, hk.decode_fileOf⟩
  cases h with
  | typed hc => exact ⟨(Saving.typed hc).stored ui hkept, hlines hkept⟩
  | first hc hn hd hu hp =>
    have hasked := (enter_load_logged ui hc (s := s.withLog) hn).1
    have hs := (Saving.first hc hn hd hu hp).stored ui hkept
    simp only [asked, r, hasked]
    exact ⟨hs, hlines hkept⟩
  | @replayed kind path line t hm hc =>
    obtain ⟨start, -, hcarried⟩ := exists_of_mem_replayed hm
    have hk := start.wellKept ui.logged _ hcarried
    have hs := (Saving.replayed hm hc).stored ui hk
    have hreplaying := start.carried_replaying ui.logged _ hcarried
    exact ⟨hs.of_replaying hreplaying asked, hlines hk⟩

theorem ofText_saveCommands :
    Command.ofText "save commands" = .ok (some (.save .script none)) := by cbv

/-- A save where it is suggested. -/
theorem enter_saveCommands {s : Session Unit} (hc : s.config = .standard) :
    let r := s.saveBytes savesFirst ⟨"turtle_commands.txt"⟩ (Script.encode s.history.scriptLines)
    s.enter savesFirst "save commands" =
      (r.1.map fun saved =>
        some (if saved then savedNotice ⟨"turtle_commands.txt"⟩ else "Save cancelled."), r.2) := by
  intro r
  obtain ⟨heard, told, he⟩ := enterWith_command savesFirst (load savesFirst) ofText_saveCommands s
  have ht : s.scriptTarget none = ⟨"turtle_commands.txt"⟩ := by
    unfold scriptTarget
    rw [hc]
    rfl
  have hrun : run savesFirst (load savesFirst) (Text.trim "save commands") (.save .script none)
      { s with user := heard } = s.saveScript savesFirst none := rfl
  have hs := saveScript_eq savesFirst none s
  rw [ht] at hs
  unfold enter
  rw [he, hrun, hs]
  dsimp only [r]
  generalize s.saveBytes savesFirst _ _ = saved
  obtain ⟨outcome, s'⟩ := saved
  cases outcome with
  | error e => rfl
  | ok saved => rfl

/-- A recorded line with a line feed inside is saved as two lines. A save that finds no space leaves
a file that holds neither what was there nor what was to be written. -/
theorem saves_consented_exceptions :
    (let s := lineSample .empty "penwidth\n2"
      let r := s.enter savesFirst "save commands"
      s.history.scriptLines = ["penwidth\n2"] ∧
        readScript r.2.files ⟨"turtle_commands.txt"⟩ = .ok ⟨["penwidth", "2"]⟩) ∧
      (let s := lineSample fullDisk "penup"
        let r := s.enter savesFirst "save commands"
        s.history.scriptLines = ["penup"] ∧
          r.1 = .error (.unwritable ⟨"turtle_commands.txt"⟩ .noSpace) ∧
          s.files.read ⟨"turtle_commands.txt"⟩ = .ok (Script.encode ["pendown"]) ∧
          r.2.files.read ⟨"turtle_commands.txt"⟩ = .ok .empty) := by
  constructor
  · intro s r
    have hs : s = _ := lineSample_lineFeed .empty
    have hr : r = _ := enter_saveCommands (s := s) (by rw [hs]; rfl)
    rw [hr, hs]
    refine ⟨rfl, ?_⟩
    refine readScript_eq_ok.2 ⟨["turtle_commands.txt"], Script.encode ["penwidth\n2"], rfl, ?_⟩
    rw [Script.decode?_encode_eq, ofText_lineFeed]
  · intro s r
    have hs : s = _ := lineSample_penUp fullDisk
    have hr : r = _ := enter_saveCommands (s := s) (by rw [hs]; rfl)
    rw [hr, hs]
    exact ⟨rfl, rfl, rfl, rfl⟩

end TurtleGraphics.Session
