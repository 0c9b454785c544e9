import TurtleGraphics.Proofs.Command.Reading
import TurtleGraphics.Proofs.Drawing.Refusal
import TurtleGraphics.Session

/-!
# What the operations of a session do

One lemma for each operation says what it can do, by the fields that it changes. What is shown to
the user or asked of them changes the user's side only. A save writes its file and clears the dirty
mark, or is declined, or fails and may have changed the file (`saveBytes_cases`). An action that
fails leaves the session as it was (`act_cases`). Taking a line is reading it, running its command
and telling what came of it (`enterWith_command`).
-/

set_option autoImplicit false

namespace TurtleGraphics.Session

variable {σ : Type} (ui : Dialogue σ)

/-! ## Saving -/

theorem mayReplace_eq (path : Path) (s : Session σ) :
    ∃ yes user, s.mayReplace ui path = (yes, { s with user }) := by
  unfold mayReplace
  split
  · exact ⟨_, _, rfl⟩
  · exact ⟨true, s.user, rfl⟩

/-- A save writes its file and clears the dirty mark if the user agrees and the file can be
written. If the write fails only the user's side and the files may have changed. -/
theorem saveBytes_cases (path : Path) (bytes : ByteArray) (s : Session σ) :
    (∃ user files, s.mayReplace ui path = (true, { s with user }) ∧
        s.files.write path bytes = (.ok (), files) ∧
        s.saveBytes ui path bytes =
          (.ok true, { s with user, files, history := s.history.markSaved })) ∨
      (∃ user, s.mayReplace ui path = (false, { s with user }) ∧
        s.saveBytes ui path bytes = (.ok false, { s with user })) ∨
      ∃ user fault files, s.mayReplace ui path = (true, { s with user }) ∧
        s.files.write path bytes = (.error fault, files) ∧
        s.saveBytes ui path bytes =
          (.error (.unwritable path fault), { s with user, files }) := by
  obtain ⟨yes, user, hm⟩ := mayReplace_eq ui path s
  unfold saveBytes
  rw [hm]
  cases yes with
  | false => exact .inr (.inl ⟨user, rfl, rfl⟩)
  | true =>
    simp only [writeFile]
    cases hw : s.files.write path bytes with
    | mk outcome files =>
      cases outcome with
      | ok => exact .inl ⟨user, files, rfl, rfl, rfl⟩
      | error fault => exact .inr (.inr ⟨user, fault, files, rfl, rfl, rfl⟩)

theorem savedNotice_ne_cancelled (path : Path) : savedNotice path ≠ "Save cancelled." := by
  intro h
  have hs : savedNotice path = "Commands saved to " ++ path.text := rfl
  rw [hs] at h
  have hh := congrArg (fun t : String => t.toList.head?) h
  rw [String.toList_append] at hh
  cases hh

/-- The path that a save of commands writes to. -/
def scriptTarget (path : Option Path) (s : Session σ) : Path :=
  (path.getD s.config.scriptPath).ensureExtension "txt"

theorem saveScript_eq (path : Option Path) (s : Session σ) :
    s.saveScript ui path =
      let r := s.saveBytes ui (s.scriptTarget path) (Script.encode s.history.scriptLines)
      (r.1.map fun saved =>
        if saved then savedNotice (s.scriptTarget path) else "Save cancelled.", r.2) := by
  unfold saveScript saveLines scriptTarget
  dsimp only
  generalize s.saveBytes ui _ _ = r
  obtain ⟨outcome, s'⟩ := r
  cases outcome with
  | error e => rfl
  | ok saved => cases saved <;> rfl

/-- The path that a save of the image writes to. -/
def imageTarget (path : Option Path) (s : Session σ) : Path :=
  (path.getD s.config.imagePath).ensureExtension "png"

theorem saveImage_eq (path : Option Path) (s : Session σ) :
    s.saveImage ui path =
      match s.drawing.canvas.picture with
      | none => (.error .noPicture, s)
      | some bytes =>
        let r := s.saveBytes ui (s.imageTarget path) bytes
        (r.1.map fun saved =>
          if saved then s!"Image saved as {(s.imageTarget path).text}"
          else "Image save cancelled.", r.2) := by
  unfold saveImage imageTarget
  cases s.drawing.canvas.picture with
  | none => rfl
  | some bytes =>
    dsimp only
    generalize s.saveBytes ui _ _ = r
    obtain ⟨outcome, s'⟩ := r
    cases outcome with
    | error e => rfl
    | ok saved => cases saved <;> rfl

/-- What a save of a kind writes, if there is anything to write. -/
def contents (s : Session σ) : FileKind → Option ByteArray
  | .script => some (Script.encode s.history.scriptLines)
  | .image => s.drawing.canvas.picture

/-- The path that a save of a kind writes to. -/
def saveTarget (kind : FileKind) (path : Option Path) (s : Session σ) : Path :=
  match kind with
  | .script => s.scriptTarget path
  | .image => s.imageTarget path

/-- What is reported of a save, done or declined. -/
def saveNotice (kind : FileKind) (path : Path) (saved : Bool) : String :=
  match kind with
  | .script => if saved then savedNotice path else "Save cancelled."
  | .image => if saved then s!"Image saved as {path.text}" else "Image save cancelled."

/-- A save that was declined is not reported as done. -/
theorem saveNotice_ne (kind : FileKind) (path : Path) :
    saveNotice kind path false ≠ saveNotice kind path true := by
  cases kind with
  | script => exact (savedNotice_ne_cancelled path).symm
  | image =>
    intro h
    have hs : saveNotice .image path true = "Image saved as " ++ path.text := rfl
    have hd : saveNotice .image path false = "Image save cancelled." := rfl
    rw [hs, hd] at h
    have hh := congrArg (fun t : String => t.toList.take 11) h
    rw [String.toList_append, List.take_append_of_le_length (by decide)] at hh
    exact absurd hh (by decide)

/-- A save writes what there is to write. -/
theorem run_save (loads : Loader σ) (line : String) (kind : FileKind) (path : Option Path)
    (s : Session σ) :
    s.run ui loads line (.save kind path) =
      match s.contents kind with
      | none => (.error .noPicture, s)
      | some bytes =>
        let r := s.saveBytes ui (s.saveTarget kind path) bytes
        (r.1.map (saveNotice kind (s.saveTarget kind path)), r.2) := by
  cases kind with
  | script => exact saveScript_eq ui path s
  | image => exact saveImage_eq ui path s

@[simp] theorem saveTarget_user (kind : FileKind) (path : Option Path) (s : Session σ) (user : σ) :
    saveTarget kind path { s with user } = s.saveTarget kind path := by
  cases kind <;> rfl

@[simp] theorem contents_user (kind : FileKind) (s : Session σ) (user : σ) :
    contents { s with user } kind = s.contents kind := by
  cases kind <;> rfl

/-- The files after a save under a path that is not done: they are as they were, or as a write has
left them that failed. -/
def Unwritten (kind : FileKind) (path : Path) (s : Session σ) (files : FileSystem) : Prop :=
  files = s.files ∨ ∃ bytes fault, s.contents kind = some bytes ∧
    s.files.write path bytes = (.error fault, files)

/-- A save writes its file, clears the dirty mark and says so, or changes nothing but the user's
side and says something else. A write that fails may also have changed the file. -/
theorem run_save_cases (loads : Loader σ) (line : String) (kind : FileKind) (path : Option Path)
    (s : Session σ) :
    (∃ bytes user files, s.contents kind = some bytes ∧
        s.files.write (s.saveTarget kind path) bytes = (.ok (), files) ∧
        s.run ui loads line (.save kind path) =
          (.ok (saveNotice kind (s.saveTarget kind path) true),
            { s with user, files, history := s.history.markSaved })) ∨
      ∃ user files outcome, Unwritten kind (s.saveTarget kind path) s files ∧
        outcome ≠ .ok (saveNotice kind (s.saveTarget kind path) true) ∧
        s.run ui loads line (.save kind path) = (outcome, { s with user, files }) := by
  rw [run_save]
  cases hb : s.contents kind with
  | none => exact .inr ⟨s.user, s.files, .error .noPicture, .inl rfl, by simp, rfl⟩
  | some bytes =>
    obtain ⟨user, files, -, hw, h⟩ | ⟨user, -, h⟩ | ⟨user, fault, files, -, hw, h⟩ :=
      saveBytes_cases ui (s.saveTarget kind path) bytes s
    all_goals simp only [h]
    · exact .inl ⟨bytes, user, files, rfl, hw, rfl⟩
    · exact .inr ⟨user, s.files, .ok _, .inl rfl,
        fun hs => saveNotice_ne kind _ (Except.ok.inj hs), rfl⟩
    · exact .inr ⟨user, files, .error _, .inr ⟨bytes, fault, hb, hw⟩, by simp, rfl⟩

/-! ## Unsaved changes -/

theorem saveFirst_cases (s : Session σ) :
    (∃ user target files,
        s.files.write target (Script.encode s.history.scriptLines) = (.ok (), files) ∧
        s.saveFirst ui = (true, { s with user, files, history := s.history.markSaved })) ∨
      ∃ user target files, Unwritten .script target s files ∧
        s.saveFirst ui = (false, { s with user, files }) := by
  unfold saveFirst
  cases ui.askSavePath s.config.scriptPath s.user with
  | mk chosen user =>
    cases chosen with
    | none => exact .inr ⟨user, s.config.scriptPath, s.files, .inl rfl, rfl⟩
    | some chosen =>
      simp only [saveLines]
      obtain ⟨u, files, -, hw, h⟩ | ⟨u, -, h⟩ | ⟨u, fault, files, -, hw, h⟩ :=
        saveBytes_cases ui (chosen.ensureExtension "txt") (Script.encode s.history.scriptLines)
          { s with user := user }
      all_goals simp only [h]
      · exact .inl ⟨_, _, files, hw, rfl⟩
      · exact .inr ⟨u, chosen, s.files, .inl rfl, rfl⟩
      · exact .inr ⟨_, _, files, .inr ⟨_, fault, rfl, hw⟩, rfl⟩

/-- Asked about unsaved changes, the user wants them saved first, and they are. -/
def SavesFirst (intention : String) (s : Session σ) : Prop :=
  s.history.dirty = true ∧
    ∃ user, ui.askUnsaved (unsavedQuestion intention) s.user = (.saveFirst, user) ∧
      (saveFirst ui { s with user := user }).1 = true

/-- Being asked about unsaved changes changes the user's side only, unless they are saved or their
save fails. -/
theorem mayDiscard_cases (intention : String) (s : Session σ) :
    (SavesFirst ui intention s ∧ ∃ user target files,
        s.files.write target (Script.encode s.history.scriptLines) = (.ok (), files) ∧
        s.mayDiscard ui intention =
          (true, { s with user, files, history := s.history.markSaved })) ∨
      (¬ SavesFirst ui intention s ∧ ∃ yes user target files, Unwritten .script target s files ∧
        s.mayDiscard ui intention = (yes, { s with user, files })) := by
  have hasked : ∀ (yes : Bool) (u : σ), ∃ user target files, Unwritten .script target s files ∧
      (yes, ({ s with user := u } : Session σ)) = (yes, { s with user, files }) :=
    fun _ u => ⟨u, s.config.scriptPath, s.files, .inl rfl, rfl⟩
  unfold mayDiscard
  cases hd : s.history.dirty with
  | false =>
    refine .inr ⟨fun h => ?_, true, hasked true s.user⟩
    rw [h.1] at hd
    cases hd
  | true =>
    simp only [if_true]
    cases ha : ui.askUnsaved (unsavedQuestion intention) s.user with
    | mk decision user =>
      have hne : decision ≠ .saveFirst → ¬ SavesFirst ui intention s := by
        rintro hne ⟨-, u, hu, -⟩
        rw [ha] at hu
        exact hne (congrArg Prod.fst hu)
      cases decision with
      | discard => exact .inr ⟨hne (by decide), true, hasked true user⟩
      | cancel => exact .inr ⟨hne (by decide), false, hasked false user⟩
      | saveFirst =>
        dsimp only
        obtain ⟨u, target, files, hw, h⟩ | ⟨u, target, files, hf, h⟩ :=
          saveFirst_cases ui { s with user := user }
        · exact .inl ⟨⟨hd, user, ha, by rw [h]⟩, u, target, files, hw, h⟩
        · refine .inr ⟨?_, false, u, target, files, hf, h⟩
          rintro ⟨-, u', hu, ht⟩
          rw [ha] at hu
          cases hu
          rw [h] at ht
          cases ht

/-! ## Actions -/

theorem act_reset (line : String) (s : Session σ) :
    s.act line .reset = (.ok (Action.message .reset),
      { s with drawing := s.drawing.resetTurtle s.config, history := s.history.clear }) := rfl

section
variable (line : String) {a : Action} {s : Session σ}

theorem act_of_ok (ha : a ≠ .reset) {message : String} {drawing : Drawing}
    (hx : a.execute s.config s.drawing = (.ok message, drawing)) :
    s.act line a = (.ok message, { s with drawing, history := s.history.add line a.purpose }) := by
  unfold act
  rw [if_neg ha, hx]

/-- A refused action leaves the drawing, and its record is taken back. -/
theorem act_of_error {e : Error} (hx : (a.execute s.config s.drawing).1 = .error e) :
    s.act line a = (.error e, s) := by
  have ha : a ≠ .reset := by
    rintro rfl
    cases hx
  have hd : (a.execute s.config s.drawing).2 = s.drawing := Action.execute_error hx
  have hp : a.execute s.config s.drawing = (.error e, s.drawing) := Prod.ext hx hd
  unfold act
  rw [if_neg ha, hp]
  simp only [History.undo_add]

end

/-- An action that fails changes nothing; one that succeeds is recorded, or starts a new history
if it is a reset. -/
theorem act_cases (line : String) (a : Action) (s : Session σ) :
    (∃ e, s.act line a = (.error e, s)) ∨
      (a = .reset ∧ s.act line a = (.ok a.message,
        { s with drawing := s.drawing.resetTurtle s.config, history := s.history.clear })) ∨
      (a ≠ .reset ∧ ∃ message drawing, a.execute s.config s.drawing = (.ok message, drawing) ∧
        s.act line a =
          (.ok message, { s with drawing, history := s.history.add line a.purpose })) := by
  by_cases ha : a = .reset
  · subst ha
    exact .inr (.inl ⟨rfl, act_reset line s⟩)
  · cases hx : (a.execute s.config s.drawing).1 with
    | error e => exact .inl ⟨e, act_of_error line hx⟩
    | ok message =>
      have hp : a.execute s.config s.drawing =
          (.ok message, (a.execute s.config s.drawing).2) := Prod.ext hx rfl
      exact .inr (.inr ⟨ha, message, _, hp, act_of_ok line ha hp⟩)

/-! ## Lines -/

theorem report_eq (r : Except Error String × Session σ) :
    ∃ user, report ui r = (r.1.map some, { r.2 with user }) := by
  obtain ⟨outcome, s⟩ := r
  cases outcome with
  | ok message => exact ⟨_, rfl⟩
  | error e => exact ⟨_, rfl⟩

theorem hear_eq (text : String) (s : Session σ) :
    ∃ user, s.hear ui text = (Command.ofText text, { s with user }) := by
  unfold hear Command.ofText
  cases Line.read text with
  | error e => exact ⟨s.user, rfl⟩
  | ok line =>
    cases line with
    | none => exact ⟨s.user, rfl⟩
    | some line =>
      dsimp only
      cases line.notice with
      | none => exact ⟨s.user, rfl⟩
      | some notice => exact ⟨_, rfl⟩

/-- Nothing is said of a line when it is read, unless its word was an alias. -/
theorem hear_of_read {text : String} {l : Line} {c : Command}
    (hl : Line.read text = .ok (some l)) (hn : l.notice = none) (hc : Command.ofLine l = .ok c)
    (s : Session σ) : s.hear ui text = (.ok (some c), s) := by
  unfold hear
  rw [hl]
  simp only [hn, hc]
  rfl

theorem hear_load {text : String} {kind : FileKind} {path : Option Path}
    (h : Command.ofText text = .ok (some (.load kind path))) (s : Session σ) :
    s.hear ui text = (.ok (some (.load kind path)), s) := by
  obtain ⟨l, hl, hc⟩ := Command.ofText_eq_ok h
  have hn := Line.notice_of_load hl (Command.keyword_of_ofLine_load hc)
  exact hear_of_read ui hl hn hc s

section
variable (loads : Loader σ)

/-- A line that is not understood, or is blank, does nothing. -/
theorem enterWith_idle {text : String} (h : ∀ c, Command.ofText text ≠ .ok (some c))
    (s : Session σ) :
    ∃ user result, s.enterWith ui loads text = (result, { s with user }) := by
  obtain ⟨user, hh⟩ := hear_eq ui text s
  unfold enterWith
  rw [hh]
  cases hc : Command.ofText text with
  | error e => exact ⟨_, _, rfl⟩
  | ok command =>
    cases command with
    | none => exact ⟨_, _, rfl⟩
    | some c => exact absurd hc (h c)

/-- A line is read, its command is run and the user is told what came of it. -/
theorem enterWith_command {text : String} {c : Command} (h : Command.ofText text = .ok (some c))
    (s : Session σ) :
    ∃ heard told, s.enterWith ui loads text =
      ((run ui loads (Text.trim text) c { s with user := heard }).1.map some,
        { (run ui loads (Text.trim text) c { s with user := heard }).2 with user := told }) := by
  obtain ⟨heard, hh⟩ := hear_eq ui text s
  obtain ⟨told, ht⟩ := report_eq ui (run ui loads (Text.trim text) c { s with user := heard })
  refine ⟨heard, told, ?_⟩
  unfold enterWith
  rw [hh, h]
  exact ht

end

/-! ## Replayed lines -/

theorem feedAll_cons (line : String) (rest : List String) (i : Nat) (sum : Tally)
    (s : Session σ) :
    (asTarget ui).feedAll (line :: rest) i sum s =
      if ui.stopRequested s.user then ({ sum with cancelled := true }, s)
      else
        let fed := (asTarget ui).feed line sum
          { s with user := ui.showProgress i sum.total s.user }
        (asTarget ui).feedAll rest (i + 1) fed.1 fed.2 := rfl

theorem feed_load {line : String} (h : Line.isLoad line = true) (sum : Tally) (s : Session σ) :
    (asTarget ui).feed line sum s =
      ({ sum with skipped := sum.skipped + 1 }, s.tell ui (skipNotice line)) := by
  unfold ReplayTarget.feed
  rw [if_pos h]
  rfl

/-- A replayed line that does not load is taken like a typed one, and counted. -/
theorem feed_line {line : String} (h : Line.isLoad line = false) (sum : Tally) (s : Session σ) :
    (asTarget ui).feed line sum s =
      (if (s.enterWith ui refuseLoad line).1.isOk then { sum with applied := sum.applied + 1 }
        else { sum with failed := sum.failed + 1 },
        (s.enterWith ui refuseLoad line).2) := by
  unfold ReplayTarget.feed
  rw [if_neg (by simp [h])]
  simp only [asTarget]
  cases s.enterWith ui refuseLoad line with
  | mk outcome s' =>
    cases outcome with
    | ok message => rfl
    | error e => rfl

/-- A line that is taken is counted, and the replay goes on behind it. -/
theorem feedAll_applied {line : String} (hl : Line.isLoad line = false) {rest : List String}
    {i : Nat} {sum : Tally} {s s' : Session σ} {message : Option String}
    (hstop : ui.stopRequested s.user = false)
    (hw : enterWith ui refuseLoad line { s with user := ui.showProgress i sum.total s.user } =
      (.ok message, s')) :
    (asTarget ui).feedAll (line :: rest) i sum s =
      (asTarget ui).feedAll rest (i + 1) { sum with applied := sum.applied + 1 } s' := by
  rw [feedAll_cons, hstop, if_neg Bool.false_ne_true, feed_line ui hl, hw]
  rfl

/-! ## Loading -/

/-- The replay that a load makes of the script it has read from a path. -/
def replayFile (path : Path) (script : Script) (s : Session σ) : Tally × Session σ :=
  (s.tell ui (loadingNotice path)).replay ui script

/-- A load of a script stops at the question about unsaved changes, or at a file that cannot be
read, or replays the file. -/
theorem loadScript_cases (path : Option Path) (s : Session σ) :
    (∃ s', s.mayDiscard ui "load commands" = (false, s') ∧
        s.loadScript ui path = (.ok "Load commands cancelled.", s')) ∨
      (∃ s' e, s.mayDiscard ui "load commands" = (true, s') ∧
        s.loadScript ui path = (.error e, s')) ∨
      ∃ s' script, s.mayDiscard ui "load commands" = (true, s') ∧
        readScript s'.files (path.getD s'.config.scriptPath) = .ok script ∧
        s.loadScript ui path =
          (.ok (replayNotice (path.getD s'.config.scriptPath)
            (s'.replayFile ui (path.getD s'.config.scriptPath) script).1),
            (s'.replayFile ui (path.getD s'.config.scriptPath) script).2) := by
  unfold loadScript
  cases hm : s.mayDiscard ui "load commands" with
  | mk yes s' =>
    cases yes with
    | false => exact .inl ⟨s', rfl, rfl⟩
    | true =>
      dsimp only
      cases hr : readScript s'.files (path.getD s'.config.scriptPath) with
      | error e => exact .inr (.inl ⟨s', e, rfl, rfl⟩)
      | ok script => exact .inr (.inr ⟨s', script, rfl, hr, rfl⟩)

/-- What is reported of an image that was loaded. -/
def loadedNotice (path : Path) : String := s!"Loaded image '{path.text}' as background."

theorem loadedNotice_ne_cancelled (path : Path) : loadedNotice path ≠ "Load image cancelled." := by
  intro h
  have hs : loadedNotice path = "Loaded image '" ++ path.text ++ "' as background." := rfl
  rw [hs] at h
  have hh := congrArg (fun t : String => t.toList[4]?) h
  simp only [String.toList_append, List.append_assoc] at hh
  cases hh

/-- A load of an image stops at the question about unsaved changes, or at a file that cannot be
read, or sets the background of a canvas and a history that start anew. -/
theorem loadImage_cases (path : Option Path) (s : Session σ) :
    (∃ s', s.mayDiscard ui "load image" = (false, s') ∧
        s.loadImage ui path = (.ok "Load image cancelled.", s')) ∨
      (∃ s' e, s.mayDiscard ui "load image" = (true, s') ∧
        s.loadImage ui path = (.error e, s')) ∨
      ∃ s' bytes, s.mayDiscard ui "load image" = (true, s') ∧
        s.loadImage ui path = (.ok (loadedNotice (path.getD s'.config.imagePath)),
          { s' with
            drawing :=
              { s'.drawing.clearCanvas.resetTurtle s'.config with
                canvas :=
                  (s'.drawing.clearCanvas.resetTurtle s'.config).canvas.setBackground bytes }
            history := s'.history.clear }) := by
  unfold loadImage
  cases hm : s.mayDiscard ui "load image" with
  | mk yes s' =>
    cases yes with
    | false => exact .inl ⟨s', rfl, rfl⟩
    | true =>
      dsimp only
      cases hr : s'.files.read (path.getD s'.config.imagePath) with
      | error fault => exact .inr (.inl ⟨s', _, rfl, rfl⟩)
      | ok bytes => exact .inr (.inr ⟨s', bytes, rfl, rfl⟩)

/-- A line that loads does what the load does, and the user is told what came of it. -/
theorem enter_load {text : String} {kind : FileKind} {path : Option Path}
    (hc : Command.ofText text = .ok (some (.load kind path))) (s : Session σ) :
    ∃ told, s.enter ui text =
      ((load ui (Text.trim text) kind path s).1.map some,
        { (load ui (Text.trim text) kind path s).2 with user := told }) := by
  unfold enter enterWith
  rw [hear_load ui hc]
  exact report_eq ui (load ui (Text.trim text) kind path s)

/-- A load that may drop the current work and can read its file replays the file. -/
theorem enter_loadScript {text : String} {path : Option Path} {s s' : Session σ} {script : Script}
    (hn : s.history.replaying = false)
    (hc : Command.ofText text = .ok (some (.load .script path)))
    (hask : s.mayDiscard ui "load commands" = (true, s'))
    (hr : readScript s'.files (path.getD s'.config.scriptPath) = .ok script) :
    let loaded := s'.replayFile ui (path.getD s'.config.scriptPath) script
    ∃ user, s.enter ui text =
      (.ok (some (replayNotice (path.getD s'.config.scriptPath) loaded.1)),
        { loaded.2 with user }) := by
  intro loaded
  have hl : s.loadScript ui path =
      (.ok (replayNotice (path.getD s'.config.scriptPath) loaded.1), loaded.2) := by
    unfold loadScript
    dsimp only
    rw [hask]
    dsimp only
    rw [hr]
    rfl
  unfold enter enterWith
  rw [hear_load ui hc]
  simp only [run, load, hn, Bool.false_eq_true, if_false, hl]
  exact ⟨_, rfl⟩

end TurtleGraphics.Session
