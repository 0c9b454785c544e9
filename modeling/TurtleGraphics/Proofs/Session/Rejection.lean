import TurtleGraphics.Proofs.Session.Steps

/-!
# Rejected lines

A line that is rejected leaves drawing and history as they were (`enter_error`). Errors come from
reading the line, from an action, from a save and from a load. An action takes its record back; a
save or a load fails before it has changed anything of the work, though a save that breaks off has
changed a file. Only a load can have done something before it fails: if the user has the commands
saved first, they stay saved.
-/

set_option autoImplicit false

namespace TurtleGraphics.Session

variable {σ : Type}

/-- What a load of a kind is called when the user is asked about it. -/
def intention : FileKind → String
  | .script => "load commands"
  | .image => "load image"

/-- The text loads a file, and the user, asked about unsaved changes, has them saved first. -/
def SavesBeforeLoad (ui : Dialogue σ) (text : String) (s : Session σ) : Prop :=
  s.history.replaying = false ∧ ∃ kind path,
    Command.ofText text = .ok (some (.load kind path)) ∧ SavesFirst ui (intention kind) s

/-- Nothing of the work changed, or the commands were saved and nothing else was done. -/
inductive Leaves (saved : Prop) (s : Session σ) : Session σ → Prop
  | untouched (h : ¬ saved) (user : σ) (files : FileSystem) : Leaves saved s { s with user, files }
  | saved (h : saved) (user : σ) (files : FileSystem) :
      Leaves saved s { s with user, files, history := s.history.markSaved }

theorem Leaves.setUser {saved : Prop} {s s' : Session σ} (h : Leaves saved s s') (user : σ) :
    Leaves saved s { s' with user } := by
  cases h with
  | untouched h _ files => exact .untouched h user files
  | saved h _ files => exact .saved h user files

variable (ui : Dialogue σ)

/-! ## Actions and saves -/

theorem act_error {line : String} {a : Action} {s : Session σ} {e : Error}
    (h : (s.act line a).1 = .error e) : (s.act line a).2 = s := by
  obtain ⟨e', he⟩ | ⟨-, he⟩ | ⟨-, message, drawing, -, he⟩ := act_cases line a s
  all_goals rw [he] at h ⊢
  · cases h
  · cases h

theorem save_error {loads : Loader σ} {line : String} {kind : FileKind} {path : Option Path}
    {s : Session σ} {e : Error} (h : (s.run ui loads line (.save kind path)).1 = .error e) :
    ∃ user files, (s.run ui loads line (.save kind path)).2 = { s with user, files } := by
  obtain ⟨bytes, user, files, -, -, he⟩ | ⟨user, files, outcome, -, -, he⟩ :=
    run_save_cases ui loads line kind path s
  all_goals rw [he] at h ⊢
  · cases h
  · exact ⟨user, files, rfl⟩

/-! ## Loads -/

theorem mayDiscard_leaves (question : String) (s : Session σ) :
    Leaves (SavesFirst ui question s) s (s.mayDiscard ui question).2 := by
  obtain ⟨hs, user, target, files, -, he⟩ | ⟨hs, yes, user, target, files, -, he⟩ :=
    mayDiscard_cases ui question s
  all_goals rw [he]
  · exact .saved hs user files
  · exact .untouched hs user files

/-- A load that fails has only asked about unsaved changes. -/
theorem loadScript_error {path : Option Path} {s : Session σ} {e : Error}
    (h : (s.loadScript ui path).1 = .error e) :
    (s.loadScript ui path).2 = (s.mayDiscard ui (intention .script)).2 := by
  show _ = (s.mayDiscard ui "load commands").2
  obtain ⟨s', ha, he⟩ | ⟨s', e', ha, he⟩ | ⟨s', script, ha, -, he⟩ := loadScript_cases ui path s
  all_goals rw [he] at h ⊢; rw [ha]
  cases h

theorem loadImage_error {path : Option Path} {s : Session σ} {e : Error}
    (h : (s.loadImage ui path).1 = .error e) :
    (s.loadImage ui path).2 = (s.mayDiscard ui (intention .image)).2 := by
  show _ = (s.mayDiscard ui "load image").2
  obtain ⟨s', ha, he⟩ | ⟨s', e', ha, he⟩ | ⟨s', bytes, ha, he⟩ := loadImage_cases ui path s
  all_goals rw [he] at h ⊢; rw [ha]
  cases h

theorem load_error {line text : String} {kind : FileKind} {path : Option Path}
    (hc : Command.ofText text = .ok (some (.load kind path))) {s : Session σ} {e : Error}
    (h : (load ui line kind path s).1 = .error e) :
    Leaves (SavesBeforeLoad ui text s) s (load ui line kind path s).2 := by
  unfold load at h ⊢
  by_cases hr : s.history.replaying = true
  · rw [if_pos hr] at h ⊢
    refine .untouched (fun hs => ?_) s.user s.files
    rw [hs.1] at hr
    cases hr
  · rw [if_neg hr] at h ⊢
    have hiff : SavesFirst ui (intention kind) s ↔ SavesBeforeLoad ui text s := by
      refine ⟨fun hs => ⟨by simpa using hr, kind, path, hc, hs⟩, ?_⟩
      rintro ⟨-, kind', path', hc', hs⟩
      rw [hc] at hc'
      cases hc'
      exact hs
    rw [← hiff]
    cases kind with
    | script =>
      have hl := loadScript_error ui h
      simp only [hl]
      exact mayDiscard_leaves ui _ s
    | image =>
      have hl := loadImage_error ui h
      simp only [hl]
      exact mayDiscard_leaves ui _ s

/-! ## Lines -/

/-- A rejected line has changed nothing of the work, unless the commands were saved in front of a
load. -/
theorem enter_error_leaves {text : String} {s : Session σ} {e : Error}
    (h : (s.enter ui text).1 = .error e) :
    Leaves (SavesBeforeLoad ui text s) s (s.enter ui text).2 := by
  have hother : (∀ kind path, Command.ofText text ≠ .ok (some (.load kind path))) →
      ¬ SavesBeforeLoad ui text s := by
    rintro hne ⟨-, kind, path, hc, -⟩
    exact hne kind path hc
  unfold enter at h ⊢
  by_cases hex : ∃ c, Command.ofText text = .ok (some c)
  · obtain ⟨c, hc⟩ := hex
    cases c with
    | act a =>
      obtain ⟨heard, told, he⟩ := enterWith_command ui (load ui) hc s
      rw [he] at h ⊢
      simp only [run] at h ⊢
      rw [act_error (map_eq_error h)]
      exact .untouched (hother fun kind path hl => by rw [hc] at hl; cases hl) told s.files
    | save kind path =>
      obtain ⟨heard, told, he⟩ := enterWith_command ui (load ui) hc s
      rw [he] at h ⊢
      obtain ⟨user, files, hu⟩ := save_error ui (map_eq_error h)
      rw [hu]
      exact .untouched (hother fun kind path hl => by rw [hc] at hl; cases hl) told files
    | load kind path =>
      obtain ⟨told, he⟩ := enter_load ui hc s
      unfold enter at he
      rw [he] at h ⊢
      exact (load_error ui hc (map_eq_error h)).setUser told
  · obtain ⟨user, result, he⟩ := enterWith_idle ui (load ui) (fun c h => hex ⟨c, h⟩) s
    rw [he]
    exact .untouched (hother fun kind path hc => hex ⟨_, hc⟩) user s.files

/-- A rejected line leaves turtle, canvas, records and the marks of change as they were. Only the
dirty mark can have been cleared: when the user had the commands saved in front of a load and the
load then failed. -/
theorem enter_error {text : String} {s : Session σ} {e : Error}
    (h : (s.enter ui text).1 = .error e) :
    let after := (s.enter ui text).2
    after.drawing = s.drawing ∧
      after.history.records = s.history.records ∧
      after.history.replaying = s.history.replaying ∧
      (¬ SavesBeforeLoad ui text s → after.history.dirty = s.history.dirty) ∧
      (SavesBeforeLoad ui text s → after.history.dirty = false) := by
  intro after
  have hleaves : Leaves (SavesBeforeLoad ui text s) s after := enter_error_leaves ui h
  generalize after = s' at hleaves
  cases hleaves with
  | untouched hn user files => exact ⟨rfl, rfl, rfl, fun _ => rfl, fun hs => absurd hs hn⟩
  | saved hs user files => exact ⟨rfl, rfl, rfl, fun hn => absurd hs hn, fun _ => rfl⟩

/-! ## A load that fails after a save -/

/-- A user who always has the commands saved first, where it is suggested. -/
def savesFirst : Dialogue Unit where
  tell _ user := user
  askUnsaved _ user := (.saveFirst, user)
  showProgress _ _ user := user
  stopRequested _ := false
  clearStop user := user

def unsavedSample : Session Unit :=
  { start .standard (.blank ⟨200, 200⟩) .empty () with
    history := ⟨[⟨"penup", .replay, false⟩], true, false⟩ }

theorem ofText_loadSky : Command.ofText "load image sky.png" =
    .ok (some (.load .image (some ⟨"sky.png"⟩))) := by cbv

theorem enter_error_sample :
    let after := (unsavedSample.enter savesFirst "load image sky.png").2
    (unsavedSample.enter savesFirst "load image sky.png").1 =
        .error (.unreadable ⟨"sky.png"⟩ .notFound) ∧
      SavesBeforeLoad savesFirst "load image sky.png" unsavedSample ∧
      unsavedSample.history.dirty = true ∧ after.history.dirty = false ∧
      after.history.records = unsavedSample.history.records ∧
      after.drawing = unsavedSample.drawing := by
  intro after
  have herror : (unsavedSample.enter savesFirst "load image sky.png").1 =
      .error (.unreadable ⟨"sky.png"⟩ .notFound) := by
    unfold enter enterWith
    rw [hear_load savesFirst ofText_loadSky]
    rfl
  have hsaves : SavesBeforeLoad savesFirst "load image sky.png" unsavedSample :=
    ⟨rfl, .image, _, ofText_loadSky, rfl, (), rfl, rfl⟩
  obtain ⟨hd, hr, -, -, hdirty⟩ := enter_error savesFirst herror
  exact ⟨herror, hsaves, rfl, hdirty hsaves, hr, hd⟩

end TurtleGraphics.Session
