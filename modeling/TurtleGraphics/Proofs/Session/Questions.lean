import TurtleGraphics.Proofs.Session.Steps

/-!
# What the user is asked

`Dialogue.logged ui` reacts as `ui` does and keeps a log of the questions with their answers. The
log is for theorems: it takes no part in anything else, so a session under `ui.logged` is the
session under `ui` once the log is dropped (`enter_logged`). That is one case of a general fact: if
one user reacts on a part of their state as another one does (`Dialogue.Projects`), every operation
of a session commutes with forgetting the rest of the state.
-/

set_option autoImplicit false

namespace TurtleGraphics

/-- A question to the user, and how it was answered. -/
inductive Question where
  | unsaved (question : String) (decision : Decision)
  | savePath (suggested : Path) (chosen : Option Path)
  | replace (path : Path) (yes : Bool)
  deriving DecidableEq

/-- The answer keeps what the question is about. -/
def Question.Declines : Question → Prop
  | .unsaved _ decision => decision = .cancel
  | .savePath _ chosen => chosen = none
  | .replace _ yes => yes = false

namespace Dialogue

variable {σ τ : Type}

/-- The user with a log of the questions, oldest first. -/
def logged (ui : Dialogue σ) : Dialogue (σ × List Question) where
  tell text u := (ui.tell text u.1, u.2)
  askUnsaved question u :=
    let (decision, user) := ui.askUnsaved question u.1
    (decision, user, u.2 ++ [.unsaved question decision])
  showProgress i n u := (ui.showProgress i n u.1, u.2)
  askReplace path u :=
    let (yes, user) := ui.askReplace path u.1
    (yes, user, u.2 ++ [.replace path yes])
  askSavePath suggested u :=
    let (chosen, user) := ui.askSavePath suggested u.1
    (chosen, user, u.2 ++ [.savePath suggested chosen])
  stopRequested u := ui.stopRequested u.1
  clearStop u := (ui.clearStop u.1, u.2)

theorem logged_askUnsaved (ui : Dialogue σ) (question : String) (u : σ × List Question) :
    ui.logged.askUnsaved question u =
      ((ui.askUnsaved question u.1).1, (ui.askUnsaved question u.1).2,
        u.2 ++ [.unsaved question (ui.askUnsaved question u.1).1]) := rfl

theorem logged_askSavePath (ui : Dialogue σ) (suggested : Path) (u : σ × List Question) :
    ui.logged.askSavePath suggested u =
      ((ui.askSavePath suggested u.1).1, (ui.askSavePath suggested u.1).2,
        u.2 ++ [.savePath suggested (ui.askSavePath suggested u.1).1]) := rfl

/-- On the part `f` of their state `big` reacts as `ui` does. -/
structure Projects (f : τ → σ) (big : Dialogue τ) (ui : Dialogue σ) : Prop where
  tell : ∀ text u, f (big.tell text u) = ui.tell text (f u)
  askUnsaved : ∀ question u, ui.askUnsaved question (f u) =
    ((big.askUnsaved question u).1, f (big.askUnsaved question u).2)
  showProgress : ∀ i n u, f (big.showProgress i n u) = ui.showProgress i n (f u)
  askReplace : ∀ path u, ui.askReplace path (f u) =
    ((big.askReplace path u).1, f (big.askReplace path u).2)
  askSavePath : ∀ suggested u, ui.askSavePath suggested (f u) =
    ((big.askSavePath suggested u).1, f (big.askSavePath suggested u).2)
  stopRequested : ∀ u, big.stopRequested u = ui.stopRequested (f u)
  clearStop : ∀ u, f (big.clearStop u) = ui.clearStop (f u)

theorem logged_projects (ui : Dialogue σ) : Projects Prod.fst ui.logged ui where
  tell _ _ := rfl
  askUnsaved _ _ := rfl
  showProgress _ _ _ := rfl
  askReplace _ _ := rfl
  askSavePath _ _ := rfl
  stopRequested _ := rfl
  clearStop _ := rfl

end Dialogue

namespace Session

variable {σ τ : Type}

def mapUser (f : τ → σ) (s : Session τ) : Session σ := { s with user := f s.user }

/-- A result with the user's side of its session mapped. -/
def mapResult {α : Type} (f : τ → σ) (r : α × Session τ) : α × Session σ := (r.1, r.2.mapUser f)

section
variable (f : τ → σ) (s : Session τ)

@[simp] theorem mapUser_config : (s.mapUser f).config = s.config := rfl

@[simp] theorem mapUser_drawing : (s.mapUser f).drawing = s.drawing := rfl

@[simp] theorem mapUser_history : (s.mapUser f).history = s.history := rfl

@[simp] theorem mapUser_files : (s.mapUser f).files = s.files := rfl

end

section
variable {f : τ → σ} {big : Dialogue τ} {ui : Dialogue σ} (h : big.Projects f ui)
include h

/-! ## Saving -/

theorem tell_mapUser (text : String) (s : Session τ) :
    (s.mapUser f).tell ui text = (s.tell big text).mapUser f := by
  simp only [tell, mapUser, h.tell]

theorem mayReplace_mapUser (path : Path) (s : Session τ) :
    (s.mapUser f).mayReplace ui path = mapResult f (s.mayReplace big path) := by
  simp only [mayReplace, mapUser, h.askReplace]
  split <;> rfl

theorem saveBytes_mapUser (path : Path) (bytes : ByteArray) (s : Session τ) :
    (s.mapUser f).saveBytes ui path bytes = mapResult f (s.saveBytes big path bytes) := by
  simp only [saveBytes, mayReplace_mapUser h]
  cases s.mayReplace big path with
  | mk yes s =>
    cases yes with
    | false => rfl
    | true =>
      simp only [mapResult, writeFile, mapUser_files]
      cases s.files.write path bytes with
      | mk outcome files => cases outcome <;> rfl

theorem saveScript_mapUser (path : Option Path) (s : Session τ) :
    (s.mapUser f).saveScript ui path = mapResult f (s.saveScript big path) := by
  have hb := saveBytes_mapUser h (s.scriptTarget path) (Script.encode s.history.scriptLines) s
  have ht : (s.mapUser f).scriptTarget path = s.scriptTarget path := rfl
  rw [saveScript_eq, saveScript_eq, ht, mapUser_history, hb]
  generalize s.saveBytes big _ _ = r
  rfl

theorem saveImage_mapUser (path : Option Path) (s : Session τ) :
    (s.mapUser f).saveImage ui path = mapResult f (s.saveImage big path) := by
  have ht : (s.mapUser f).imageTarget path = s.imageTarget path := rfl
  rw [saveImage_eq, saveImage_eq, mapUser_drawing, ht]
  cases s.drawing.canvas.picture with
  | none => rfl
  | some bytes =>
    dsimp only
    rw [saveBytes_mapUser h]
    generalize s.saveBytes big _ _ = r
    rfl

/-! ## Unsaved changes -/

theorem saveFirst_mapUser (s : Session τ) :
    (s.mapUser f).saveFirst ui = mapResult f (s.saveFirst big) := by
  have hu : (s.mapUser f).user = f s.user := rfl
  unfold saveFirst
  dsimp only [mapUser_config]
  rw [hu, h.askSavePath]
  cases big.askSavePath s.config.scriptPath s.user with
  | mk chosen user =>
    cases chosen with
    | none => rfl
    | some chosen =>
      have hb := saveBytes_mapUser h (chosen.ensureExtension "txt")
        (Script.encode s.history.scriptLines) { s with user := user }
      dsimp only [saveLines, mapUser] at hb ⊢
      rw [hb]
      generalize saveBytes big _ _ _ = r
      obtain ⟨outcome, s'⟩ := r
      cases outcome with
      | error e => exact congrArg _ (tell_mapUser h _ s')
      | ok saved =>
        cases saved with
        | false => rfl
        | true => exact congrArg _ (tell_mapUser h _ s')

theorem mayDiscard_mapUser (intention : String) (s : Session τ) :
    (s.mapUser f).mayDiscard ui intention = mapResult f (s.mayDiscard big intention) := by
  have hu : (s.mapUser f).user = f s.user := rfl
  simp only [mayDiscard, mapUser_history, hu, h.askUnsaved]
  split
  · cases big.askUnsaved (unsavedQuestion intention) s.user with
    | mk decision user =>
      cases decision with
      | discard => rfl
      | cancel => rfl
      | saveFirst => exact saveFirst_mapUser h { s with user := user }
  · rfl

/-! ## Lines -/

omit h in
theorem act_mapUser (line : String) (a : Action) (s : Session τ) :
    (s.mapUser f).act line a = mapResult f (s.act line a) := by
  simp only [act, mapUser_config, mapUser_drawing, mapUser_history]
  cases a.execute s.config s.drawing with
  | mk outcome drawing => cases outcome <;> split <;> rfl

/-- Of two loaders one does on the part of the session what the other one does. -/
def ProjectsLoads (f : τ → σ) (deeper : Loader τ) (loads : Loader σ) : Prop :=
  ∀ line kind path s, loads line kind path (s.mapUser f) = mapResult f (deeper line kind path s)

theorem run_mapUser {deeper : Loader τ} {loads : Loader σ} (hl : ProjectsLoads f deeper loads)
    (line : String) (c : Command) (s : Session τ) :
    (s.mapUser f).run ui loads line c = mapResult f (s.run big deeper line c) := by
  cases c with
  | act a => exact act_mapUser line a s
  | save kind path =>
    cases kind with
    | script => exact saveScript_mapUser h path s
    | image => exact saveImage_mapUser h path s
  | load kind path => exact hl line kind path s

theorem report_mapUser (r : Except Error String × Session τ) :
    report ui (mapResult f r) = mapResult f (report big r) := by
  obtain ⟨outcome, s⟩ := r
  cases outcome with
  | ok message => simp only [report, mapResult, tell_mapUser h]
  | error e => simp only [report, mapResult, tell_mapUser h]

theorem hear_mapUser (text : String) (s : Session τ) :
    (s.mapUser f).hear ui text = mapResult f (s.hear big text) := by
  unfold hear
  cases Line.read text with
  | error e => rfl
  | ok line =>
    cases line with
    | none => rfl
    | some line =>
      dsimp only
      cases line.notice with
      | none => rfl
      | some notice => simp only [mapResult, tell_mapUser h]

theorem enterWith_mapUser {deeper : Loader τ} {loads : Loader σ}
    (hl : ProjectsLoads f deeper loads) (text : String) (s : Session τ) :
    (s.mapUser f).enterWith ui loads text = mapResult f (s.enterWith big deeper text) := by
  simp only [enterWith, hear_mapUser h]
  cases s.hear big text with
  | mk heard s =>
    match heard with
    | .error e => exact report_mapUser h (.error e, s)
    | .ok none => rfl
    | .ok (some c) =>
      simp only [mapResult, run_mapUser h hl]
      exact report_mapUser h _

/-! ## Loading -/

omit h in
theorem refuseLoad_projects : ProjectsLoads f refuseLoad refuseLoad := fun _ _ _ _ => rfl

theorem feed_mapUser (line : String) (sum : Tally) (s : Session τ) :
    (asTarget ui).feed line sum (s.mapUser f) = mapResult f ((asTarget big).feed line sum s) := by
  unfold ReplayTarget.feed
  split
  · exact congrArg _ (tell_mapUser h _ s)
  · simp only [asTarget, enterWith_mapUser h refuseLoad_projects]
    cases s.enterWith big refuseLoad line with
    | mk outcome s' => cases outcome <;> rfl

theorem feedAll_mapUser (lines : List String) (i : Nat) (sum : Tally) (s : Session τ) :
    (asTarget ui).feedAll lines i sum (s.mapUser f) =
      mapResult f ((asTarget big).feedAll lines i sum s) := by
  induction lines generalizing i sum s with
  | nil => rfl
  | cons line rest ih =>
    have hstop : ui.stopRequested (s.mapUser f).user = big.stopRequested s.user :=
      (h.stopRequested s.user).symm
    have hshow : { s.mapUser f with user := ui.showProgress i sum.total (s.mapUser f).user } =
        { s with user := big.showProgress i sum.total s.user }.mapUser f := by
      simp only [mapUser, h.showProgress]
    rw [feedAll_cons, feedAll_cons, hstop]
    split
    · rfl
    · simp only [hshow, feed_mapUser h, mapResult, ih]

theorem replayFile_mapUser (path : Path) (script : Script) (s : Session τ) :
    (s.mapUser f).replayFile ui path script = mapResult f (s.replayFile big path script) := by
  have hp : ((s.mapUser f).tell ui (loadingNotice path)).prepareReplay ui =
      ((s.tell big (loadingNotice path)).prepareReplay big).mapUser f := by
    rw [tell_mapUser h]
    simp only [prepareReplay, mapUser, h.clearStop]
  have hf := feedAll_mapUser h script.lines 1 (.start script.lines.length)
    ((s.tell big (loadingNotice path)).prepareReplay big)
  unfold replayFile replay ReplayTarget.replay
  rw [hp, hf]
  rfl

theorem loadScript_mapUser (path : Option Path) (s : Session τ) :
    (s.mapUser f).loadScript ui path = mapResult f (s.loadScript big path) := by
  unfold loadScript
  rw [mayDiscard_mapUser h]
  generalize s.mayDiscard big "load commands" = r
  obtain ⟨yes, s'⟩ := r
  cases yes with
  | false => rfl
  | true =>
    dsimp only [mapResult, mapUser_files, mapUser_config]
    cases readScript s'.files (path.getD s'.config.scriptPath) with
    | error e => rfl
    | ok script =>
      have hr := replayFile_mapUser h (path.getD s'.config.scriptPath) script s'
      unfold replayFile at hr
      dsimp only
      rw [hr]
      rfl

theorem loadImage_mapUser (path : Option Path) (s : Session τ) :
    (s.mapUser f).loadImage ui path = mapResult f (s.loadImage big path) := by
  unfold loadImage
  rw [mayDiscard_mapUser h]
  generalize s.mayDiscard big "load image" = r
  obtain ⟨yes, s'⟩ := r
  cases yes with
  | false => rfl
  | true =>
    dsimp only [mapResult, mapUser_files, mapUser_config]
    cases s'.files.read (path.getD s'.config.imagePath) <;> rfl

theorem load_projects : ProjectsLoads f (load big) (load ui) := by
  intro line kind path s
  unfold load
  rw [mapUser_history]
  by_cases hr : s.history.replaying = true
  · rw [if_pos hr, if_pos hr]
    rfl
  · rw [if_neg hr, if_neg hr]
    cases kind with
    | script => exact loadScript_mapUser h path s
    | image => exact loadImage_mapUser h path s

theorem enter_mapUser (text : String) (s : Session τ) :
    (s.mapUser f).enter ui text = mapResult f (s.enter big text) :=
  enterWith_mapUser h (load_projects h) text s

end

/-! ## The log -/

/-- The session with an empty log. -/
def withLog (s : Session σ) : Session (σ × List Question) := { s with user := (s.user, []) }

/-- The log changes nothing but itself. -/
theorem enter_logged (ui : Dialogue σ) (text : String) (s : Session σ) :
    mapResult Prod.fst (s.withLog.enter ui.logged text) = s.enter ui text :=
  (enter_mapUser ui.logged_projects text s.withLog).symm

end Session

end TurtleGraphics
