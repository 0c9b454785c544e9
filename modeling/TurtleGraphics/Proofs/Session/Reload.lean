import TurtleGraphics.Proofs.Session.Overwriting

/-!
# Loading a script again

What a replay leaves depends on the script, the configuration and the size of the canvas, and on
how far it got (`replayFile_agree`). A finished load leaves nothing unsaved, so loading once more
asks nothing; it reads the same script, unless a save among the replayed lines has written to the
very file (`ReplayStart.reads_again`). Hence it leaves the same turtle and the same lines on record
(`load_again`).
-/

set_option autoImplicit false

namespace TurtleGraphics.Session

variable {σ τ : Type}

/-- Replays of one script that get equally far agree on the turtle and on what is recorded, if the
sessions are configured alike and their canvases have one size. -/
theorem replayFile_agree (ui : Dialogue σ) (ui' : Dialogue τ) (path path' : Path) {script : Script}
    {s : Session σ} {t : Session τ} (hc : t.config = s.config)
    (hb : t.drawing.canvas.bounds = s.drawing.canvas.bounds)
    (hp : (t.replayFile ui' path' script).1.processed =
      (s.replayFile ui path script).1.processed) :
    (t.replayFile ui' path' script).2.drawing.turtle =
        (s.replayFile ui path script).2.drawing.turtle ∧
      (t.replayFile ui' path' script).2.history.entries =
        (s.replayFile ui path script).2.history.entries := by
  -- both are compared with the typing of the lines into one new session
  have hs := (replayFile_fedFirst ui path script s ui s.drawing.canvas rfl s.files s.user).alike
  have ht := (replayFile_fedFirst ui' path' script t ui s.drawing.canvas hb.symm s.files
    s.user).alike
  rw [hc, hp] at ht
  exact ⟨ht.drawing.turtle.trans hs.drawing.turtle.symm, ht.entries.trans hs.entries.symm⟩

/-! ## The file that was replayed -/

section
variable (ui : Dialogue σ)

/-- A replay keeps all folders. -/
theorem ReplayStart.keepsFolders (r : ReplayStart σ) :
    r.session.files.KeepsFolders (r.run ui).2.files := by
  refine (r.keeps ui (I := fun u => r.session.files.KeepsFolders u.files) (fun _ _ h => h)
    (fun _ _ _ h => h) (fun line t hm hl hi => ?_) (.refl _)).1
  obtain hf | ⟨kind, path, bytes, outcome, -, -, hw⟩ :=
    enterWith_files ui refuseLoad (Command.ofText_ne_load hl) t
  · rwa [hf]
  · exact hi.trans (.of_write hw)

/-- A replayed line has written to the file that is replayed, in full or in part. -/
def ReplayStart.OverwritesItself (r : ReplayStart σ) : Prop :=
  ∃ line t kind path place left, (line, t) ∈ r.carried ui ∧
    Command.ofText line = .ok (some (.save kind path)) ∧
    Wrote kind (t.saveTarget kind path) place left t (t.enter ui line).2 ∧
    (r.run ui).2.files.locate r.path = .ok (place, .file left)

/-- After a replay the file still holds the script, or a save among its lines has written there. -/
theorem ReplayStart.reads_again (r : ReplayStart σ)
    (hread : readScript r.session.files r.path = .ok r.script) :
    readScript (r.run ui).2.files r.path = .ok r.script ∨ r.OverwritesItself ui := by
  obtain ⟨place, bytes, hl, hd⟩ := readScript_eq_ok.1 hread
  have hentry := (FileSystem.locate_eq_ok.1 hl).2.2
  by_cases hsame : (r.fed ui).2.files.entryAt? place = r.session.files.entryAt? place
  · exact .inl (readScript_eq_ok.2
      ⟨place, bytes, (r.keepsFolders ui).locate hl (hsame.trans hentry), hd⟩)
  · obtain ⟨line, t, kind, path, left, hm, hc, hw, hentry'⟩ := r.wrote ui hsame
    exact .inr ⟨line, t, kind, path, place, left, hm, hc, hw,
      (r.keepsFolders ui).locate hl hentry'⟩

/-- All lines of a replay that is not stopped are dealt with. -/
theorem ReplayStart.processed_of_completed {r : ReplayStart σ}
    (hx : (r.run ui).1.cancelled = false) :
    (r.run ui).1.processed = r.script.lines.length := by
  obtain ⟨k, hk, hp, hc, -⟩ := r.carried_lines ui
  rw [hx] at hc
  rw [hp]
  exact Nat.le_antisymm hk (Nat.not_lt.1 fun h => absurd (hc.2 h) (by decide))

end

/-! ## Loading twice -/

/-- A load that is not stopped leaves nothing unsaved, and the same load once more asks nothing.
Unless a line of the script has overwritten its file, the script is read and replayed again, and if
this is not stopped either it leaves the same turtle and the same lines on record. -/
theorem load_again (ui : Dialogue σ) {text : String} {s : Session σ} {r : ReplayStart σ}
    (hr : s.replayStart? ui text = some r) (hx : (r.run ui).1.cancelled = false) :
    let once := (s.enter ui text).2
    let twice := (once.enter ui text).2
    let again : ReplayStart σ := ⟨r.path, r.script, once⟩
    let logged := once.withLog.enter ui.logged text
    once.history.dirty = false ∧ once.history.replaying = false ∧
      mapResult Prod.fst logged = once.enter ui text ∧ logged.2.user.2 = [] ∧
      (once.replayStart? ui text = some again ∨ r.OverwritesItself ui) ∧
      (once.replayStart? ui text = some again → (again.run ui).1.cancelled = false →
        twice.drawing.turtle = once.drawing.turtle ∧
          twice.history.entries = once.history.entries) := by
  intro once twice again logged
  obtain ⟨path, hn, hc, hask, hp, hread⟩ := replayStart?_eq_some hr
  obtain ⟨told, he⟩ := enter_replayStart hr
  have honce : once = { (r.run ui).2 with user := told } := congrArg Prod.snd he
  have hdirty : once.history.dirty = false := by
    rw [honce, r.run_dirty, hx, Bool.false_and]
  have hreplaying : once.history.replaying = false := enter_replaying ui text hn
  have hconfig : once.config = r.session.config := by
    have hw := SameWork.mayDiscard ui "load commands" s
    rw [hask] at hw
    exact (enter_leads ui text s).config.trans hw.config.symm
  have hpath : path.getD once.config.scriptPath = r.path := by
    rw [hconfig, hp]
  refine ⟨hdirty, hreplaying, enter_logged ui text once, ?_, ?_, fun hagain hx' => ?_⟩
  · have hasked := (enter_load_logged ui hc (s := once.withLog) hreplaying).1
    exact hasked.trans ((mayDiscard_consent ui (intention .script) once).1 hdirty)
  · refine (r.reads_again ui hread).imp_left fun h => ?_
    have hfiles : once.files = (r.run ui).2.files := by rw [honce]
    rw [← hfiles, ← hpath] at h
    have hstart : once.replayStart? ui text = _ :=
      replayStart?_of_clean hreplaying hdirty hc h
    rw [hstart, hpath]
  · obtain ⟨told', he'⟩ := enter_replayStart hagain
    have htwice : twice = { (again.run ui).2 with user := told' } := congrArg Prod.snd he'
    have hbounds : once.drawing.canvas.bounds = r.session.drawing.canvas.bounds := by
      rw [honce]
      exact (replayFile_fedFirst ui r.path r.script r.session ui r.session.drawing.canvas rfl
        r.session.files r.session.user).alike.drawing.left
    have hprocessed : (again.run ui).1.processed = (r.run ui).1.processed :=
      (ReplayStart.processed_of_completed ui hx').trans
        (ReplayStart.processed_of_completed ui hx).symm
    rw [htwice, honce]
    exact replayFile_agree ui ui r.path r.path hconfig hbounds hprocessed

/-! ## A script with one line -/

theorem replayFile_penUp (path : Path) (s : Session Nat) :
    s.replayFile (stopsAfter 9) path ⟨["penup"]⟩ = (⟨1, 1, 0, 0, false⟩,
      { s with
        drawing :=
          { (s.drawing.resetTurtle s.config).clearCanvas with
            turtle.penDown := false }
        history := ⟨[⟨"penup", .replay, false⟩], false, false⟩
        user := 1 }) := by
  have hl : Line.isLoad "penup" = false := by cbv
  unfold replayFile replay ReplayTarget.replay
  rw [feedAll_applied (stopsAfter 9) hl rfl (enterWith_penUp (stopsAfter 9) refuseLoad _)]
  rfl

theorem isLine_penUp : ∀ l ∈ ["penup"], Script.IsLine l := by
  intro l hl
  obtain rfl := List.mem_singleton.1 hl
  exact ⟨by cbv, by decide, by decide⟩

theorem load_again_sample :
    let s := withScript ["penup"]
    let r : ReplayStart Nat := ⟨⟨"drawing.txt"⟩, ⟨["penup"]⟩, s⟩
    let once := (s.enter (stopsAfter 9) "load commands drawing.txt").2
    let twice := (once.enter (stopsAfter 9) "load commands drawing.txt").2
    s.replayStart? (stopsAfter 9) "load commands drawing.txt" = some r ∧
      (r.run (stopsAfter 9)).1.cancelled = false ∧ once.history.dirty = false ∧
      twice.drawing.turtle = once.drawing.turtle ∧
      twice.history.entries = once.history.entries := by
  intro s r once twice
  have hr : s.replayStart? (stopsAfter 9) "load commands drawing.txt" = some r :=
    withScript_replayStart (stopsAfter 9) isLine_penUp
  have hx : (r.run (stopsAfter 9)).1.cancelled = false := by
    unfold ReplayStart.run
    rw [replayFile_penUp]
  obtain ⟨hdirty, hreplaying, -, -, -, hsame⟩ := load_again (stopsAfter 9) hr hx
  have hread : readScript once.files ⟨"drawing.txt"⟩ = .ok ⟨["penup"]⟩ := by
    obtain ⟨told, he⟩ := enter_replayStart hr
    have hf : once.files = s.files := by
      simp only [once, he, ReplayStart.run, replayFile_penUp, r]
    rw [hf]
    exact readScript_withScript isLine_penUp
  have hagain : once.replayStart? (stopsAfter 9) "load commands drawing.txt" = _ :=
    replayStart?_of_clean hreplaying hdirty ofText_loadDrawing hread
  refine ⟨hr, hx, hdirty, hsame hagain ?_⟩
  unfold ReplayStart.run
  rw [replayFile_penUp]

/-! ## A script that overwrites itself -/

/-- A replayed save asks nothing and replaces the file. -/
theorem enterWith_saveDrawing (lines : List String) {s : Session Nat}
    (hf : s.files = (withScript lines).files) (hr : s.history.replaying = true) :
    s.enterWith (stopsAfter 9) refuseLoad "save commands drawing.txt" =
      (.ok (some (savedNotice ⟨"drawing.txt"⟩)),
        { s with
          files := (withScript s.history.scriptLines).files
          history := s.history.markSaved }) := by
  have hread : Line.read "save commands drawing.txt" =
      .ok (some ⟨.save, some "commands drawing.txt", none⟩) := by cbv
  have hc : Command.ofLine ⟨.save, some "commands drawing.txt", none⟩ =
      .ok (.save .script (some ⟨"drawing.txt"⟩)) := by cbv
  have hw : s.files.write ⟨"drawing.txt"⟩ (Script.encode s.history.scriptLines) =
      (.ok (), (withScript s.history.scriptLines).files) := by
    rw [hf]
    rfl
  have hp : Path.ensureExtension ⟨"drawing.txt"⟩ "txt" = ⟨"drawing.txt"⟩ := rfl
  have ht : s.scriptTarget (some ⟨"drawing.txt"⟩) = ⟨"drawing.txt"⟩ := hp
  have hask : s.mayReplace (stopsAfter 9) ⟨"drawing.txt"⟩ = (true, s) := by
    simp [mayReplace, hr]
  unfold enterWith
  rw [hear_of_read (stopsAfter 9) hread rfl hc s]
  show report (stopsAfter 9) (s.saveScript (stopsAfter 9) (some ⟨"drawing.txt"⟩)) = _
  rw [saveScript_eq, ht, saveBytes, hask]
  simp only [writeFile, hw]
  rfl

def selfSaving : List String := ["save commands drawing.txt", "penup"]

theorem isLine_selfSaving : ∀ l ∈ selfSaving, Script.IsLine l := by
  intro l hl
  simp only [selfSaving, List.mem_cons, List.not_mem_nil, or_false] at hl
  rcases hl with rfl | rfl
  all_goals exact ⟨by cbv, by decide, by decide⟩

theorem replayFile_selfSaving (path : Path) (lines : List String) {s : Session Nat}
    (hf : s.files = (withScript lines).files) :
    s.replayFile (stopsAfter 9) path ⟨selfSaving⟩ = (⟨2, 2, 0, 0, false⟩,
      { s with
        drawing :=
          { (s.drawing.resetTurtle s.config).clearCanvas with
            turtle.penDown := false }
        history := ⟨[⟨"penup", .replay, false⟩], false, false⟩
        files := (withScript []).files
        user := 2 }) := by
  have hsave : Line.isLoad "save commands drawing.txt" = false := by cbv
  have hpen : Line.isLoad "penup" = false := by cbv
  unfold replayFile replay ReplayTarget.replay selfSaving
  have hsaved := enterWith_saveDrawing lines
    (s := { (s.tell (stopsAfter 9) (loadingNotice path)).prepareReplay (stopsAfter 9) with
      user := 1 }) hf rfl
  rw [feedAll_applied (stopsAfter 9) hsave rfl hsaved,
    feedAll_applied (stopsAfter 9) hpen rfl (enterWith_penUp (stopsAfter 9) refuseLoad _)]
  rfl

/-- The first load empties the file and lifts the pen, the second one finds nothing to do. -/
theorem load_again_differs :
    let s := withScript selfSaving
    let once := (s.enter (stopsAfter 9) "load commands drawing.txt").2
    let twice := (once.enter (stopsAfter 9) "load commands drawing.txt").2
    (s.enter (stopsAfter 9) "load commands drawing.txt").1 =
        .ok (some (replayNotice ⟨"drawing.txt"⟩ ⟨2, 2, 0, 0, false⟩)) ∧
      (once.enter (stopsAfter 9) "load commands drawing.txt").1 =
        .ok (some (replayNotice ⟨"drawing.txt"⟩ ⟨0, 0, 0, 0, false⟩)) ∧
      once.history.dirty = false ∧
      once.history.entries = [("penup", .replay)] ∧ twice.history.entries = [] ∧
      once.drawing.turtle.penDown = false ∧ twice.drawing.turtle.penDown = true := by
  intro s once twice
  obtain ⟨told, he⟩ :=
    enter_replayStart (withScript_replayStart (stopsAfter 9) isLine_selfSaving)
  unfold ReplayStart.run at he
  rw [replayFile_selfSaving ⟨"drawing.txt"⟩ selfSaving rfl] at he
  have honce : once = _ := congrArg Prod.snd he
  have hread : readScript once.files ⟨"drawing.txt"⟩ = .ok ⟨[]⟩ := by
    rw [honce]
    exact readScript_withScript (by simp)
  have hstart : once.replayStart? (stopsAfter 9) "load commands drawing.txt" = _ :=
    replayStart?_of_clean (by rw [honce]) (by rw [honce]) ofText_loadDrawing hread
  obtain ⟨told', he'⟩ := enter_replayStart hstart
  have htwice : twice = _ := congrArg Prod.snd he'
  refine ⟨congrArg Prod.fst he, congrArg Prod.fst he', ?_, ?_, ?_, ?_, ?_⟩
  · rw [honce]
  · rw [honce]
    rfl
  · rw [htwice]
    rfl
  · rw [honce]
  · rw [htwice]
    rfl

end TurtleGraphics.Session
