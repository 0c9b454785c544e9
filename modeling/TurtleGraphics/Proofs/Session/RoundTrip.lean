import TurtleGraphics.Proofs.FileSystem.ReadBack
import TurtleGraphics.Proofs.Session.Loading
import TurtleGraphics.Proofs.Session.Retrace

/-!
# Save, then load

A recorded line that is kept for replaying fits into a script and asks for an action that is no
reset (`Storable`). Replaying such lines, if they can be retraced, applies each of them and
records it again (`feedAll_retraced`). The lines that a save writes are of this kind, and they are
read back from the file; so a load of the file leaves the turtle and the lines of the session that
was saved (`load_of_save`).
-/

set_option autoImplicit false

namespace TurtleGraphics

/-- A line that is read back from a script as the action it was recorded for. -/
structure Storable (line : String) : Prop where
  isLine : Script.IsLine line
  acts : ∃ a, Command.ofText line = .ok (some (.act a)) ∧ a ≠ .reset ∧ a.purpose = .replay

/-- Lines without line feeds, typed or replayed, are recorded without line feeds. -/
theorem Causes.oneLine {text line : String} {a : Action} (h : Causes text (.draw line a))
    (ht : '\n' ∉ text.toList) : '\n' ∉ line.toList := by
  generalize hd : Deed.draw line a = d at h
  induction h with
  | draw h =>
    cases hd
    exact Script.lineFeed_not_mem_trim ht
  | replayed h hl hn hd' ih => exact ih hl.oneLine hd
  | _ => cases hd

namespace Session

variable {σ τ : Type}

/-! ## The lines on record -/

/-- A deed that records a line without line feeds keeps all recorded lines storable. -/
theorem storable_change {d : Deed} {s t : Session σ} (h : Change d s t)
    (hd : ∀ line a, d = .draw line a → '\n' ∉ line.toList)
    (hs : ∀ l ∈ s.history.scriptLines, Storable l) : ∀ l ∈ t.history.scriptLines, Storable l := by
  cases h with
  | talk user => exact hs
  | save hc hw => exact hs
  | failedSave hc hw => exact hs
  | aside files user render => exact hs
  | finishReplay completed => exact hs
  | reset => simp [History.clear, History.scriptLines]
  | background image => simp [History.clear, History.scriptLines]
  | startReplay => simp [History.startReplay, History.clear, History.scriptLines]
  | @draw s line message a drawing hl hc ha hx =>
    intro l hm
    simp only [History.scriptLines_add, List.mem_append] at hm
    rcases hm with hm | hm
    · exact hs l hm
    · by_cases hp : a.purpose = .replay
      · simp only [hp, if_true, List.mem_singleton] at hm
        subst hm
        have hne : l ≠ "" := hl ▸ Command.trim_ne_empty_of_ofText hc
        exact ⟨⟨hl, hne, hd l a rfl⟩, a, hc, ha, hp⟩
      · simp [hp] at hm

/-- A run over lines without line feeds records storable lines. -/
theorem storable_live (ui : Dialogue σ) (events : List (Event σ)) (s : Session σ)
    (hlf : ∀ text, .line text ∈ events → '\n' ∉ text.toList)
    (hs : ∀ l ∈ s.history.scriptLines, Storable l) :
    ∀ l ∈ (s.live ui events).history.scriptLines, Storable l := by
  refine (live_leads ui events s).keeps (I := fun s => ∀ l ∈ s.history.scriptLines, Storable l)
    (fun d s t hd h hs => storable_change h ?_ hs) hs
  rintro line a rfl
  rcases hd with hd | ⟨text, hm, hd⟩
  · cases hd
  · exact hd.oneLine (hlf text hm)

/-! ## Runs of actions and saves -/

/-- The text asks for no reset and loads nothing. -/
def Plain (text : String) : Prop :=
  Command.ofText text ≠ .ok (some (.act .reset)) ∧
    ∀ kind path, Command.ofText text ≠ .ok (some (.load kind path))

theorem Plain.startsOver {text : String} (h : Plain text) {d : Deed} (hd : Causes text d) :
    d.startsOver = false := by
  cases hd with
  | reset hc => exact absurd hc h.1
  | background image hc => exact absurd hc (h.2 _ _)
  | startReplay hc => exact absurd hc (h.2 _ _)
  | replayed hc hl hn hd => exact absurd hc (h.2 _ _)
  | _ => rfl

/-- A run that never starts over draws what it records. -/
theorem Drawn.live {config : Config} {canvas : Canvas Float} {base : List (Mark Float)}
    {s : Session σ} (hs : Drawn config canvas base s) (ui : Dialogue σ) {events : List (Event σ)}
    (h : ∀ text, .line text ∈ events → Plain text) :
    Drawn config canvas base (s.live ui events) := by
  refine (live_leads ui events s).keeps (fun d s t hd hc hs => hs.change hc ?_) hs
  rcases hd with rfl | ⟨text, hm, hd⟩
  · rfl
  · exact (h text hm).startsOver hd

/-! ## Replaying recorded lines -/

section
variable (ui : Dialogue σ) {size : Bounds Float} {base base' : List (Mark Float)}

/-- A storable line that can be retraced is applied and recorded as it is. -/
theorem enterWith_retraced (loads : Loader σ) {l : String} (hl : Storable l) {s : Session σ}
    {e e' : Drawing} (ha : Drawing.Alike size base base' s.drawing e)
    (he : Drawing.retraceLine s.config e l = some e') :
    ∃ user message drawing, s.enterWith ui loads l =
        (.ok (some message), { s with user, drawing, history := s.history.add l .replay }) ∧
      Drawing.Alike size base base' drawing e' := by
  obtain ⟨a, hc, hne, hp⟩ := hl.acts
  obtain ⟨a', message, hc', hx⟩ := Drawing.retraceLine_eq_some he
  have haa : a' = a := by
    rw [hc] at hc'
    cases hc'
    rfl
  subst haa
  obtain ⟨ho, hd⟩ := ha.execute s.config a'
  rw [hx] at ho hd
  have hx' : a'.execute s.config s.drawing = (.ok message, (a'.execute s.config s.drawing).2) :=
    Prod.ext ho rfl
  obtain ⟨heard, told, hw⟩ := enterWith_command ui loads hc s
  have hact := act_of_ok (s := { s with user := heard }) l hne hx'
  refine ⟨told, message, _, ?_, hd⟩
  rw [hw, hl.isLine.trimmed]
  simp only [run]
  rw [hact, hp]
  rfl

/-- Storable lines that can be retraced are all applied, unless the replay is stopped. -/
theorem feedAll_retraced {lines : List String} (hl : ∀ l ∈ lines, Storable l) (i : Nat)
    (sum : Tally) {s : Session σ} {e e' : Drawing}
    (ha : Drawing.Alike size base base' s.drawing e) (he : e.retrace s.config lines = some e')
    (hx : ((asTarget ui).feedAll lines i sum s).1.cancelled = false) :
    let fed := (asTarget ui).feedAll lines i sum s
    fed.1 = { sum with applied := sum.applied + lines.length } ∧
      fed.2.history.scriptLines = s.history.scriptLines ++ lines ∧
      Drawing.Alike size base base' fed.2.drawing e' := by
  induction lines generalizing i sum s e with
  | nil =>
    cases he
    exact ⟨rfl, (List.append_nil _).symm, ha⟩
  | cons l rest ih =>
    have hll := hl l (by simp)
    obtain ⟨a, hc, -⟩ := hll.acts
    rw [Drawing.retrace_cons] at he
    obtain ⟨mid, hm, hr⟩ := Option.bind_eq_some_iff.1 he
    obtain ⟨user, message, drawing, hw, ha'⟩ := enterWith_retraced ui refuseLoad hll
      (s := { s with user := ui.showProgress i sum.total s.user }) ha hm
    cases hstop : ui.stopRequested s.user with
    | true =>
      rw [feedAll_cons, if_pos hstop] at hx
      cases hx
    | false =>
      rw [feedAll_applied ui (Command.isLoad_eq_false_of_ofText hc) hstop hw] at hx ⊢
      obtain ⟨ht, hh, hd⟩ := ih (fun l hm => hl l (by simp [hm])) (i + 1) _
        (s := { s with user, drawing, history := s.history.add l .replay }) ha' hr hx
      refine ⟨?_, ?_, hd⟩
      · rw [ht]
        simp only [List.length_cons, Nat.add_assoc, Nat.add_comm 1]
      · rw [hh]
        simp [History.scriptLines_add]

end

/-! ## Saving and loading -/

/-- A save of commands that reports success has written the lines to replay. -/
theorem enter_saved (ui : Dialogue σ) {text : String} {path : Option Path} {s : Session σ}
    (hc : Command.ofText text = .ok (some (.save .script path)))
    (h : (s.enter ui text).1 = .ok (some (savedNotice (s.scriptTarget path)))) :
    ∃ user files,
      s.files.write (s.scriptTarget path) (Script.encode s.history.scriptLines) = (.ok (), files) ∧
      (s.enter ui text).2 = { s with user, files, history := s.history.markSaved } := by
  obtain ⟨heard, told, he⟩ := enterWith_command ui (load ui) hc s
  unfold enter at h ⊢
  rw [he] at h ⊢
  obtain ⟨bytes, user, files, hb, hw, hs⟩ | ⟨user, files, outcome, -, hne, hs⟩ :=
    run_save_cases ui (load ui) (Text.trim text) .script path { s with user := heard }
  all_goals rw [hs] at h ⊢
  · cases hb
    exact ⟨told, files, hw, rfl⟩
  · obtain ⟨notice, ho, hn⟩ := map_eq_ok h
    obtain rfl := Option.some.inj hn
    exact absurd ho hne

/-- A replay of storable lines that can be retraced leaves them as the history, in any session. -/
theorem replayFile_retraced (ui : Dialogue σ) (path : Path) {lines : List String}
    (hl : ∀ l ∈ lines, Storable l) {s : Session σ} {canvas : Canvas Float} {e : Drawing}
    (hb : canvas.bounds = s.drawing.canvas.bounds)
    (he : (Drawing.start s.config canvas).retrace s.config lines = some e)
    (hx : (s.replayFile ui path ⟨lines⟩).1.cancelled = false) :
    let r := s.replayFile ui path ⟨lines⟩
    r.1 = ⟨lines.length, lines.length, 0, 0, false⟩ ∧
      r.2.history.dirty = false ∧ r.2.history.replaying = false ∧
      r.2.history.scriptLines = lines ∧
      Drawing.Alike s.drawing.canvas.bounds (s.drawing.canvas.marks ++ [.clear]) canvas.marks
        r.2.drawing e := by
  have ha := prepareReplay_alike ui (s.tell ui (loadingNotice path)) canvas hb s.files s.user
  obtain ⟨ht, hh, hd⟩ := feedAll_retraced ui hl 1 (.start lines.length) ha.drawing he hx
  obtain ⟨hrep, hdirty⟩ := replayFile_history ui path ⟨lines⟩ s
  refine ⟨?_, ?_, hrep, hh, hd⟩
  · refine ht.trans ?_
    simp [Tally.start]
  · rw [hdirty, hx]
    rfl

theorem readScript_eq_ok {files : FileSystem} {path : Path} {script : Script} :
    readScript files path = .ok script ↔
      ∃ place bytes, files.locate path = .ok (place, .file bytes) ∧
        Script.decode? bytes = some script := by
  constructor
  · intro h
    unfold readScript at h
    cases hb : files.read path with
    | error fault =>
      rw [hb] at h
      cases h
    | ok bytes =>
      obtain ⟨⟨place, e⟩, hl, he⟩ := bind_eq_ok hb
      cases e with
      | folder => cases he
      | file bytes' =>
        obtain rfl : bytes' = bytes := Except.ok.inj he
        rw [hb] at h
        cases hd : Script.decode? bytes' with
        | none => simp [hd] at h
        | some script' =>
          obtain rfl : script' = script := by simpa [hd] using h
          exact ⟨place, bytes', hl, hd⟩
  · rintro ⟨place, bytes, hl, hd⟩
    have hb : files.read path = .ok bytes := by
      rw [FileSystem.read, hl]
      rfl
    rw [readScript, hb]
    simp only [hd]

/-- A file that a save wrote is read back as the script of the lines to replay. -/
theorem readScript_of_saved {s : Session σ} (hs : ∀ l ∈ s.history.scriptLines, Storable l)
    {files files' : FileSystem} {path path' : Path}
    (hw : s.files.write path (Script.encode s.history.scriptLines) = (.ok (), files))
    (hf : files'.read path' = files.read path) :
    readScript files' path' = .ok ⟨s.history.scriptLines⟩ := by
  rw [readScript, hf, FileSystem.read_of_write hw]
  simp only [Script.decode?_encode fun l hl => (hs l hl).isLine]

/-- A new session that loads the file which a save has written is left where the saved session
was, unless the replay is stopped: it applies every line, has the same lines to replay and the
same turtle, and nothing unsaved. If the saved session was never reset and never loaded anything,
the load also draws just what that session has drawn. -/
theorem load_of_save (ui : Dialogue σ) (ui' : Dialogue τ) {config : Config} {canvas : Canvas Float}
    {files : FileSystem} {user : σ} {events : List (Event σ)}
    (hlf : ∀ text, .line text ∈ events → '\n' ∉ text.toList)
    {s : Session σ} (hs : s = (start config canvas files user).live ui events)
    {save : String} {path : Option Path}
    (hsave : Command.ofText save = .ok (some (.save .script path)))
    (hok : (s.enter ui save).1 = .ok (some (savedNotice (s.scriptTarget path))))
    {canvas' : Canvas Float} (hb : canvas'.bounds = canvas.bounds)
    {files' : FileSystem} {user' : τ} {load : String} {path' : Option Path}
    (hload : Command.ofText load = .ok (some (.load .script path')))
    (hf : files'.read (path'.getD config.scriptPath) =
      (s.enter ui save).2.files.read (s.scriptTarget path)) :
    let saved := (s.enter ui save).2
    let fresh := start config canvas' files' user'
    let n := saved.history.scriptLines.length
    let tally :=
      (fresh.replayFile ui' (path'.getD config.scriptPath) ⟨saved.history.scriptLines⟩).1
    let loaded := (fresh.enter ui' load).2
    readScript files' (path'.getD config.scriptPath) = .ok ⟨saved.history.scriptLines⟩ ∧
      (fresh.enter ui' load).1 =
        .ok (some (replayNotice (path'.getD config.scriptPath) tally)) ∧
      (tally.cancelled = false →
        tally = ⟨n, n, 0, 0, false⟩ ∧
        loaded.history.dirty = false ∧ loaded.history.replaying = false ∧
        loaded.history.scriptLines = saved.history.scriptLines ∧
        loaded.drawing.turtle = saved.drawing.turtle ∧
        ((∀ text, .line text ∈ events → Plain text) →
          ∃ added, saved.drawing.canvas.marks = canvas.marks ++ added ∧
            loaded.drawing.canvas.marks = canvas'.marks ++ .clear :: added)) := by
  intro saved fresh n tally loaded
  have hst : ∀ l ∈ s.history.scriptLines, Storable l := by
    rw [hs]
    exact storable_live ui events _ hlf (by simp [start, History.empty, History.scriptLines])
  -- the saved and the loading session are both compared with the retracing of the saved lines on
  -- a blank canvas
  obtain ⟨base, hd⟩ := (Retraced.start config canvas (.blank canvas.bounds) rfl files user).live
    ui events
  rw [← hs] at hd
  obtain ⟨-, e, he, ha⟩ := hd
  obtain ⟨user₁, files₁, hw, hsaved⟩ := enter_saved ui hsave hok
  have hlines : saved.history.scriptLines = s.history.scriptLines := by
    simp only [saved, hsaved]
    rfl
  have hdrawing : saved.drawing = s.drawing := by
    simp only [saved, hsaved]
  rw [hsaved] at hf
  have hread := readScript_of_saved hst hw hf
  obtain ⟨user₂, henter⟩ := enter_loadScript ui' (s := fresh) rfl hload rfl hread
  have hloaded : loaded = { (fresh.replayFile ui' (path'.getD config.scriptPath)
      ⟨s.history.scriptLines⟩).2 with user := user₂ } := congrArg Prod.snd henter
  simp only [tally, n, hlines, hdrawing, hloaded]
  refine ⟨hread, congrArg Prod.fst henter, fun hx => ?_⟩
  have hblank : (Canvas.blank canvas.bounds).bounds = fresh.drawing.canvas.bounds := hb.symm
  obtain ⟨ht, hdirty, hrep, hh, hd⟩ := replayFile_retraced ui' (path'.getD config.scriptPath) hst
    (s := fresh) (e := e) hblank he hx
  refine ⟨ht, hdirty, hrep, hh, hd.turtle.trans ha.turtle.symm, fun hplain => ?_⟩
  have hfresh : Drawn config (.blank canvas.bounds) canvas.marks
      (start config canvas files user) :=
    Drawn.of_fresh (s := start config canvas files user) rfl rfl rfl rfl
  have hdrawn := hfresh.live ui hplain
  rw [← hs] at hdrawn
  have hd' : Drawing.Alike canvas.bounds (canvas'.marks ++ [.clear]) [] _ e := hb ▸ hd
  obtain ⟨added, hm, hn⟩ := hdrawn.marks he hd'
  refine ⟨added, hm, hn.trans ?_⟩
  rw [List.append_assoc]
  rfl

/-! ## A saved line -/

def emptySample : Session Nat := start .standard (.blank ⟨200, 200⟩) .empty 0

theorem enterWith_penUp (ui : Dialogue σ) (loads : Loader σ) (s : Session σ) :
    s.enterWith ui loads "penup" = (.ok (some (Action.message .penUp)),
      { s with
        drawing.turtle.penDown := false
        history := s.history.add "penup" .replay
        user := ui.tell (Action.message .penUp) s.user }) := by
  have hr : Line.read "penup" = .ok (some ⟨.penUp, none, none⟩) := by cbv
  have ht : Text.trim "penup" = "penup" := by cbv
  unfold enterWith
  rw [hear_of_read ui hr rfl rfl s, ht]
  rfl

def drawnSample : Session Nat := emptySample.live (stopsAfter 9) [.line "penup"]

theorem drawnSample_eq : drawnSample =
    { emptySample with
      drawing.turtle.penDown := false
      history := ⟨[⟨"penup", .replay, false⟩], true, false⟩ } := by
  show (emptySample.enterWith (stopsAfter 9) (load (stopsAfter 9)) "penup").2 = _
  rw [enterWith_penUp]
  rfl

theorem drawnSample_scriptTarget :
    drawnSample.scriptTarget (some ⟨"drawing"⟩) = ⟨"drawing.txt"⟩ := by
  unfold scriptTarget
  rfl

/-- The files after the save. -/
def savedFiles : FileSystem := ⟨[(["drawing.txt"], .file (Script.encode ["penup"]))], [], []⟩

/-- Any line that saves the commands under this path. -/
theorem drawnSample_saveAs {text args : String} {path : Path}
    (hr : Line.read text = .ok (some ⟨.save, some args, none⟩))
    (hc : Command.ofLine ⟨.save, some args, none⟩ = .ok (.save .script (some path)))
    (hp : path.ensureExtension "txt" = ⟨"drawing.txt"⟩) :
    drawnSample.enter (stopsAfter 9) text = (.ok (some (savedNotice ⟨"drawing.txt"⟩)),
      { drawnSample with files := savedFiles, history := drawnSample.history.markSaved }) := by
  have hh := hear_of_read (stopsAfter 9) hr rfl hc drawnSample
  have ht : drawnSample.scriptTarget (some path) = ⟨"drawing.txt"⟩ := hp
  unfold enter enterWith
  rw [hh]
  show report (stopsAfter 9) (drawnSample.saveScript (stopsAfter 9) (some path)) = _
  rw [saveScript_eq, ht, drawnSample_eq]
  rfl

theorem read_saveDrawing : Line.read "save commands drawing" =
    .ok (some ⟨.save, some "commands drawing", none⟩) := by cbv

theorem ofLine_saveDrawing : Command.ofLine ⟨.save, some "commands drawing", none⟩ =
    .ok (.save .script (some ⟨"drawing"⟩)) := by cbv

theorem drawnSample_save : drawnSample.enter (stopsAfter 9) "save commands drawing" =
    (.ok (some (savedNotice ⟨"drawing.txt"⟩)),
      { drawnSample with files := savedFiles, history := drawnSample.history.markSaved }) :=
  drawnSample_saveAs read_saveDrawing ofLine_saveDrawing rfl

/-- The session that loads what was saved. -/
def loadingSample : Session Nat := start .standard (.blank ⟨200, 200⟩) savedFiles 0

theorem loadingSample_completes :
    (loadingSample.replayFile (stopsAfter 9) ⟨"drawing.txt"⟩ ⟨["penup"]⟩).1.cancelled = false := by
  have hl : Line.isLoad "penup" = false := by cbv
  unfold replayFile replay ReplayTarget.replay
  rw [feedAll_applied (stopsAfter 9) hl rfl (enterWith_penUp (stopsAfter 9) refuseLoad _)]
  rfl

theorem load_of_save_sample :
    let saved := (drawnSample.enter (stopsAfter 9) "save commands drawing").2
    let loaded := (loadingSample.enter (stopsAfter 9) "load commands drawing.txt").2
    (drawnSample.enter (stopsAfter 9) "save commands drawing").1 =
        .ok (some (savedNotice ⟨"drawing.txt"⟩)) ∧
      loadingSample.files = saved.files ∧
      loaded.history.dirty = false ∧ loaded.history.scriptLines = saved.history.scriptLines ∧
      loaded.drawing.turtle = saved.drawing.turtle := by
  intro saved loaded
  have hlf : ∀ text, Event.line text ∈ ([.line "penup"] : List (Event Nat)) →
      '\n' ∉ text.toList := by
    intro text hm
    simp only [List.mem_singleton, Event.line.injEq] at hm
    subst hm
    decide
  have hsave : Command.ofText "save commands drawing" =
      .ok (some (.save .script (some ⟨"drawing"⟩))) := by cbv
  have hok : (drawnSample.enter (stopsAfter 9) "save commands drawing").1 =
      .ok (some (savedNotice (drawnSample.scriptTarget (some ⟨"drawing"⟩)))) := by
    rw [drawnSample_scriptTarget, drawnSample_save]
  have hf : savedFiles.read ((some ⟨"drawing.txt"⟩ : Option Path).getD Config.standard.scriptPath) =
      (drawnSample.enter (stopsAfter 9) "save commands drawing").2.files.read
        (drawnSample.scriptTarget (some ⟨"drawing"⟩)) := by
    rw [drawnSample_scriptTarget, drawnSample_save]
    rfl
  have hlines : saved.history.scriptLines = ["penup"] := by
    simp only [saved]
    rw [drawnSample_save, drawnSample_eq]
    rfl
  have hs : drawnSample = (start .standard (.blank ⟨200, 200⟩) .empty 0).live (stopsAfter 9)
      [.line "penup"] := rfl
  have hb : (Canvas.blank ⟨200, 200⟩ : Canvas Float).bounds = (Canvas.blank ⟨200, 200⟩).bounds :=
    rfl
  obtain ⟨-, -, h⟩ := load_of_save (stopsAfter 9) (stopsAfter 9) hlf hs hsave hok hb
    ofText_loadDrawing hf
  have hx := loadingSample_completes
  rw [← hlines] at hx
  obtain ⟨-, hd, -, hh, ht, -⟩ := h hx
  refine ⟨?_, ?_, hd, hh, ht⟩
  · rw [drawnSample_save]
  · simp only [saved, drawnSample_save]
    rfl

end Session

end TurtleGraphics
