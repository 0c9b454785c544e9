import TurtleGraphics.Proofs.Drawing.Alike
import TurtleGraphics.Proofs.Script.Codec
import TurtleGraphics.Proofs.Session.Steps

/-!
# Loading a script is typing it

Two sessions are alike if they have one configuration, drawings alike and the same lines on
record; users, files and marks of change may differ. Lines that do not load keep them alike,
whether they are replayed or typed (`enterWith_alike`): saves touch nothing that is compared, and
prompts only decide about saves. So a replay and the typing of its lines into a new session go in
step (`feedAll_alike`), up to the line before which the user stops the replay
(`load_is_typing`).
-/

set_option autoImplicit false

namespace TurtleGraphics

namespace Session

variable {σ τ : Type}

/-- Only the user's side, the files and the marks of change differ. -/
structure SameWork (s s' : Session σ) : Prop where
  config : s'.config = s.config
  drawing : s'.drawing = s.drawing
  entries : s'.history.entries = s.history.entries

/-- One configuration, drawings alike and the same lines on record. -/
structure Alike (size : Bounds Float) (base base' : List (Mark Float)) (s : Session σ)
    (t : Session τ) : Prop where
  config : s.config = t.config
  drawing : Drawing.Alike size base base' s.drawing t.drawing
  entries : s.history.entries = t.history.entries

/-! ## Saves and idle lines -/

theorem SameWork.of_user (s : Session σ) (user : σ) : SameWork s { s with user } :=
  ⟨rfl, rfl, rfl⟩

theorem SameWork.of_save (s : Session σ) (user : σ) (files : FileSystem) :
    SameWork s { s with user, files, history := s.history.markSaved } :=
  ⟨rfl, rfl, rfl⟩

theorem SameWork.of_files (s : Session σ) (user : σ) (files : FileSystem) :
    SameWork s { s with user, files } :=
  ⟨rfl, rfl, rfl⟩

/-- A save changes nothing of the work, whatever comes of it. -/
theorem SameWork.run_save (ui : Dialogue σ) (loads : Loader σ) (line : String) (kind : FileKind)
    (path : Option Path) (s : Session σ) :
    SameWork s (s.run ui loads line (.save kind path)).2 := by
  obtain ⟨bytes, user, files, -, -, he⟩ | ⟨user, files, outcome, -, -, he⟩ :=
    run_save_cases ui loads line kind path s
  all_goals rw [he]
  · exact .of_save s user files
  · exact .of_files s user files

namespace Alike

variable {size : Bounds Float} {base base' : List (Mark Float)} {s s' : Session σ}
  {t t' : Session τ}

theorem of_sameWork (h : Alike size base base' s t) (hs : SameWork s s') (ht : SameWork t t') :
    Alike size base base' s' t' := by
  refine ⟨?_, ?_, ?_⟩
  · rw [hs.config, ht.config, h.config]
  · rw [hs.drawing, ht.drawing]
    exact h.drawing
  · rw [hs.entries, ht.entries, h.entries]

theorem setUser (h : Alike size base base' s t) (user : σ) :
    Alike size base base' { s with user } t :=
  ⟨h.config, h.drawing, h.entries⟩

/-! ## Lines -/

/-- An action is carried out in both sessions or refused in both. -/
theorem act (h : Alike size base base' s t) (line : String) (a : Action) :
    Alike size base base' (s.act line a).2 (t.act line a).2 := by
  by_cases ha : a = .reset
  · subst ha
    rw [act_reset, act_reset]
    refine ⟨h.config, ?_, rfl⟩
    rw [h.config]
    exact h.drawing.resetTurtle t.config
  · obtain ⟨ho, hd⟩ := h.drawing.execute s.config a
    rw [h.config] at ho hd
    cases hx : (a.execute t.config t.drawing).1 with
    | error e =>
      have hx' : (a.execute s.config s.drawing).1 = .error e := by
        rw [h.config, ho, hx]
      rw [act_of_error line hx', act_of_error line hx]
      exact h
    | ok message =>
      have hx' : a.execute s.config s.drawing =
          (.ok message, (a.execute t.config s.drawing).2) := by
        rw [h.config]
        exact Prod.ext (ho.trans hx) rfl
      rw [act_of_ok line ha hx', act_of_ok line ha (Prod.ext hx rfl)]
      refine ⟨h.config, hd, ?_⟩
      simp only [History.entries_add, h.entries]

/-- A line that does not load keeps sessions alike, whoever the users are and whatever would
deal with loads. -/
theorem enterWith (h : Alike size base base' s t) (ui : Dialogue σ) (ui' : Dialogue τ)
    (loads : Loader σ) (loads' : Loader τ) {text : String} (hn : Line.isLoad text = false) :
    Alike size base base' (s.enterWith ui loads text).2 (t.enterWith ui' loads' text).2 := by
  by_cases hc : ∃ c, Command.ofText text = .ok (some c)
  · obtain ⟨c, hc⟩ := hc
    obtain ⟨heard, told, hs⟩ := enterWith_command ui loads hc s
    obtain ⟨heard', told', ht⟩ := enterWith_command ui' loads' hc t
    have hu : Alike size base base' { s with user := heard } { t with user := heard' } :=
      h.of_sameWork (.of_user s heard) (.of_user t heard')
    rw [hs, ht]
    refine of_sameWork ?_ (.of_user _ told) (.of_user _ told')
    cases c with
    | act a => exact hu.act _ a
    | save kind path =>
      exact hu.of_sameWork (.run_save ui loads _ kind path _) (.run_save ui' loads' _ kind path _)
    | load kind path =>
      exact absurd hc (Command.ofText_ne_load hn kind path)
  · obtain ⟨user, result, hs⟩ := enterWith_idle ui loads (fun c h => hc ⟨c, h⟩) s
    obtain ⟨user', result', ht⟩ := enterWith_idle ui' loads' (fun c h => hc ⟨c, h⟩) t
    rw [hs, ht]
    exact h.of_sameWork (.of_user s user) (.of_user t user')

end Alike

/-! ## Replays -/

/-- The lines of a script that do not load. -/
def typedLines (lines : List String) : List String := lines.filter (!Line.isLoad ·)

section
variable {size : Bounds Float} {base base' : List (Mark Float)} {s : Session σ} {t : Session τ}

/-- A replayed line is dealt with as if it had been typed, unless it loads. -/
theorem Alike.feed (h : Alike size base base' s t) (ui : Dialogue σ) (ui' : Dialogue τ)
    (line : String) (sum : Tally) :
    let fed := (asTarget ui).feed line sum s
    fed.1.processed = sum.processed + 1 ∧ fed.1.total = sum.total ∧
      fed.1.cancelled = sum.cancelled ∧
      Alike size base base' fed.2 (t.enterAll ui' (typedLines [line])) := by
  cases hl : Line.isLoad line with
  | true =>
    have ht : t.enterAll ui' (typedLines [line]) = t := by
      simp [typedLines, hl, enterAll]
    rw [feed_load ui hl, ht]
    refine ⟨?_, rfl, rfl, h.setUser _⟩
    simp only [Tally.processed]
    omega
  | false =>
    have ht : t.enterAll ui' (typedLines [line]) = (t.enterWith ui' (load ui') line).2 := by
      simp [typedLines, hl, enterAll, enter]
    rw [feed_line ui hl, ht]
    refine ⟨?_, ?_, ?_, h.enterWith ui ui' refuseLoad (load ui') hl⟩
    · split
      all_goals
        simp only [Tally.processed]
        omega
    · split <;> rfl
    · split <;> rfl

/-- `k` first lines have been dealt with, as if those that do not load had been typed; the user
has stopped the replay if these are not all. -/
structure FedFirst (size : Bounds Float) (base base' : List (Mark Float)) (ui' : Dialogue τ)
    (t : Session τ) (lines : List String) (sum : Tally) (fed : Tally × Session σ) (k : Nat) :
    Prop where
  le : k ≤ lines.length
  processed : fed.1.processed = sum.processed + k
  total : fed.1.total = sum.total
  stopped : fed.1.cancelled = true ↔ k < lines.length
  alike : Alike size base base' fed.2 (t.enterAll ui' (typedLines (lines.take k)))

theorem enterAll_typedLines_cons (ui' : Dialogue τ) (line : String) (rest : List String)
    (t : Session τ) : t.enterAll ui' (typedLines (line :: rest)) =
      (t.enterAll ui' (typedLines [line])).enterAll ui' (typedLines rest) := by
  have hl : typedLines (line :: rest) = typedLines [line] ++ typedLines rest := by
    rw [typedLines, typedLines, typedLines, ← List.filter_append]
    rfl
  rw [hl, enterAll, List.foldl_append]
  rfl

theorem Alike.feedAll (h : Alike size base base' s t) (ui : Dialogue σ) (ui' : Dialogue τ)
    (lines : List String) (i : Nat) (sum : Tally) (hc : sum.cancelled = false) :
    ∃ k, FedFirst size base base' ui' t lines sum ((asTarget ui).feedAll lines i sum s) k := by
  -- the session that types goes one line ahead together with the one that replays
  induction lines generalizing i sum s t with
  | nil => exact ⟨0, Nat.le_refl 0, rfl, rfl, by simp [ReplayTarget.feedAll, hc], h⟩
  | cons line rest ih =>
    rw [feedAll_cons]
    split
    · exact ⟨0, Nat.zero_le _, rfl, rfl, by simp, h⟩
    · have hu := h.setUser (ui.showProgress i sum.total s.user)
      obtain ⟨hp, ht, hc', ha⟩ := hu.feed ui ui' line sum
      obtain ⟨k, hk⟩ := ih ha (i + 1) _ (hc'.trans hc)
      refine ⟨k + 1, ?_, ?_, hk.total.trans ht, ?_, ?_⟩
      · simpa using hk.le
      · rw [hk.processed, hp]
        omega
      · simpa using hk.stopped
      · rw [List.take_succ_cons, enterAll_typedLines_cons]
        exact hk.alike

end

/-! ## Loading -/

section
variable (ui : Dialogue σ)

theorem SameWork.mayDiscard (intention : String) (s : Session σ) :
    SameWork s (s.mayDiscard ui intention).2 := by
  obtain ⟨-, user, target, files, -, he⟩ | ⟨-, yes, user, target, files, -, he⟩ :=
    mayDiscard_cases ui intention s
  all_goals rw [he]
  · exact .of_save s user files
  · exact .of_files s user files

/-- A session made ready for a replay is like a new one, but for what is on its canvas. -/
theorem prepareReplay_alike (s : Session σ) (canvas : Canvas Float)
    (hb : canvas.bounds = s.drawing.canvas.bounds) (files : FileSystem) (user : τ) :
    Alike s.drawing.canvas.bounds (s.drawing.canvas.marks ++ [.clear]) canvas.marks
      (s.prepareReplay ui) (start s.config canvas files user) := by
  refine ⟨rfl, ⟨?_, rfl, hb, [], ?_, ?_⟩, rfl⟩
  · show s.config.startingTurtle s.drawing.canvas.bounds = s.config.startingTurtle canvas.bounds
    rw [hb]
  · rw [List.append_nil]
    rfl
  · rw [List.append_nil]
    rfl

/-- A replay of a file is the typing of its first lines into a new session. -/
theorem replayFile_fedFirst (path : Path) (script : Script) (s : Session σ) (ui' : Dialogue τ)
    (canvas : Canvas Float) (hb : canvas.bounds = s.drawing.canvas.bounds) (files : FileSystem)
    (user : τ) :
    FedFirst s.drawing.canvas.bounds (s.drawing.canvas.marks ++ [.clear]) canvas.marks ui'
      (start s.config canvas files user) script.lines (.start script.lines.length)
      (s.replayFile ui path script) (s.replayFile ui path script).1.processed := by
  have h := prepareReplay_alike ui (s.tell ui (loadingNotice path)) canvas hb files user
  obtain ⟨k, hk⟩ := h.feedAll ui ui' script.lines 1 (.start script.lines.length) rfl
  have hp : (s.replayFile ui path script).1.processed = k := by
    refine hk.processed.trans ?_
    simp [Tally.start, Tally.processed]
  rw [hp]
  exact ⟨hk.le, hk.processed, hk.total, hk.stopped, hk.alike.config, hk.alike.drawing,
    hk.alike.entries⟩

theorem replayFile_history (path : Path) (script : Script) (s : Session σ) :
    let r := s.replayFile ui path script
    r.2.history.replaying = false ∧
      r.2.history.dirty = (r.1.cancelled && !r.2.history.records.isEmpty) := by
  refine ⟨rfl, ?_⟩
  simp [replayFile, replay, History.finishReplay]

/-- After all lines nothing is unsaved; after some of them, what is on record is. -/
theorem replayFile_dirty (path : Path) (script : Script) (s : Session σ) :
    let r := s.replayFile ui path script
    (r.1.processed = script.lines.length → r.2.history.dirty = false) ∧
      (r.1.processed < script.lines.length →
        (r.2.history.dirty = true ↔ r.2.history.records ≠ [])) := by
  intro r
  obtain ⟨-, hdirty⟩ := replayFile_history ui path script s
  have hfed := replayFile_fedFirst ui path script s ui s.drawing.canvas rfl s.files s.user
  refine ⟨fun hk => ?_, fun hk => ?_⟩
  · have hx : r.1.cancelled = false := by
      rw [← Bool.not_eq_true, hfed.stopped]
      exact Nat.not_lt_of_ge hk.ge
    rw [hdirty, hx]
    rfl
  · have hx : r.1.cancelled = true := hfed.stopped.2 hk
    simp only [r] at hx ⊢
    rw [hdirty, hx]
    simp

/-- Loading a script that can be read leaves what typing its lines into a new session of the same
size leaves, the lines that load left out, up to the line before which the user stopped the
replay. -/
theorem load_is_typing {text : String} {path : Option Path} {s s' : Session σ} {script : Script}
    (hn : s.history.replaying = false)
    (hc : Command.ofText text = .ok (some (.load .script path)))
    (hask : s.mayDiscard ui "load commands" = (true, s'))
    (hr : readScript s'.files (path.getD s.config.scriptPath) = .ok script) :
    let tally := (s'.replayFile ui (path.getD s.config.scriptPath) script).1
    let k := tally.processed
    let n := script.lines.length
    let loaded := (s.enter ui text).2
    (s.enter ui text).1 = .ok (some (replayNotice (path.getD s.config.scriptPath) tally)) ∧
      tally.total = n ∧ k ≤ n ∧ (tally.cancelled = true ↔ k < n) ∧
      (∀ (τ : Type) (ui' : Dialogue τ) (canvas : Canvas Float) (files : FileSystem) (user : τ),
        canvas.bounds = s.drawing.canvas.bounds →
        let typed := (start s.config canvas files user).enterAll ui'
          (typedLines (script.lines.take k))
        loaded.drawing.turtle = typed.drawing.turtle ∧
          loaded.history.entries = typed.history.entries ∧
          ∃ added, loaded.drawing.canvas.marks = s.drawing.canvas.marks ++ .clear :: added ∧
            typed.drawing.canvas.marks = canvas.marks ++ added) ∧
      loaded.history.replaying = false ∧
      (k = n → loaded.history.dirty = false) ∧
      (k < n → (loaded.history.dirty = true ↔ loaded.history.records ≠ [])) := by
  intro tally k n loaded
  have hw : SameWork s s' := by
    have h := SameWork.mayDiscard ui "load commands" s
    rwa [hask] at h
  obtain ⟨user, he⟩ := enter_loadScript ui hn hc hask (by rw [hw.config]; exact hr)
  rw [hw.config] at he
  have hfed := fun (τ : Type) (ui' : Dialogue τ) canvas hb files user =>
    replayFile_fedFirst ui (path.getD s.config.scriptPath) script s' ui' canvas hb files user
  simp only [hw.config, hw.drawing] at hfed
  have hown := hfed σ ui s.drawing.canvas rfl s.files s.user
  obtain ⟨hrep, -⟩ := replayFile_history ui (path.getD s.config.scriptPath) script s'
  obtain ⟨hclean, hunsaved⟩ := replayFile_dirty ui (path.getD s.config.scriptPath) script s'
  have hl : loaded = { (s'.replayFile ui (path.getD s.config.scriptPath) script).2 with user } :=
    congrArg Prod.snd he
  rw [hl]
  refine ⟨congrArg Prod.fst he, hown.total, hown.le, hown.stopped, ?_, hrep, hclean, hunsaved⟩
  intro τ ui' canvas files user' hb typed
  obtain ⟨-, hd, hentries⟩ := (hfed τ ui' canvas hb files user').alike
  obtain ⟨added, hm, hm'⟩ := hd.marks
  refine ⟨hd.turtle, hentries, added, ?_, hm'⟩
  simpa using hm

end

/-! ## A script with a load and a reset in it -/

/-- A user who agrees to everything and stops a replay after so many lines. -/
def stopsAfter (limit : Nat) : Dialogue Nat where
  tell _ shown := shown
  askUnsaved _ shown := (.discard, shown)
  showProgress _ _ shown := shown + 1
  stopRequested shown := limit ≤ shown
  clearStop _ := 0

def sampleScript : Script := ⟨["penup", "load image sky.png", "reset", "right 90"]⟩

/-- A session with the sample script in its files. -/
def withSampleScript : Session Nat :=
  start .standard (.blank ⟨200, 200⟩)
    ⟨[(["drawing.txt"], .file (Script.encode sampleScript.lines))], [], []⟩ 0

/-- A new session with a script in its files. -/
def withScript (lines : List String) : Session Nat :=
  start .standard (.blank ⟨200, 200⟩) ⟨[(["drawing.txt"], .file (Script.encode lines))], [], []⟩ 0

theorem readScript_withScript {lines : List String} (hl : ∀ l ∈ lines, Script.IsLine l) :
    readScript (withScript lines).files ⟨"drawing.txt"⟩ = .ok ⟨lines⟩ := by
  have hb : (withScript lines).files.read ⟨"drawing.txt"⟩ = .ok (Script.encode lines) := rfl
  rw [readScript, hb]
  simp only [Script.decode?_encode hl]

theorem isLine_sampleScript : ∀ l ∈ sampleScript.lines, Script.IsLine l := by
  intro l hl
  simp only [sampleScript, List.mem_cons, List.not_mem_nil, or_false] at hl
  rcases hl with rfl | rfl | rfl | rfl
  all_goals exact ⟨by cbv, by decide, by decide⟩

theorem readScript_sampleScript :
    readScript withSampleScript.files ⟨"drawing.txt"⟩ = .ok sampleScript :=
  readScript_withScript isLine_sampleScript

theorem ofText_loadDrawing : Command.ofText "load commands drawing.txt" =
    .ok (some (.load .script (some ⟨"drawing.txt"⟩))) := by cbv

theorem load_is_typing_sample :
    withSampleScript.history.replaying = false ∧
      Command.ofText "load commands drawing.txt" =
        .ok (some (.load .script (some ⟨"drawing.txt"⟩))) ∧
      withSampleScript.mayDiscard (stopsAfter 3) "load commands" = (true, withSampleScript) ∧
      readScript withSampleScript.files ⟨"drawing.txt"⟩ = .ok sampleScript ∧
      ∃ k ≤ 4,
        (withSampleScript.enter (stopsAfter 3) "load commands drawing.txt").2.drawing.turtle =
          (withSampleScript.enterAll (stopsAfter 0)
            (typedLines (sampleScript.lines.take k))).drawing.turtle := by
  have hask : withSampleScript.mayDiscard (stopsAfter 3) "load commands" =
      (true, withSampleScript) := rfl
  refine ⟨rfl, ofText_loadDrawing, hask, readScript_sampleScript, ?_⟩
  obtain ⟨-, -, hk, -, htyped, -⟩ :=
    load_is_typing (stopsAfter 3) rfl ofText_loadDrawing hask readScript_sampleScript
  obtain ⟨ht, -⟩ := htyped Nat (stopsAfter 0) (.blank ⟨200, 200⟩) withSampleScript.files 0 rfl
  exact ⟨_, hk, ht⟩

end Session

end TurtleGraphics
