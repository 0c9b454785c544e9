import TurtleGraphics.Proofs.Session.SavedLines

/-!
# No work is dropped without consent

A line that loads a file asks about unsaved changes first, and nothing else is asked of the user
while it is taken (`enter_load_logged`). The answers decide: either they allow the work to be
dropped, as it is or once it is saved (`Allows`), or they keep it, and then taking the line has
changed nothing of the work. It has changed no file either, unless the user wanted the work saved
and the write broke off (`load_consent`).
-/

set_option autoImplicit false

namespace TurtleGraphics.Session

variable {σ : Type} (ui : Dialogue σ)

/-! ## What a load asks -/

/-- What is reported of a load that the user has cancelled. -/
def cancelledNotice : FileKind → String
  | .script => "Load commands cancelled."
  | .image => "Load image cancelled."

/-- A load asks about unsaved changes and nothing else. If the user keeps them that is all it
does. -/
theorem load_logged (line : String) (kind : FileKind) (path : Option Path)
    {s : Session (σ × List Question)} (hn : s.history.replaying = false) :
    let m := s.mayDiscard ui.logged (intention kind)
    let r := load ui.logged line kind path s
    r.2.user.2 = m.2.user.2 ∧ (m.1 = false → r = (.ok (cancelledNotice kind), m.2)) := by
  cases kind with
  | script =>
    simp only [load, hn, Bool.false_eq_true, if_false, intention]
    obtain ⟨s', hm, he⟩ | ⟨s', e, hm, he⟩ | ⟨s', script, hm, -, he⟩ :=
      loadScript_cases ui.logged path s
    all_goals rw [he, hm]
    · exact ⟨rfl, fun _ => rfl⟩
    · exact ⟨rfl, fun h => by cases h⟩
    · have hsilent :=
        ReplayStart.run_silent ui ⟨path.getD s'.config.scriptPath, script, s'⟩
      exact ⟨hsilent, fun h => by cases h⟩
  | image =>
    simp only [load, hn, Bool.false_eq_true, if_false, intention]
    obtain ⟨s', hm, he⟩ | ⟨s', e, hm, he⟩ | ⟨s', bytes, hm, he⟩ := loadImage_cases ui.logged path s
    all_goals rw [he, hm]
    · exact ⟨rfl, fun _ => rfl⟩
    · exact ⟨rfl, fun h => by cases h⟩
    · exact ⟨rfl, fun h => by cases h⟩

/-- So does a line that loads. -/
theorem enter_load_logged {text : String} {kind : FileKind} {path : Option Path}
    (hc : Command.ofText text = .ok (some (.load kind path))) {s : Session (σ × List Question)}
    (hn : s.history.replaying = false) :
    let m := s.mayDiscard ui.logged (intention kind)
    let r := s.enter ui.logged text
    r.2.user.2 = m.2.user.2 ∧
      (m.1 = false → ∃ user, r = (.ok (some (cancelledNotice kind)), { m.2 with user })) := by
  intro m r
  obtain ⟨hasked, hkept⟩ := load_logged ui (Text.trim text) kind path hn
  obtain ⟨told, ht⟩ := report_logged ui (load ui.logged (Text.trim text) kind path s)
  have hr : r = report ui.logged (load ui.logged (Text.trim text) kind path s) := by
    show s.enterWith ui.logged (load ui.logged) text = _
    unfold enterWith
    rw [hear_load ui.logged hc]
    rfl
  rw [hr, ht]
  refine ⟨hasked, fun hm => ?_⟩
  rw [hkept hm]
  exact ⟨_, rfl⟩

/-! ## Consent -/

/-- The answers by which a user who is asked about unsaved changes lets them go, and the files by
then: they do not want them, or `bytes` have been written where they want them saved. -/
inductive Allows (question : String) (bytes : ByteArray) (s : Session σ) :
    List Question → FileSystem → Prop
  | discarded : Allows question bytes s [.unsaved question .discard] s.files
  | saved {chosen : Path} {files : FileSystem}
      (hw : s.files.write (chosen.ensureExtension "txt") bytes = (.ok (), files)) :
      Allows question bytes s
        (.unsaved question .saveFirst :: .savePath s.config.scriptPath (some chosen) ::
          s.replaceQuestions (chosen.ensureExtension "txt") true) files

section
variable {question : String} {bytes : ByteArray} {s : Session σ} {asked : List Question}
  {files : FileSystem}

/-- The log takes no part in what the answers mean. -/
theorem Allows.of_withLog (h : Allows question bytes s.withLog asked files) :
    Allows question bytes s asked files := by
  cases h with
  | discarded => exact .discarded
  | saved hw => exact .saved hw

theorem Refuses.of_withLog (h : Refuses question bytes s.withLog asked files) :
    Refuses question bytes s asked files := by
  cases h with
  | cancelled => exact .cancelled
  | noPath => exact .noPath
  | declined he => exact .declined he
  | failed hw => exact .failed hw

/-- One question about unsaved changes is asked, whatever else is. -/
def AsksOnce (question : String) (asked : List Question) : Prop :=
  ∃ decision rest, asked = .unsaved question decision :: rest ∧
    ∀ q d, .unsaved q d ∉ rest

theorem unsaved_not_mem_replaceQuestions (path : Path) (yes : Bool) (s : Session σ) (q : String)
    (d : Decision) : .unsaved q d ∉ s.replaceQuestions path yes := by
  unfold replaceQuestions
  split <;> simp

theorem Allows.asksOnce (h : Allows question bytes s asked files) :
    AsksOnce question asked := by
  cases h with
  | discarded => exact ⟨_, _, rfl, by simp⟩
  | saved hw => exact ⟨_, _, rfl, by simp [unsaved_not_mem_replaceQuestions]⟩

theorem Refuses.asksOnce (h : Refuses question bytes s asked files) :
    AsksOnce question asked := by
  cases h with
  | cancelled => exact ⟨_, _, rfl, by simp⟩
  | noPath => exact ⟨_, _, rfl, by simp⟩
  | declined he => exact ⟨_, _, rfl, by simp⟩
  | failed hw => exact ⟨_, _, rfl, by simp [unsaved_not_mem_replaceQuestions]⟩

/-- A user who keeps unsaved changes has no file changed, but the one they wanted them saved in if
its write broke off. That file holds an initial part of the bytes then. -/
theorem Refuses.kept (h : Refuses question bytes s asked files) {place : Place}
    (hne : files.entryAt? place ≠ s.files.entryAt? place) :
    ∃ chosen kept, .savePath s.config.scriptPath (some chosen) ∈ asked ∧
      s.files.target (Path.ensureExtension chosen "txt") = .ok place ∧
      files.entryAt? place = some (.file (bytes.extract 0 kept)) := by
  cases h with
  | cancelled => exact absurd rfl hne
  | noPath => exact absurd rfl hne
  | declined he => exact absurd rfl hne
  | @failed chosen fault files hw =>
    obtain ⟨ht, left, hleft, hentry⟩ := FileSystem.target_of_write hw hne
    obtain ⟨kept, rfl⟩ := hleft.initial
    exact ⟨chosen, kept, by simp, ht, hentry⟩

end

/-- Unsaved changes are let go with the user's consent, or kept with all of the work. -/
theorem mayDiscard_consent (intention : String) (s : Session σ) :
    let m := s.withLog.mayDiscard ui.logged intention
    let question := unsavedQuestion intention
    let bytes := Script.encode s.history.scriptLines
    (s.history.dirty = false → m.2.user.2 = []) ∧
      (s.history.dirty = true →
        Allows question bytes s m.2.user.2 m.2.files ∨
          Refuses question bytes s m.2.user.2 m.2.files ∧ m.1 = false ∧
            m.2.drawing = s.drawing ∧ m.2.history = s.history) := by
  intro m question bytes
  have hasks : Asks question s.withLog m := mayDiscard_asks ui intention s.withLog
  generalize m = result at hasks
  cases hasks with
  | clean hd => exact ⟨fun _ => rfl, fun h => absurd (h.symm.trans hd) (by simp)⟩
  | discarded hd user =>
    exact ⟨fun h => absurd (h.symm.trans hd) (by simp), fun _ => .inl .discarded⟩
  | saved hd user hw =>
    refine ⟨fun h => absurd (h.symm.trans hd) (by simp), fun _ => .inl ?_⟩
    exact Allows.of_withLog (.saved hw)
  | refused hd user h =>
    refine ⟨fun h => absurd (h.symm.trans hd) (by simp), fun _ => .inr ?_⟩
    exact ⟨h.of_withLog, rfl, rfl, rfl⟩

/-- A line that loads asks nothing if nothing is unsaved. Otherwise it asks once whether unsaved
changes may go. The user lets them go as they are, or has just had them written to a file, as they
are on record: one per line, if no line holds a line feed. In all other cases the load is cancelled
and the work is what it was. So are the files, unless the write has broken off: then the file that
the user has chosen holds an initial part of the lines, and no other has changed. -/
theorem load_consent (config : Config) (canvas : Canvas Float) (files : FileSystem) (user : σ)
    (events : List (Event σ)) {text : String} {kind : FileKind} {path : Option Path}
    (hc : Command.ofText text = .ok (some (.load kind path))) :
    let s := (start config canvas files user).live ui events
    let r := s.withLog.enter ui.logged text
    let asked := r.2.user.2
    let question := unsavedQuestion (intention kind)
    let lines := s.history.scriptLines
    let bytes := Script.fileOf lines
    mapResult Prod.fst r = s.enter ui text ∧
      ((∀ l ∈ lines, '\n' ∉ l.toList) → Script.decode? bytes = some ⟨lines⟩) ∧
      (s.history.dirty = false → asked = []) ∧
      (s.history.dirty = true → AsksOnce question asked ∧
        (Allows question bytes s asked (s.mayDiscard ui (intention kind)).2.files ∨
          Refuses question bytes s asked r.2.files ∧
            r.1 = .ok (some (cancelledNotice kind)) ∧ r.2.drawing = s.drawing ∧
            r.2.history = s.history ∧
            ∀ place, r.2.files.entryAt? place ≠ s.files.entryAt? place →
              ∃ chosen kept, .savePath s.config.scriptPath (some chosen) ∈ asked ∧
                s.files.target (chosen.ensureExtension "txt") = .ok place ∧
                r.2.files.entryAt? place = some (.file (bytes.extract 0 kept)))) := by
  intro s r asked question lines bytes
  have hn : s.history.replaying = false := live_replaying ui events rfl
  have hkept : s.WellKept := live_wellKept ui config canvas files user events
  obtain ⟨hasked, hcancelled⟩ := enter_load_logged ui hc (s := s.withLog) hn
  obtain ⟨hclean, hdirty⟩ := mayDiscard_consent ui (intention kind) s
  have hfiles : (s.withLog.mayDiscard ui.logged (intention kind)).2.files =
      (s.mayDiscard ui (intention kind)).2.files := by
    have hm := mayDiscard_mapUser ui.logged_projects (intention kind) s.withLog
    exact (congrArg (fun m => m.2.files) hm).symm
  rw [hkept.encode_eq] at hdirty
  refine ⟨enter_logged ui text s, hkept.decode_fileOf, fun hd => hasked.trans (hclean hd),
    fun hd => ?_⟩
  simp only [asked, r, hasked]
  obtain hallows | ⟨hrefuses, hm, hdr, hh⟩ := hdirty hd
  · rw [hfiles] at hallows
    exact ⟨hallows.asksOnce, .inl hallows⟩
  · obtain ⟨told, hr⟩ := hcancelled hm
    refine ⟨hrefuses.asksOnce, .inr ?_⟩
    rw [hr]
    exact ⟨hrefuses, rfl, hdr, hh, fun place hne => hrefuses.kept hne⟩

/-- The user is asked about the pen that was lifted. -/
theorem load_consent_sample :
    let asked := (drawnSample.withLog.enter (stopsAfter 9).logged "load image sky.png").2.user.2
    Command.ofText "load image sky.png" = .ok (some (.load .image (some ⟨"sky.png"⟩))) ∧
      drawnSample.history.dirty = true ∧ AsksOnce (unsavedQuestion "load image") asked := by
  intro asked
  have hd : drawnSample.history.dirty = true := by
    rw [drawnSample_eq]
  have hs : (start .standard (.blank ⟨200, 200⟩) .empty 0).live (stopsAfter 9)
      [.line "penup"] = drawnSample := rfl
  obtain ⟨-, -, -, h⟩ := load_consent (stopsAfter 9) .standard (.blank ⟨200, 200⟩) .empty 0
    [.line "penup"] ofText_loadSky
  rw [hs] at h
  exact ⟨ofText_loadSky, hd, (h hd).1⟩

/-! ## Saves that fall short -/

/-- A session after one line. Its user always has unsaved changes saved first. -/
def lineSample (files : FileSystem) (text : String) : Session Unit :=
  (start .standard (.blank ⟨200, 200⟩) files ()).live savesFirst [.line text]

/-- An image to be loaded. -/
def skyFiles : FileSystem := ⟨[(["sky.png"], .file "sky".toUTF8)], [], []⟩

/-- A script on a disk that is full by the time it is to be replaced. -/
def fullDisk : FileSystem :=
  ⟨[(["turtle_commands.txt"], .file (Script.encode ["pendown"]))], [], [some ⟨0, .noSpace⟩]⟩

theorem lineSample_lineFeed (files : FileSystem) : lineSample files "penwidth\n2" =
    { start .standard (.blank ⟨200, 200⟩) files () with
      drawing.turtle.width := 2
      history := ⟨[⟨"penwidth\n2", .replay, false⟩], true, false⟩ } := by
  show (enterWith savesFirst (load savesFirst) "penwidth\n2" _).2 = _
  rw [enterWith_lineFeed]
  rfl

theorem lineSample_penUp (files : FileSystem) : lineSample files "penup" =
    { start .standard (.blank ⟨200, 200⟩) files () with
      drawing.turtle.penDown := false
      history := ⟨[⟨"penup", .replay, false⟩], true, false⟩ } := by
  show (enterWith savesFirst (load savesFirst) "penup" _).2 = _
  rw [enterWith_penUp]
  rfl

/-- A recorded line with a line feed inside is two lines of the file for which it is let go. A save
that finds no space keeps the work in the session, but not the file it was to replace. -/
theorem load_consent_exceptions :
    (let s := lineSample skyFiles "penwidth\n2"
      let r := s.enter savesFirst "load image sky.png"
      s.history.scriptLines = ["penwidth\n2"] ∧
        readScript r.2.files ⟨"turtle_commands.txt"⟩ = .ok ⟨["penwidth", "2"]⟩ ∧
        s.drawing.turtle.width = 2 ∧ r.2.drawing.turtle.width = 1) ∧
      (let s := lineSample fullDisk "penup"
        let r := s.enter savesFirst "load image sky.png"
        r.1 = .ok (some (cancelledNotice .image)) ∧
          s.files.read ⟨"turtle_commands.txt"⟩ = .ok (Script.encode ["pendown"]) ∧
          r.2.files.read ⟨"turtle_commands.txt"⟩ = .ok .empty) := by
  constructor
  · intro s r
    obtain ⟨told, he⟩ := enter_load savesFirst ofText_loadSky s
    have hr : r = _ := he
    have hs : s = _ := lineSample_lineFeed skyFiles
    rw [hr, hs]
    refine ⟨rfl, ?_, rfl, rfl⟩
    refine readScript_eq_ok.2 ⟨["turtle_commands.txt"], Script.encode ["penwidth\n2"], rfl, ?_⟩
    rw [Script.decode?_encode_eq, ofText_lineFeed]
  · intro s r
    obtain ⟨told, he⟩ := enter_load savesFirst ofText_loadSky s
    have hr : r = _ := he
    have hs : s = _ := lineSample_penUp fullDisk
    rw [hr, hs]
    exact ⟨rfl, rfl, rfl⟩

end TurtleGraphics.Session
