import TurtleGraphics.Proofs.Script.LineFeeds
import TurtleGraphics.Proofs.Session.Records
import TurtleGraphics.Proofs.Session.RoundTrip

/-!
# The lines in a saved file

A file that a session has saved is read as the scripts in its recorded lines, one after the other.
That is the lines themselves if and only if none of them holds a line feed
(`saved_lines_read`). A line feed is white space to the reader of commands, so a line with
one inside can be accepted and recorded, and its two halves come back (`saved_lineFeed_splits`).
-/

set_option autoImplicit false

namespace TurtleGraphics.Session

variable {σ : Type}

/-- The file of a save that has been reported as done reads as what the recorded lines read as. It
reads as these lines exactly if there is no line feed in any of them. -/
theorem saved_lines_read (ui : Dialogue σ) (config : Config) (canvas : Canvas Float)
    (files : FileSystem) (user : σ) (events : List (Event σ)) {save : String} {path : Option Path}
    (hsave : Command.ofText save = .ok (some (.save .script path))) :
    let s := (start config canvas files user).live ui events
    let saved := (s.enter ui save).2
    let lines := saved.history.scriptLines
    (s.enter ui save).1 = .ok (some (savedNotice (s.scriptTarget path))) →
      readScript saved.files (s.scriptTarget path) =
          .ok ⟨lines.flatMap fun l => (Script.ofText l).lines⟩ ∧
        (readScript saved.files (s.scriptTarget path) = .ok ⟨lines⟩ ↔
          ∀ l ∈ lines, '\n' ∉ l.toList) := by
  intro s saved lines hok
  have hkept : s.WellKept := live_wellKept ui config canvas files user events
  obtain ⟨told, files', hw, hs⟩ := enter_saved ui hsave hok
  have hlines : lines = s.history.scriptLines := by
    simp only [lines, saved, hs]
    rfl
  have ht : ∀ l ∈ lines, Text.trim l = l := by
    intro l hl
    rw [hlines] at hl
    exact (hkept.of_mem_scriptLines hl).1
  have hne : ∀ l ∈ lines, l ≠ "" := by
    intro l hl
    rw [hlines] at hl
    exact (hkept.of_mem_scriptLines hl).2
  have hfiles : saved.files = files' := by simp only [saved, hs]
  have hread : readScript saved.files (s.scriptTarget path) =
      .ok (Script.ofText (Script.textOf lines)) := by
    rw [hfiles, readScript, FileSystem.read_of_write hw]
    simp only [Script.decode?_encode_eq, hlines]
  refine ⟨?_, ?_⟩
  · rw [hread, Script.ofText_textOf_eq ht hne]
  · rw [hread, ← Script.ofText_textOf_iff ht hne, Except.ok.injEq]

/-! ## A recorded line feed -/

theorem enterWith_lineFeed (ui : Dialogue σ) (loads : Loader σ) (s : Session σ) :
    s.enterWith ui loads "penwidth\n2" = (.ok (some (Action.message (.penWidth 2))),
      { s with
        drawing.turtle.width := 2
        history := s.history.add "penwidth\n2" .replay
        user := ui.tell (Action.message (.penWidth 2)) s.user }) := by
  have hr : Line.read "penwidth\n2" = .ok (some ⟨.penWidth, some "2", none⟩) := rfl
  have hc : Command.ofLine ⟨.penWidth, some "2", none⟩ = .ok (.act (.penWidth 2)) := rfl
  have ht : Text.trim "penwidth\n2" = "penwidth\n2" := rfl
  unfold enterWith
  rw [hear_of_read ui hr rfl hc, ht]
  rfl

theorem ofText_lineFeed :
    Script.ofText (Script.textOf ["penwidth\n2"]) = ⟨["penwidth", "2"]⟩ := rfl

/-- The session after a line with a line feed between its words. -/
def lineFeedSample : Session Nat := emptySample.live (stopsAfter 9) [.line "penwidth\n2"]

theorem lineFeedSample_eq : lineFeedSample =
    { emptySample with
      drawing.turtle.width := 2
      history := ⟨[⟨"penwidth\n2", .replay, false⟩], true, false⟩ } := by
  show (emptySample.enterWith (stopsAfter 9) (load (stopsAfter 9)) "penwidth\n2").2 = _
  rw [enterWith_lineFeed]
  rfl

theorem ofText_saveDrawing : Command.ofText "save commands drawing" =
    .ok (some (.save .script (some ⟨"drawing"⟩))) := by
  unfold Command.ofText
  rw [read_saveDrawing]
  dsimp only
  rw [ofLine_saveDrawing]
  rfl

theorem lineFeedSample_save : lineFeedSample.enter (stopsAfter 9) "save commands drawing" =
    (.ok (some (savedNotice ⟨"drawing.txt"⟩)),
      { lineFeedSample with
        files := ⟨[(["drawing.txt"], .file (Script.encode ["penwidth\n2"]))], [], []⟩
        history := lineFeedSample.history.markSaved }) := by
  have ht : lineFeedSample.scriptTarget (some ⟨"drawing"⟩) = ⟨"drawing.txt"⟩ := by
    unfold scriptTarget
    rfl
  unfold enter enterWith
  rw [hear_of_read (stopsAfter 9) read_saveDrawing rfl ofLine_saveDrawing]
  show report (stopsAfter 9) (lineFeedSample.saveScript (stopsAfter 9) (some ⟨"drawing"⟩)) = _
  rw [saveScript_eq, ht, lineFeedSample_eq]
  rfl

theorem saved_lines_read_sample :
    let saved := (lineFeedSample.enter (stopsAfter 9) "save commands drawing").2
    (lineFeedSample.enter (stopsAfter 9) "save commands drawing").1 =
        .ok (some (savedNotice (lineFeedSample.scriptTarget (some ⟨"drawing"⟩)))) ∧
      readScript saved.files (lineFeedSample.scriptTarget (some ⟨"drawing"⟩)) =
        .ok ⟨["penwidth\n2"].flatMap fun l => (Script.ofText l).lines⟩ := by
  intro saved
  have hok : (lineFeedSample.enter (stopsAfter 9) "save commands drawing").1 =
      .ok (some (savedNotice (lineFeedSample.scriptTarget (some ⟨"drawing"⟩)))) := by
    rw [lineFeedSample_save]
    rfl
  have hlines : saved.history.scriptLines = ["penwidth\n2"] := by
    simp only [saved]
    rw [lineFeedSample_save, lineFeedSample_eq]
    rfl
  obtain ⟨hread, -⟩ := saved_lines_read (stopsAfter 9) .standard (.blank ⟨200, 200⟩) .empty 0
    [.line "penwidth\n2"] ofText_saveDrawing hok
  rw [← hlines]
  exact ⟨hok, hread⟩

/-- The recorded line comes back as two lines. -/
theorem saved_lineFeed_splits :
    let saved := (lineFeedSample.enter (stopsAfter 9) "save commands drawing").2
    (lineFeedSample.enter (stopsAfter 9) "save commands drawing").1 =
        .ok (some (savedNotice ⟨"drawing.txt"⟩)) ∧
      saved.history.scriptLines = ["penwidth\n2"] ∧
      readScript saved.files ⟨"drawing.txt"⟩ = .ok ⟨["penwidth", "2"]⟩ := by
  rw [lineFeedSample_save]
  refine ⟨rfl, ?_, ?_⟩
  · rw [lineFeedSample_eq]
    rfl
  · refine readScript_eq_ok.2 ⟨["drawing.txt"], Script.encode ["penwidth\n2"], rfl, ?_⟩
    rw [Script.decode?_encode_eq, ofText_lineFeed]

end TurtleGraphics.Session
