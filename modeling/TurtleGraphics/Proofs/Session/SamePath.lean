import TurtleGraphics.Proofs.FileSystem.Components
import TurtleGraphics.Proofs.Session.Replaying
import TurtleGraphics.Proofs.Session.RoundTrip

/-!
# Saving and loading under one path

A save of commands adds an extension to a path without one, a load does not. So the two agree on
the file if the path has an extension: the load leads to the place that was written and replays
what stands there. Under any other path the load never leads to that place (`load_same_path`).
-/

set_option autoImplicit false

namespace TurtleGraphics.Session

variable {σ : Type}

/-- A load under the path of a save that has been reported as done leads to the file just written,
and replays it, exactly if the path has an extension. -/
theorem load_same_path (ui : Dialogue σ) {s : Session σ} (hn : s.history.replaying = false)
    {save load : String} {path : Option Path}
    (hsave : Command.ofText save = .ok (some (.save .script path)))
    (hload : Command.ofText load = .ok (some (.load .script path)))
    (hok : (s.enter ui save).1 = .ok (some (savedNotice (s.scriptTarget path)))) :
    let saved := (s.enter ui save).2
    let p := path.getD s.config.scriptPath
    let bytes := Script.encode s.history.scriptLines
    ∃ place, s.files.target (s.scriptTarget path) = .ok place ∧
      saved.files.entryAt? place = some (.file bytes) ∧
      (p.extension?.isSome = true → saved.files.locate p = .ok (place, .file bytes) ∧
        ∃ script, Script.decode? bytes = some script ∧
          saved.replayStart? ui load = some ⟨p, script, saved⟩ ∧
          (saved.enter ui load).1 =
            .ok (some (replayNotice p (saved.replayFile ui p script).1))) ∧
      (p.extension?.isSome = false → ∀ e, saved.files.locate p ≠ .ok (place, e)) := by
  intro saved p bytes
  obtain ⟨told, files, hw, hs⟩ := enter_saved ui hsave hok
  have hsaved : saved = { s with user := told, files, history := s.history.markSaved } := hs
  have hfiles : saved.files = files := by rw [hsaved]
  obtain ⟨place, htarget, hlocate, hentry⟩ := FileSystem.locate_of_write hw
  rw [hfiles]
  refine ⟨place, htarget, hentry, fun he => ?_, fun he e => ?_⟩
  · have hp : s.scriptTarget path = p := if_pos he
    rw [hp] at hlocate
    have hread : readScript saved.files (path.getD saved.config.scriptPath) =
        .ok (Script.ofText (Script.textOf s.history.scriptLines)) := by
      rw [hsaved]
      exact readScript_eq_ok.2 ⟨place, bytes, hlocate, Script.decode?_encode_eq _⟩
    have hstart : saved.replayStart? ui load = _ :=
      replayStart?_of_clean (by rw [hsaved]; exact hn) (by rw [hsaved]; rfl) hload hread
    have hpath : path.getD saved.config.scriptPath = p := by rw [hsaved]
    rw [hpath] at hstart
    obtain ⟨user, henter⟩ := enter_replayStart hstart
    exact ⟨hlocate, _, Script.decode?_encode_eq _, hstart, congrArg Prod.fst henter⟩
  · have hnone : p.extension? = none := by simpa using he
    exact FileSystem.locate_ne_of_write hnone (by decide) (by decide) hw htarget e

theorem ofText_saveDrawingTxt : Command.ofText "save commands drawing.txt" =
    .ok (some (.save .script (some ⟨"drawing.txt"⟩))) := by cbv

theorem drawnSample_saveTxt : drawnSample.enter (stopsAfter 9) "save commands drawing.txt" =
    (.ok (some (savedNotice ⟨"drawing.txt"⟩)),
      { drawnSample with files := savedFiles, history := drawnSample.history.markSaved }) := by
  have hr : Line.read "save commands drawing.txt" =
      .ok (some ⟨.save, some "commands drawing.txt", none⟩) := by cbv
  exact drawnSample_saveAs hr (by cbv) rfl

theorem load_same_path_sample :
    let saved := (drawnSample.enter (stopsAfter 9) "save commands drawing.txt").2
    drawnSample.history.replaying = false ∧
      (drawnSample.enter (stopsAfter 9) "save commands drawing.txt").1 =
        .ok (some (savedNotice (drawnSample.scriptTarget (some ⟨"drawing.txt"⟩)))) ∧
      ∃ script, saved.replayStart? (stopsAfter 9) "load commands drawing.txt" =
        some ⟨⟨"drawing.txt"⟩, script, saved⟩ := by
  intro saved
  have hn : drawnSample.history.replaying = false := by rw [drawnSample_eq]
  have hok : (drawnSample.enter (stopsAfter 9) "save commands drawing.txt").1 =
      .ok (some (savedNotice (drawnSample.scriptTarget (some ⟨"drawing.txt"⟩)))) := by
    rw [drawnSample_saveTxt]
    rfl
  obtain ⟨place, -, -, h, -⟩ := load_same_path (stopsAfter 9) hn ofText_saveDrawingTxt
    ofText_loadDrawing hok
  obtain ⟨-, script, -, hs, -⟩ := h rfl
  exact ⟨hn, hok, script, hs⟩

/-- Without an extension the load looks for a file that was never written. -/
theorem load_misses_saved :
    let saved := (drawnSample.enter (stopsAfter 9) "save commands drawing").2
    (drawnSample.enter (stopsAfter 9) "save commands drawing").1 =
        .ok (some (savedNotice ⟨"drawing.txt"⟩)) ∧
      (saved.enter (stopsAfter 9) "load commands drawing").1 =
        .error (.unreadable ⟨"drawing"⟩ .notFound) := by
  have hc : Command.ofText "load commands drawing" =
      .ok (some (.load .script (some ⟨"drawing"⟩))) := by cbv
  rw [drawnSample_save]
  refine ⟨rfl, ?_⟩
  obtain ⟨told, he⟩ := enter_load (stopsAfter 9) hc
    { drawnSample with files := savedFiles, history := drawnSample.history.markSaved }
  rw [he, drawnSample_eq]
  rfl

end TurtleGraphics.Session
