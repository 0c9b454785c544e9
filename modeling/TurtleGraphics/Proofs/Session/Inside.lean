import TurtleGraphics.Proofs.Drawing.Inside
import TurtleGraphics.Proofs.Session.Loading
import TurtleGraphics.Proofs.Session.Trace

/-!
# Runs inside the canvas

Under the rule that refuses to leave the canvas, a run leaves the turtle inside the canvas and has
drawn inside only (`live_inside`). Every deed keeps this: what starts over puts the turtle at the
centre, and what is drawn is drawn by an action.
-/

set_option autoImplicit false

namespace TurtleGraphics.Session

variable {σ : Type} {config : Config} {b : Bounds Float} {base : List (Mark Float)}

/-- A session that is refused to leave a canvas of size `b`, and has not left it. -/
structure StaysInside (b : Bounds Float) (base : List (Mark Float)) (s : Session σ) : Prop where
  refuses : s.config.edgeRule = .refuse
  fenced : s.drawing.Fenced b base

theorem StaysInside.change (hb : b.Contains b.centre) {d : Deed} {s t : Session σ}
    (h : Change d s t) (hs : StaysInside b base s) : StaysInside b base t := by
  obtain ⟨hc, hf⟩ := hs
  cases h with
  | talk user => exact ⟨hc, hf⟩
  | save _ hw => exact ⟨hc, hf⟩
  | failedSave _ hw => exact ⟨hc, hf⟩
  | finishReplay completed => exact ⟨hc, hf⟩
  | aside files user render => exact ⟨hc, hf.bounds, hf.turtle, hf.marks⟩
  | reset => exact ⟨hc, hf.resetTurtle hb s.config⟩
  | background _ image => exact ⟨hc, (hf.clearCanvas.resetTurtle hb s.config).setBackground image⟩
  | startReplay => exact ⟨hc, (hf.resetTurtle hb s.config).clearCanvas⟩
  | @draw s line message a drawing hl ht ha hx =>
    have hd := hf.execute hc hb a
    rw [hx] at hd
    exact ⟨hc, hd⟩

/-- If moves that would leave the canvas are refused and its centre is in it, then whatever lines a
session has taken, the turtle is in the canvas, and so is all that the session has drawn. -/
theorem live_inside (ui : Dialogue σ) (hc : config.edgeRule = .refuse) {canvas : Canvas Float}
    (hb : canvas.bounds.Contains canvas.bounds.centre) (files : FileSystem) (user : σ)
    (events : List (Event σ)) :
    let d := ((start config canvas files user).live ui events).drawing
    d.canvas.bounds = canvas.bounds ∧ canvas.bounds.Contains d.turtle.position ∧
      ∃ added, d.canvas.marks = canvas.marks ++ added ∧ ∀ m ∈ added, m.Inside canvas.bounds := by
  intro d
  have hstart : StaysInside canvas.bounds canvas.marks (start config canvas files user) :=
    ⟨hc, .start hb config rfl⟩
  have hlive : StaysInside canvas.bounds canvas.marks
      ((start config canvas files user).live ui events) :=
    (live_leads ui events _).keeps (fun _ _ _ _ h hs => hs.change hb h) hstart
  exact ⟨hlive.fenced.bounds, hlive.fenced.turtle, hlive.fenced.marks⟩

theorem live_inside_sample :
    let size : Bounds Float := ⟨200, 200⟩
    let d := ((start .standard (.blank size) .empty 0).live (stopsAfter 9)
      [.line "square 90", .line "move 90", .line "circle 20"]).drawing
    Config.standard.edgeRule = .refuse ∧ size.Contains size.centre ∧
      size.Contains d.turtle.position ∧ ∀ m ∈ d.canvas.marks, m.Inside size := by
  intro size d
  have hc : Config.standard.edgeRule = .refuse := rfl
  have hb : (Canvas.blank size).bounds.Contains (Canvas.blank size).bounds.centre := by
    decide +kernel
  obtain ⟨-, ht, added, hm, ha⟩ := live_inside (stopsAfter 9) hc hb .empty 0
    [.line "square 90", .line "move 90", .line "circle 20"]
  refine ⟨hc, hb, ht, fun m hmem => ha m ?_⟩
  rwa [hm] at hmem

end TurtleGraphics.Session
