import TurtleGraphics.Proofs.Drawing.Refusal

/-!
# What actions depend on

Of a drawing an action reads the turtle and the size of the canvas. `Alike size base base' d e`
says that `d` and `e` have one turtle on canvases of that size, and have added the same marks to
`base` and `base'`. Every action has the same outcome on both and keeps them alike
(`Alike.execute`); so what was drawn before, the background and the renderer play no part.
-/

set_option autoImplicit false

namespace TurtleGraphics

namespace Drawing

/-- One turtle, canvases of one size, and the same marks behind `base` and `base'`. -/
structure Alike (size : Bounds Float) (base base' : List (Mark Float)) (d e : Drawing) : Prop where
  turtle : d.turtle = e.turtle
  left : d.canvas.bounds = size
  right : e.canvas.bounds = size
  marks : ∃ added, d.canvas.marks = base ++ added ∧ e.canvas.marks = base' ++ added

/-- Two outcomes of one action: both carried out or refused for one reason, on drawings alike. -/
structure SameOutcome {α : Type} (size : Bounds Float) (base base' : List (Mark Float))
    (r r' : Except Error α × Drawing) : Prop where
  outcome : r.1 = r'.1
  alike : Alike size base base' r.2 r'.2

namespace Alike

variable {size : Bounds Float} {base base' : List (Mark Float)} {d e : Drawing}

theorem of_eq (ht : d.turtle = e.turtle) (hb : d.canvas.bounds = e.canvas.bounds) :
    Alike e.canvas.bounds d.canvas.marks e.canvas.marks d e :=
  ⟨ht, hb, rfl, [], by simp, by simp⟩

theorem bounds (h : Alike size base base' d e) : d.canvas.bounds = e.canvas.bounds :=
  h.left.trans h.right.symm

theorem setTurtle (h : Alike size base base' d e) (t : Turtle Float) :
    Alike size base base' { d with turtle := t } { e with turtle := t } :=
  ⟨rfl, h.left, h.right, h.marks⟩

theorem addMarks (h : Alike size base base' d e) (t : Turtle Float) (marks : List (Mark Float)) :
    Alike size base base' ⟨t, d.canvas.addMarks marks⟩ ⟨t, e.canvas.addMarks marks⟩ := by
  obtain ⟨added, hd, he⟩ := h.marks
  refine ⟨rfl, h.left, h.right, added ++ marks, ?_, ?_⟩
  · simp [Canvas.addMarks, hd]
  · simp [Canvas.addMarks, he]

theorem clearCanvas (h : Alike size base base' d e) :
    Alike size base base' d.clearCanvas e.clearCanvas := by
  have hm := (h.addMarks d.turtle [.clear]).marks
  exact ⟨h.turtle, h.left, h.right, hm⟩

theorem resetTurtle (h : Alike size base base' d e) (config : Config) :
    Alike size base base' (d.resetTurtle config) (e.resetTurtle config) := by
  unfold Drawing.resetTurtle
  rw [h.bounds]
  exact ⟨rfl, h.left, h.right, h.marks⟩

/-! ## Operations of a drawing -/

theorem moveTurtle (h : Alike size base base' d e) (config : Config) (distance : Float) :
    SameOutcome size base base' (d.settle (d.moveTurtle config distance))
      (e.settle (e.moveTurtle config distance)) := by
  unfold Drawing.moveTurtle
  rw [h.turtle, h.bounds]
  cases e.turtle.forward (config.fence e.canvas.bounds) distance with
  | error p => exact ⟨rfl, h⟩
  | ok r => exact ⟨rfl, h.addMarks _ _⟩

theorem setWidth (h : Alike size base base' d e) (width : UInt32) :
    SameOutcome size base base' (d.settle (d.setWidth width)) (e.settle (e.setWidth width)) := by
  unfold Drawing.setWidth
  by_cases hw : width = 0
  · simp only [if_pos hw]
    exact ⟨rfl, h⟩
  · simp only [if_neg hw, h.turtle]
    exact ⟨rfl, h.setTurtle _⟩

theorem drawCircle (h : Alike size base base' d e) (config : Config) (circle : Circle Float) :
    SameOutcome size base base' (d.settle (d.drawCircle config circle))
      (e.settle (e.drawCircle config circle)) := by
  simp only [Drawing.drawCircle, h.turtle, h.bounds]
  split
  · exact ⟨rfl, h⟩
  · split
    · exact ⟨rfl, h⟩
    · exact ⟨rfl, h.addMarks _ _⟩

theorem drawOutline (h : Alike size base base' d e) (config : Config) (outline : Outline Float) :
    SameOutcome size base base' (d.drawOutline config outline) (e.drawOutline config outline) := by
  rw [drawOutline_eq, drawOutline_eq]
  have hx : d.outlineExit config outline = e.outlineExit config outline := by
    simp only [outlineExit, h.turtle, h.bounds]
  rw [hx]
  cases e.outlineExit config outline with
  | some p => exact ⟨rfl, h⟩
  | none =>
    refine ⟨rfl, ?_⟩
    simp only [outlined, h.turtle, h.bounds]
    exact h.addMarks _ _

/-! ## Actions -/

theorem apply (h : Alike size base base' d e) (config : Config) (a : Action) :
    SameOutcome size base base' (a.apply config d) (a.apply config e) := by
  cases a with
  | penUp =>
    simp only [Action.apply, h.turtle]
    exact ⟨rfl, h.setTurtle _⟩
  | penDown =>
    simp only [Action.apply, h.turtle]
    exact ⟨rfl, h.setTurtle _⟩
  | turn n =>
    simp only [Action.apply, h.turtle]
    exact ⟨rfl, h.setTurtle _⟩
  | colour c =>
    simp only [Action.apply, h.turtle]
    exact ⟨rfl, h.setTurtle _⟩
  | move n => exact h.moveTurtle config _
  | penWidth n => exact h.setWidth n
  | reset => exact ⟨rfl, h.resetTurtle config⟩
  | clear => exact ⟨rfl, h.clearCanvas⟩
  | about => exact ⟨rfl, h⟩
  | square n => exact h.drawOutline config _
  | star n => exact h.drawOutline config _
  | hexagon n => exact h.drawOutline config _
  | triangle size =>
    cases size with
    | equilateral n => exact h.drawOutline config _
    | sides x y z => exact h.drawOutline config _
  | circle n => exact h.drawCircle config _

/-- An action has one outcome on drawings alike and keeps them alike. -/
theorem execute (h : Alike size base base' d e) (config : Config) (a : Action) :
    SameOutcome size base base' (a.execute config d) (a.execute config e) := by
  obtain ⟨ho, ha⟩ := h.apply config a
  rw [Action.execute_eq, Action.execute_eq, ho]
  exact ⟨rfl, ha⟩

end Alike

end Drawing

end TurtleGraphics
