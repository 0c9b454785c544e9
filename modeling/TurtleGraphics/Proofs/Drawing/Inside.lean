import TurtleGraphics.Proofs.Drawing.Refusal

/-!
# Drawing inside the canvas

Fenced by a rectangle, a turtle that stands in it stays in it and draws inside (`step_inside`,
`follow_inside`). The start of a segment is not checked when the segment is drawn: it is inside
because the turtle stood there. `Fenced b base d` is what every action keeps under the rule that
refuses to leave the canvas (`Fenced.execute`): the canvas has the size `b`, the turtle stands in
it, and all marks behind `base` are inside.
-/

set_option autoImplicit false

namespace TurtleGraphics

/-- What is drawn of the mark is in the rectangle: both ends of a segment, and of the square around
an arc the far corner and the near one. -/
def Mark.Inside {α : Type} [Scalar α] (b : Bounds α) : Mark α → Prop
  | segment s => b.Contains s.start ∧ b.Contains s.stop
  | arc centre radius _ _ => b.Contains (centre.shift radius) ∧ b.Contains (centre.unshift radius)
  | clear => True
  | background _ => True

/-! ## Steps -/

namespace Turtle

section
variable {α : Type} [Scalar α] {b : Bounds α} {t u : Turtle α} {drawn : List (Segment α)}

theorem within_some_iff {p : Point α} : Within (some b) p ↔ b.Contains p := by
  simp [Within]

/-- A move that is not refused ends in the rectangle. -/
theorem forward_inside (ht : b.Contains t.position) {distance : α}
    (h : t.forward (some b) distance = .ok (u, drawn)) :
    b.Contains u.position ∧ ∀ s ∈ drawn, (Mark.segment s).Inside b := by
  unfold forward at h
  dsimp only at h
  split at h
  · rename_i hw
    have hstop : b.Contains (t.ahead distance) := within_some_iff.1 hw
    cases h
    refine ⟨hstop, fun s hs => ?_⟩
    cases hp : t.penDown with
    | false => simp [hp] at hs
    | true =>
      simp only [hp, if_true, List.mem_singleton] at hs
      subst hs
      exact ⟨ht, hstop⟩
  · cases h

theorem step_inside (ht : b.Contains t.position) {s : Step α}
    (h : t.step (some b) s = .ok (u, drawn)) :
    b.Contains u.position ∧ ∀ s ∈ drawn, (Mark.segment s).Inside b := by
  cases s with
  | forward distance => exact forward_inside ht h
  | turn degrees =>
    cases h
    refine ⟨ht, fun s hs => ?_⟩
    cases hs

/-- Steps keep the turtle in the rectangle, whether or not one of them is refused. -/
theorem follow_inside (ht : b.Contains t.position) (steps : List (Step α)) :
    b.Contains (t.follow (some b) steps).1.position ∧
      ∀ s ∈ (t.follow (some b) steps).2.1, (Mark.segment s).Inside b := by
  induction steps generalizing t with
  | nil =>
    refine ⟨ht, fun s hs => ?_⟩
    cases hs
  | cons step rest ih =>
    cases hs : t.step (some b) step with
    | error p =>
      simp only [follow, hs]
      exact ⟨ht, by simp⟩
    | ok r =>
      obtain ⟨u, drawn⟩ := r
      obtain ⟨hu, hdrawn⟩ := step_inside ht hs
      obtain ⟨hlast, hlater⟩ := ih hu
      simp only [follow, hs]
      refine ⟨hlast, fun s hm => ?_⟩
      rcases List.mem_append.1 hm with hm | hm
      · exact hdrawn s hm
      · exact hlater s hm

end

end Turtle

theorem Config.fence_of_refuse {config : Config} (h : config.edgeRule = .refuse)
    (b : Bounds Float) : config.fence b = some b := by
  simp only [fence, h]

/-! ## Drawings -/

namespace Drawing

/-- On a canvas of size `b` the turtle stands inside, and so is all that was drawn behind `base`. -/
structure Fenced (b : Bounds Float) (base : List (Mark Float)) (d : Drawing) : Prop where
  bounds : d.canvas.bounds = b
  turtle : b.Contains d.turtle.position
  marks : ∃ added, d.canvas.marks = base ++ added ∧ ∀ m ∈ added, m.Inside b

namespace Fenced

variable {config : Config} {b : Bounds Float} {base : List (Mark Float)} {d : Drawing}

theorem start (hc : b.Contains b.centre) (config : Config) {canvas : Canvas Float}
    (hb : canvas.bounds = b) : Fenced b canvas.marks (Drawing.start config canvas) := by
  subst hb
  exact ⟨rfl, hc, [], by simp [Drawing.start], by simp⟩

theorem addMarks (h : Fenced b base d) {t : Turtle Float} (ht : b.Contains t.position)
    {marks : List (Mark Float)} (hm : ∀ m ∈ marks, m.Inside b) :
    Fenced b base ⟨t, d.canvas.addMarks marks⟩ := by
  obtain ⟨added, hd, ha⟩ := h.marks
  refine ⟨h.bounds, ht, added ++ marks, ?_, fun m hmem => ?_⟩
  · simp [Canvas.addMarks, hd]
  · rcases List.mem_append.1 hmem with hmem | hmem
    · exact ha m hmem
    · exact hm m hmem

theorem drawSegments (h : Fenced b base d) {t : Turtle Float} (ht : b.Contains t.position)
    {drawn : List (Segment Float)} (hd : ∀ s ∈ drawn, (Mark.segment s).Inside b) :
    Fenced b base ⟨t, d.canvas.drawSegments drawn⟩ := by
  refine h.addMarks ht fun m hm => ?_
  obtain ⟨s, hs, rfl⟩ := List.mem_map.1 hm
  exact hd s hs

theorem clearCanvas (h : Fenced b base d) : Fenced b base d.clearCanvas := by
  have hm : ∀ m ∈ [Mark.clear], m.Inside b := by simp [Mark.Inside]
  exact ⟨h.bounds, h.turtle, (h.addMarks h.turtle hm).marks⟩

theorem setBackground (h : Fenced b base d) (image : ByteArray) :
    Fenced b base { d with canvas := d.canvas.setBackground image } := by
  have hm : ∀ m ∈ [Mark.background image.size], m.Inside b := by simp [Mark.Inside]
  exact ⟨h.bounds, h.turtle, (h.addMarks h.turtle hm).marks⟩

/-- A reset puts the turtle at the centre. -/
theorem resetTurtle (hc : b.Contains b.centre) (h : Fenced b base d) (config : Config) :
    Fenced b base (d.resetTurtle config) := by
  refine ⟨h.bounds, ?_, h.marks⟩
  show b.Contains d.canvas.bounds.centre
  rw [h.bounds]
  exact hc

/-! ## Operations of a drawing -/

theorem settle (h : Fenced b base d) {r : Except Error Drawing}
    (hr : ∀ d', r = .ok d' → Fenced b base d') : Fenced b base (d.settle r).2 := by
  cases r with
  | error e => exact h
  | ok d' => exact hr d' rfl

theorem moveTurtle (hc : config.edgeRule = .refuse) (h : Fenced b base d) (distance : Float) :
    Fenced b base (d.settle (d.moveTurtle config distance)).2 := by
  refine h.settle fun d' hd' => ?_
  unfold Drawing.moveTurtle at hd'
  rw [Config.fence_of_refuse hc, h.bounds] at hd'
  cases hf : d.turtle.forward (some b) distance with
  | error p => simp [hf] at hd'
  | ok r =>
    obtain ⟨t, drawn⟩ := r
    obtain ⟨ht, hdrawn⟩ := Turtle.forward_inside h.turtle hf
    simp only [hf, Except.ok.injEq] at hd'
    subst hd'
    exact h.drawSegments ht hdrawn

theorem setWidth (h : Fenced b base d) (width : UInt32) :
    Fenced b base (d.settle (d.setWidth width)).2 := by
  refine h.settle fun d' hd' => ?_
  unfold Drawing.setWidth at hd'
  split at hd'
  · cases hd'
  · cases hd'
    exact ⟨h.bounds, h.turtle, h.marks⟩

theorem drawCircle (hc : config.edgeRule = .refuse) (h : Fenced b base d) (circle : Circle Float) :
    Fenced b base (d.settle (d.drawCircle config circle)).2 := by
  refine h.settle fun d' hd' => ?_
  simp only [Drawing.drawCircle, Config.fence_of_refuse hc, h.bounds, Turtle.within_some_iff] at hd'
  split at hd'
  · cases hd'
  · rename_i hfar
    split at hd'
    · cases hd'
    · rename_i hnear
      cases hd'
      have harc : (Mark.arc d.turtle.position circle.radius d.turtle.colour d.turtle.width).Inside
          b := ⟨Decidable.not_not.1 hfar, Decidable.not_not.1 hnear⟩
      refine h.addMarks ?_ (by simpa using harc)
      exact h.turtle

/-- An outline is drawn inside, and the turtle is put back where it stood. -/
theorem drawOutline (hc : config.edgeRule = .refuse) (h : Fenced b base d)
    (outline : Outline Float) : Fenced b base (d.drawOutline config outline).2 := by
  rw [drawOutline_eq]
  cases d.outlineExit config outline with
  | some p => exact h
  | none =>
    have ht : b.Contains { d.turtle with penDown := true : Turtle Float }.position := h.turtle
    obtain ⟨-, hdrawn⟩ := Turtle.follow_inside ht outline.steps
    simp only [outlined, Config.fence_of_refuse hc, h.bounds]
    refine h.drawSegments ?_ hdrawn
    exact h.turtle

/-! ## Actions -/

theorem apply (hc : config.edgeRule = .refuse) (hb : b.Contains b.centre) (h : Fenced b base d)
    (a : Action) : Fenced b base (a.apply config d).2 := by
  cases a with
  | penUp => exact ⟨h.bounds, h.turtle, h.marks⟩
  | penDown => exact ⟨h.bounds, h.turtle, h.marks⟩
  | turn n => exact ⟨h.bounds, h.turtle, h.marks⟩
  | colour c => exact ⟨h.bounds, h.turtle, h.marks⟩
  | move n => exact h.moveTurtle hc _
  | penWidth n => exact h.setWidth n
  | reset => exact h.resetTurtle hb config
  | clear => exact h.clearCanvas
  | about => exact h
  | square n => exact h.drawOutline hc _
  | star n => exact h.drawOutline hc _
  | hexagon n => exact h.drawOutline hc _
  | triangle size =>
    cases size with
    | equilateral n => exact h.drawOutline hc _
    | sides x y z => exact h.drawOutline hc _
  | circle n => exact h.drawCircle hc _

/-- No action leaves the canvas, carried out or not. -/
theorem execute (hc : config.edgeRule = .refuse) (hb : b.Contains b.centre) (h : Fenced b base d)
    (a : Action) : Fenced b base (a.execute config d).2 := by
  rw [Action.execute_eq]
  exact h.apply hc hb a

end Fenced

end Drawing

end TurtleGraphics
