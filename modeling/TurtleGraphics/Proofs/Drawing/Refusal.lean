import TurtleGraphics.Drawing

/-!
# Refused actions

An action that fails leaves the drawing as it was (`execute_error`). Only an outline could be left
half drawn: its steps are taken one after the other, with the pen down. The dry run in front of
it excludes that. Where steps lead and which of them is refused depends on position and heading
alone (`follow_samePlace`), so the drawing run is refused where the dry run is
(`follow_refused`), and after a dry run that is not refused an outline is drawn whole
(`drawOutline_eq`).
-/

set_option autoImplicit false

namespace TurtleGraphics

/-! ## Position and heading -/

namespace Turtle

section
variable {α : Type} [Scalar α]

/-- Two turtles at one point with one heading; pens may differ. -/
structure SamePlace (t t' : Turtle α) : Prop where
  position : t.position = t'.position
  heading : t.heading = t'.heading

theorem SamePlace.ahead {t t' : Turtle α} (h : SamePlace t t') (distance : α) :
    t.ahead distance = t'.ahead distance := by
  simp only [Turtle.ahead, Turtle.facing, h.position, h.heading]

/-- A step is refused for both turtles or leads both to one place. -/
theorem step_samePlace {t t' : Turtle α} (h : SamePlace t t') (fence : Option (Bounds α))
    (s : Step α) :
    (∃ p, t.step fence s = .error p ∧ t'.step fence s = .error p) ∨
      ∃ u u' drawn drawn', t.step fence s = .ok (u, drawn) ∧
        t'.step fence s = .ok (u', drawn') ∧ SamePlace u u' := by
  cases s with
  | forward distance =>
    simp only [step, forward, ← h.ahead distance]
    by_cases hw : Within fence (t.ahead distance)
    · simp only [if_pos hw]
      exact .inr ⟨_, _, _, _, rfl, rfl, ⟨rfl, h.heading⟩⟩
    · simp only [if_neg hw]
      exact .inl ⟨_, rfl, rfl⟩
  | turn degrees =>
    refine .inr ⟨_, _, _, _, rfl, rfl, ⟨h.position, ?_⟩⟩
    simp only [turn, h.heading]

/-- Steps are refused at the same point for both turtles. -/
theorem follow_samePlace {t t' : Turtle α} (h : SamePlace t t') (fence : Option (Bounds α))
    (steps : List (Step α)) : (t.follow fence steps).2.2 = (t'.follow fence steps).2.2 := by
  induction steps generalizing t t' with
  | nil => rfl
  | cons s rest ih =>
    obtain ⟨p, h1, h2⟩ | ⟨u, u', drawn, drawn', h1, h2, hu⟩ := step_samePlace h fence s
    · simp only [follow, h1, h2]
    · simp only [follow, h1, h2]
      exact ih hu

/-- Without a fence no step is refused. -/
theorem follow_unfenced (t : Turtle α) (steps : List (Step α)) :
    (t.follow none steps).2.2 = none := by
  induction steps generalizing t with
  | nil => rfl
  | cons s rest ih =>
    cases s with
    | forward distance => simp [follow, step, forward, Within, ih]
    | turn degrees => simp [follow, step, ih]

end

end Turtle

/-! ## Outlines -/

namespace Drawing

variable {config : Config} {d : Drawing}

/-- The drawing run is refused where the dry run is. -/
theorem follow_refused (config : Config) (outline : Outline Float) (d : Drawing) :
    (Turtle.follow { d.turtle with penDown := true } (config.fence d.canvas.bounds)
      outline.steps).2.2 = d.outlineExit config outline := by
  unfold outlineExit
  cases hf : config.fence d.canvas.bounds with
  | none => exact Turtle.follow_unfenced _ _
  | some b =>
    have hp : Turtle.SamePlace { d.turtle with penDown := true } d.turtle := ⟨rfl, rfl⟩
    exact Turtle.follow_samePlace hp (some b) outline.steps

/-- The drawing after an outline, if no step of it is refused. -/
def outlined (config : Config) (outline : Outline Float) (d : Drawing) : Drawing :=
  let t := d.turtle
  let run := { t with penDown := true }.follow (config.fence d.canvas.bounds) outline.steps
  ⟨run.1.placeAt t.position t.heading, d.canvas.drawSegments run.2.1⟩

/-- An outline is drawn whole or not at all. -/
theorem drawOutline_eq (config : Config) (outline : Outline Float) (d : Drawing) :
    d.drawOutline config outline = match d.outlineExit config outline with
      | some p => (.error (.leavesCanvas p), d)
      | none => (.ok (), d.outlined config outline) := by
  have hr := follow_refused config outline d
  unfold drawOutline
  cases he : d.outlineExit config outline with
  | some p => rfl
  | none => simp only [hr, he, outlined]

theorem drawOutline_error {outline : Outline Float} {e : Error}
    (h : (d.drawOutline config outline).1 = .error e) : (d.drawOutline config outline).2 = d := by
  rw [drawOutline_eq] at h ⊢
  cases he : d.outlineExit config outline with
  | some p => rfl
  | none => simp [he] at h

theorem settle_error {r : Except Error Drawing} {e : Error} (h : (d.settle r).1 = .error e) :
    (d.settle r).2 = d := by
  cases r with
  | error e' => rfl
  | ok d' => simp [settle] at h

end Drawing

/-! ## Actions -/

namespace Action

variable {config : Config} {a : Action} {d : Drawing} {e : Error}

theorem apply_error (h : (a.apply config d).1 = .error e) : (a.apply config d).2 = d := by
  cases a with
  | move n => exact Drawing.settle_error h
  | penWidth n => exact Drawing.settle_error h
  | circle n => exact Drawing.settle_error h
  | square n => exact Drawing.drawOutline_error h
  | star n => exact Drawing.drawOutline_error h
  | hexagon n => exact Drawing.drawOutline_error h
  | triangle size =>
    cases size with
    | equilateral n => exact Drawing.drawOutline_error h
    | sides x y z => exact Drawing.drawOutline_error h
  | about => rfl
  | penUp => cases h
  | penDown => cases h
  | turn n => cases h
  | colour c => cases h
  | reset => cases h
  | clear => cases h

theorem execute_eq (config : Config) (a : Action) (d : Drawing) :
    a.execute config d =
      ((a.apply config d).1.map fun _ => a.message, (a.apply config d).2) := rfl

/-- A refused action changes neither the turtle nor the canvas. -/
theorem execute_error (h : (a.execute config d).1 = .error e) : (a.execute config d).2 = d := by
  rw [execute_eq] at h ⊢
  cases hr : (a.apply config d).1 with
  | ok u => simp [hr, Except.map] at h
  | error e' => exact apply_error hr

end Action

end TurtleGraphics
