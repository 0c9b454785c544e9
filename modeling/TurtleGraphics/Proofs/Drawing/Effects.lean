import TurtleGraphics.Proofs.Drawing.Outlines

/-!
# What actions change

`Action.Effect` says for each action what it may change of a drawing: all that is not named there
stays as it was. Every action that is carried out keeps to it (`apply_effect`), and whatever it
does, the log of the canvas only grows (`Effect.marks`).
-/

set_option autoImplicit false

namespace TurtleGraphics

open Scalar

namespace Action

/-- What an action makes of a drawing. -/
def Effect (config : Config) (d d' : Drawing) : Action → Prop
  | turn n => d' = { d with turtle.heading := wrapDegrees (d.turtle.heading + scalarOf n) }
  | move n =>
    let stop := d.turtle.ahead (scalarOf n)
    let line : Segment Float := ⟨d.turtle.position, stop, d.turtle.colour, d.turtle.width⟩
    d' = { d with
      turtle.position := stop
      canvas.marks := d.canvas.marks ++ if d.turtle.penDown then [.segment line] else [] }
  | penUp => d' = { d with turtle.penDown := false }
  | penDown => d' = { d with turtle.penDown := true }
  | colour c => d' = { d with turtle.colour := c }
  | penWidth n => n ≠ 0 ∧ d' = { d with turtle.width := n }
  | about => d' = d
  | clear => d' = { d with
      canvas.marks := d.canvas.marks ++ [.clear]
      canvas.background := none }
  | reset => d' = { d with turtle := config.startingTurtle d.canvas.bounds }
  | square _ | triangle _ | star _ | hexagon _ => ∃ segments : List (Segment Float),
      d' = { d with
        turtle.penDown := true
        canvas.marks := d.canvas.marks ++ segments.map .segment }
  | circle n => d' = { d with
      turtle.penDown := true
      canvas.marks := d.canvas.marks ++
        [.arc d.turtle.position (scalarOf n) d.turtle.colour d.turtle.width] }

end Action

/-! ## Operations of a drawing -/

namespace Drawing

variable {config : Config} {d d' : Drawing}

theorem settle_ok {r : Except Error Drawing} (h : d.settle r = (.ok (), d')) : r = .ok d' := by
  cases r with
  | ok d₁ => cases h; rfl
  | error e => cases h

theorem moveTurtle_ok {distance : Float} (h : d.moveTurtle config distance = .ok d') :
    d' = { d with
      turtle.position := d.turtle.ahead distance
      canvas.marks := d.canvas.marks ++
        if d.turtle.penDown then
          [.segment ⟨d.turtle.position, d.turtle.ahead distance, d.turtle.colour, d.turtle.width⟩]
        else [] } := by
  unfold moveTurtle Turtle.forward at h
  dsimp only at h
  split at h
  · rename_i hf
    split at hf
    · cases hf
      cases h
      by_cases hp : d.turtle.penDown
      · simp only [if_pos hp]
        rfl
      · simp only [if_neg hp]
        rfl
    · cases hf
  · cases h

theorem setWidth_ok {width : UInt32} (h : d.setWidth width = .ok d') :
    width ≠ 0 ∧ d' = { d with turtle.width := width } := by
  unfold setWidth at h
  split at h
  · cases h
  · rename_i hw
    cases h
    exact ⟨hw, rfl⟩

theorem drawCircle_ok {circle : Circle Float} (h : d.drawCircle config circle = .ok d') :
    d' = { d with
      turtle.penDown := true
      canvas.marks := d.canvas.marks ++
        [.arc d.turtle.position circle.radius d.turtle.colour d.turtle.width] } := by
  unfold drawCircle at h
  dsimp only at h
  split at h
  · cases h
  · split at h
    · cases h
    · cases h
      rfl

/-- An outline puts the pen down and adds segments. -/
theorem drawOutline_effect {outline : Outline Float}
    (hh : wrapDegrees d.turtle.heading = d.turtle.heading)
    (h : d.drawOutline config outline = (.ok (), d')) : ∃ segments : List (Segment Float),
      d' = { d with
        turtle.penDown := true
        canvas.marks := d.canvas.marks ++ segments.map .segment } := by
  have hok := drawOutline_ok hh (congrArg Prod.fst h)
  rw [h] at hok
  exact ⟨_, hok⟩

end Drawing

/-! ## Actions -/

namespace Action

variable {config : Config} {a : Action} {d d' : Drawing} {message : String}

/-- An action that is carried out changes what it names. -/
theorem apply_effect (hh : wrapDegrees d.turtle.heading = d.turtle.heading)
    (h : a.apply config d = (.ok (), d')) : a.Effect config d d' := by
  cases a with
  | turn _ | penUp | penDown | colour _ | about | clear | reset => cases h; rfl
  | move n => exact Drawing.moveTurtle_ok (Drawing.settle_ok h)
  | penWidth n => exact Drawing.setWidth_ok (Drawing.settle_ok h)
  | circle n => exact Drawing.drawCircle_ok (Drawing.settle_ok h)
  | square _ | star _ | hexagon _ => exact Drawing.drawOutline_effect hh h
  | triangle size => cases size <;> exact Drawing.drawOutline_effect hh h

/-- Whatever an action does, it adds to the log at its end. -/
theorem Effect.marks (h : a.Effect config d d') :
    ∃ added, d'.canvas.marks = d.canvas.marks ++ added := by
  cases a with
  | turn _ | penUp | penDown | colour _ | about | reset => cases h; exact ⟨[], by simp⟩
  | penWidth _ => obtain ⟨-, rfl⟩ := h; exact ⟨[], by simp⟩
  | clear | move _ | circle _ => cases h; exact ⟨_, rfl⟩
  | square _ | star _ | hexagon _ | triangle _ => obtain ⟨segments, rfl⟩ := h; exact ⟨_, rfl⟩

/-- An action that is carried out has its effect; one that is refused changes nothing. -/
theorem execute_cases (config : Config) (a : Action)
    (hh : wrapDegrees d.turtle.heading = d.turtle.heading) :
    (∃ message, (a.execute config d).1 = .ok message ∧ a.Effect config d (a.execute config d).2) ∨
      ∃ e, a.execute config d = (.error e, d) := by
  cases hr : (a.execute config d).1 with
  | error e => exact .inr ⟨e, Prod.ext hr (execute_error hr)⟩
  | ok message =>
    refine .inl ⟨message, rfl, apply_effect hh (Prod.ext ?_ rfl)⟩
    rw [execute_eq] at hr
    cases ha : (a.apply config d).1 with
    | ok u => rfl
    | error e => simp [ha, Except.map] at hr

/-- From a wrapped heading each action changes what it names and nothing else, if it is carried
out; whether or not it is, the log of the canvas is only added to. -/
theorem execute_effect (config : Config) (a : Action) {d : Drawing} {x : Float}
    (h : d.turtle.heading = wrapDegrees x) :
    (∀ message, (a.execute config d).1 = .ok message →
      a.Effect config d (a.execute config d).2) ∧
    ∃ added, (a.execute config d).2.canvas.marks = d.canvas.marks ++ added := by
  have hh : wrapDegrees d.turtle.heading = d.turtle.heading := by rw [h, wrapDegrees_idem]
  obtain ⟨message, hok, heffect⟩ | ⟨e, he⟩ := execute_cases config a hh
  · exact ⟨fun _ _ => heffect, heffect.marks⟩
  · rw [he]
    refine ⟨fun _ hok => ?_, [], by simp⟩
    cases hok

theorem execute_effect_turn :
    let d : Drawing := .start .standard (.blank ⟨200, 200⟩)
    d.turtle.heading = wrapDegrees 270 ∧
      (execute .standard (.turn 90) d).2 =
        { d with turtle.heading := wrapDegrees (d.turtle.heading + scalarOf 90) } := by
  intro d
  have hh : d.turtle.heading = wrapDegrees 270 := rfl
  exact ⟨hh, (execute_effect .standard (.turn 90) hh).1 _ rfl⟩

end Action

end TurtleGraphics
