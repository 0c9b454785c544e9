import TurtleGraphics.Drawing
import TurtleGraphics.Proofs.Json.Forms
import TurtleGraphics.Proofs.Scalar.Packing

/-!
# Operations on turtles

A turtle is made with a heading in `[0, 360)` and a pen that has a width, and operations with finite
numbers keep it so. Reading asks for less: each part of a turtle is read on its own
(`ofJson?_turtle_eq_some`), so any width and any finite heading come in. A pen without a width stays
so until it is given one (`operated_width`). A heading out of range is brought back by the first
turn, unless the sum is too large for a float, and otherwise by the next placement
(`operated_inRange`).
-/

set_option autoImplicit false

namespace TurtleGraphics

open Scalar Binary64 Json

/-! ## Operations -/

/-- What can be done to a turtle on its canvas. -/
inductive Turtle.Operation where
  | turn (degrees : Float)
  | forward (fence : Option (Bounds Float)) (distance : Float)
  | placeAt (position : Point Float) (heading : Float)
  | setPen (down : Bool)
  | setColour (c : Colour)
  | setWidth (width : UInt32)

namespace Turtle.Operation

/-- The numbers that an operation computes with. -/
def scalars : Operation → List Float
  | turn degrees => [degrees]
  | forward _ distance => [distance]
  | placeAt position heading => position.scalars ++ [heading]
  | _ => []

/-- The first turn among some operations. -/
def firstTurn? : List Operation → Option Float
  | [] => none
  | turn degrees :: _ => some degrees
  | _ :: rest => firstTurn? rest

theorem isFinite_firstTurn {ops : List Operation} (hops : ∀ op ∈ ops, AllFinite op.scalars)
    {x : Float} (h : firstTurn? ops = some x) : x.isFinite := by
  induction ops with
  | nil => cases h
  | cons op rest ih =>
    rw [List.forall_mem_cons] at hops
    cases op with
    | turn degrees => cases h; exact hops.1 _ (by simp [scalars])
    | _ => exact ih hops.2 h

end Turtle.Operation

namespace Drawing

/-- The drawing after an operation; one that is refused changes nothing. -/
def operate (d : Drawing) : Turtle.Operation → Drawing
  | .turn degrees => { d with turtle := d.turtle.turn degrees }
  | .forward fence distance =>
    match d.turtle.forward fence distance with
    | .ok (t, drawn) => ⟨t, d.canvas.drawSegments drawn⟩
    | .error _ => d
  | .placeAt position heading => { d with turtle := d.turtle.placeAt position heading }
  | .setPen down => { d with turtle.penDown := down }
  | .setColour c => { d with turtle.colour := c }
  | .setWidth width => (d.settle (d.setWidth width)).2

def operated (d : Drawing) (ops : List Turtle.Operation) : Drawing := ops.foldl operate d

@[simp] theorem operated_nil (d : Drawing) : d.operated [] = d := rfl

@[simp] theorem operated_cons (d : Drawing) (op : Turtle.Operation) (ops : List Turtle.Operation) :
    d.operated (op :: ops) = (d.operate op).operated ops := rfl

/-- A move, made or refused, changes the position at most. -/
theorem operate_forward (d : Drawing) (fence : Option (Bounds Float)) (distance : Float) :
    ∃ position, (d.operate (.forward fence distance)).turtle =
      { d.turtle with position := position } := by
  unfold operate Turtle.forward
  by_cases hw : Turtle.Within fence (d.turtle.ahead distance)
  · simp only [if_pos hw]
    exact ⟨_, rfl⟩
  · simp only [if_neg hw]
    exact ⟨d.turtle.position, rfl⟩

/-! ## Widths -/

theorem operate_setWidth (d : Drawing) (width : UInt32) :
    (d.operate (.setWidth width)).turtle =
      if width = 0 then d.turtle else { d.turtle with width } := by
  show (d.settle (d.setWidth width)).2.turtle = _
  unfold setWidth
  split <;> rfl

/-- Only setting the width matters, and zero is refused. -/
theorem operated_width (d : Drawing) (ops : List Turtle.Operation) :
    0 < (d.operated ops).turtle.width ↔
      0 < d.turtle.width ∨ ∃ w, .setWidth w ∈ ops ∧ 0 < w := by
  induction ops generalizing d with
  | nil => simp
  | cons op rest ih =>
    rw [operated_cons, ih]
    cases op with
    | setWidth width =>
      rw [operate_setWidth]
      by_cases hw : width = 0
      · simp [hw]
      · simp [hw, UInt32.pos_iff_ne_zero]
    | forward fence distance =>
      obtain ⟨position, hstop⟩ := d.operate_forward fence distance
      simp [hstop]
    | turn _ | placeAt _ _ | setPen _ | setColour _ => simp [operate, Turtle.turn, Turtle.placeAt]

end Drawing

/-! ## Headings -/

/-- The angle is one that a turtle is made with. -/
def InRange (x : Float) : Prop := 0 ≤ x ∧ x < 360

/-- Once a turn has gone too far the heading is no number, and later turns change nothing. -/
theorem wrapDegrees_add_isFinite_iff {x y z : Float} (hz : z.isFinite) :
    (wrapDegrees (x + y) + z).isFinite ↔ (x + y).isFinite := by
  refine ⟨fun h => ?_, fun h => (wrapDegrees_wrapped h).add_isFinite hz⟩
  by_contra hxy
  rw [wrapDegrees_of_not_finite hxy] at h
  exact not_isFinite_nan (isFinite_of_add h).1

open Turtle.Operation (firstTurn?)

namespace Drawing

/-- How a heading ends up in range: a placement sets it anew, and otherwise the first turn brings it
back if the sum is finite. Without a turn it has to be in range already. -/
def EndsInRange (heading : Float) (ops : List Turtle.Operation) : Prop :=
  (∃ position x, .placeAt position x ∈ ops) ∨
    match firstTurn? ops with
    | none => InRange heading
    | some x => (heading + x).isFinite

variable {ops : List Turtle.Operation}

theorem endsInRange_of_wrapped (hops : ∀ op ∈ ops, AllFinite op.scalars) {heading : Float}
    (h : Wrapped heading) : EndsInRange heading ops := by
  right
  cases hf : firstTurn? ops with
  | none => exact h.range
  | some x => exact h.add_isFinite (Turtle.Operation.isFinite_firstTurn hops hf)

theorem endsInRange_wrapDegrees (hops : ∀ op ∈ ops, AllFinite op.scalars) (heading x : Float) :
    EndsInRange (wrapDegrees (heading + x)) ops ↔ EndsInRange heading (.turn x :: ops) := by
  have hplaced : (∃ position y, .placeAt position y ∈ Turtle.Operation.turn x :: ops) ↔
      ∃ position y, .placeAt position y ∈ ops := by simp
  have hfirst : firstTurn? (.turn x :: ops) = some x := rfl
  rw [EndsInRange, EndsInRange, hplaced, hfirst]
  refine or_congr_right ?_
  cases hf : firstTurn? ops with
  | none => exact wrapped_iff.symm.trans wrapped_wrapDegrees_iff
  | some z => exact wrapDegrees_add_isFinite_iff (Turtle.Operation.isFinite_firstTurn hops hf)

theorem operated_inRange (hops : ∀ op ∈ ops, AllFinite op.scalars) (d : Drawing) :
    InRange (d.operated ops).turtle.heading ↔ EndsInRange d.turtle.heading ops := by
  induction ops generalizing d with
  | nil => simp [EndsInRange, firstTurn?]
  | cons op rest ih =>
    rw [List.forall_mem_cons] at hops
    rw [operated_cons, ih hops.2]
    cases op with
    | turn x => exact endsInRange_wrapDegrees hops.2 d.turtle.heading x
    | placeAt position x =>
      have hx : x.isFinite := hops.1 x (by simp [Turtle.Operation.scalars])
      exact iff_of_true (endsInRange_of_wrapped hops.2 (wrapDegrees_wrapped hx))
        (.inl ⟨position, x, by simp⟩)
    | forward fence distance =>
      obtain ⟨position, hstop⟩ := d.operate_forward fence distance
      rw [hstop]
      simp [EndsInRange, firstTurn?]
    | setWidth width =>
      have hheading : (d.operate (.setWidth width)).turtle.heading = d.turtle.heading := by
        rw [operate_setWidth]
        split <;> rfl
      rw [hheading]
      simp [EndsInRange, firstTurn?]
    | setPen _ | setColour _ =>
      simp [operate, EndsInRange, firstTurn?]

end Drawing

/-! ## Reading -/

/-- A JSON value is a turtle exactly if its parts are; nothing is asked of them together. -/
theorem ofJson?_turtle_eq_some {j : Json} {t : Turtle Float} :
    JsonForm.ofJson? j = some t ↔ ∃ position heading penDown colour width : Json,
      fields? ["position", "heading", "pen_down", "color", "stroke_width"] j =
          some [some position, some heading, some penDown, some colour, some width] ∧
        JsonForm.ofJson? position = some t.position ∧ JsonForm.ofJson? heading = some t.heading ∧
        JsonForm.ofJson? penDown = some t.penDown ∧ JsonForm.ofJson? colour = some t.colour ∧
        JsonForm.ofJson? width = some t.width := by
  obtain ⟨p, x, down, c, w⟩ := t
  constructor
  · intro h
    obtain ⟨parts, hparts, h⟩ := Option.bind_eq_some_iff.1 h
    split at h
    · simp only [required, Option.bind_eq_bind, Option.bind_eq_some_iff] at h
      obtain ⟨_, ⟨position, rfl, hp⟩, _, ⟨heading, rfl, hx⟩, _, ⟨penDown, rfl, hdown⟩,
        _, ⟨colour, rfl, hc⟩, _, ⟨width, rfl, hw⟩, heq⟩ := h
      cases heq
      exact ⟨position, heading, penDown, colour, width, hparts, hp, hx, hdown, hc, hw⟩
    · cases h
  · rintro ⟨position, heading, penDown, colour, width, hparts, hp, hx, hdown, hc, hw⟩
    refine Option.bind_eq_some_iff.2 ⟨_, hparts, ?_⟩
    simp [required, hp, hx, hdown, hc, hw]

/-- A turtle has the heading and the width that stand in the JSON value it was read from. Whatever
is done to it then with finite numbers, its pen has a width exactly if it had one or was given one,
and its heading is in range exactly if it was placed, or turned for the first time to a finite
angle, or is in range without a turn; so a heading that is in range stays so. -/
theorem read_operated {j : Json} {t : Turtle Float} (hj : JsonForm.ofJson? j = some t)
    (canvas : Canvas Float) {ops : List Turtle.Operation}
    (hops : ∀ op ∈ ops, AllFinite op.scalars) :
    let t' := ((⟨t, canvas⟩ : Drawing).operated ops).turtle
    (∃ position heading penDown colour width : Json,
      fields? ["position", "heading", "pen_down", "color", "stroke_width"] j =
          some [some position, some heading, some penDown, some colour, some width] ∧
        JsonForm.ofJson? heading = some t.heading ∧ JsonForm.ofJson? width = some t.width) ∧
      (0 < t'.width ↔ 0 < t.width ∨ ∃ w, .setWidth w ∈ ops ∧ 0 < w) ∧
      (InRange t'.heading ↔ Drawing.EndsInRange t.heading ops) ∧
      (InRange t.heading → InRange t'.heading) := by
  obtain ⟨position, heading, penDown, colour, width, hparts, -, hx, -, -, hw⟩ :=
    ofJson?_turtle_eq_some.1 hj
  have hrange := Drawing.operated_inRange hops ⟨t, canvas⟩
  exact ⟨⟨position, heading, penDown, colour, width, hparts, hx, hw⟩, Drawing.operated_width _ _,
    hrange, fun h => hrange.2 (Drawing.endsInRange_of_wrapped hops (wrapped_iff.2 h))⟩

/-- A turtle whose pen has no width, with a heading beyond a full turn. -/
def illegalTurtle : Turtle Float := ⟨⟨10, 20.25⟩, 400, false, ⟨1, 2, 3⟩, 0⟩

def illegalForm : Json := .object
  [("position", .list [.whole 10, .real 20.25]), ("heading", .real 400), ("pen_down", .bool false),
    ("color", .object [("r", .whole 1), ("g", .whole 2), ("b", .whole 3)]),
    ("stroke_width", .whole 0)]

theorem ofJson?_illegalForm : JsonForm.ofJson? illegalForm = some illegalTurtle :=
  ofJson?_turtle_eq_some.2 ⟨_, _, _, _, _, rfl, rfl, rfl, rfl, rfl, rfl⟩

/-- A width and a turn bring it back. -/
theorem read_operated_illegal :
    let ops : List Turtle.Operation := [.forward none 10, .turn 10, .setWidth 0, .setWidth 3]
    let t' := ((⟨illegalTurtle, .blank ⟨200, 200⟩⟩ : Drawing).operated ops).turtle
    JsonForm.ofJson? illegalForm = some illegalTurtle ∧ (∀ op ∈ ops, AllFinite op.scalars) ∧
      0 < t'.width ∧ InRange t'.heading := by
  intro ops t'
  have hten : (10 : Float).isFinite := rfl
  have hops : ∀ op ∈ ops, AllFinite op.scalars := by
    simp [ops, AllFinite, Turtle.Operation.scalars, hten]
  obtain ⟨-, hwidth, hrange, -⟩ := read_operated ofJson?_illegalForm (.blank ⟨200, 200⟩) hops
  exact ⟨ofJson?_illegalForm, hops, hwidth.2 (.inr ⟨3, by simp [ops], by decide⟩),
    hrange.2 (.inr rfl)⟩

/-- Reading alone leaves it as its form has it. -/
theorem illegalTurtle_read :
    JsonForm.ofJson? illegalForm = some illegalTurtle ∧
      ¬ 0 < illegalTurtle.width ∧ ¬ InRange illegalTurtle.heading := by
  refine ⟨ofJson?_illegalForm, by decide, fun h => ?_⟩
  exact absurd h.2 (by decide)

end TurtleGraphics
