import TurtleGraphics.Command.Basic
import TurtleGraphics.Config
import TurtleGraphics.Error
import TurtleGraphics.Turtle

/-!
# Drawing

A turtle on its canvas, and what each action does to them. An action gives a message or an error,
and the drawing as it is then. An outline is followed step by step while it is drawn; a dry run in
front of that keeps an outline that would leave the canvas from being drawn in part.
-/

set_option autoImplicit false

namespace TurtleGraphics

structure Drawing where
  turtle : Turtle Float
  canvas : Canvas Float

/-- What `about` says. -/
def helpText : String := "\n".intercalate
  ["Turtle Graphics Interpreter",
    "  penup | pendown                 lift or lower the pen",
    "  left n | right n                turn by n degrees",
    "  move n | reverse n              move n units",
    "  black | green | red | white | blue | yellow",
    "  pencolour r,g,b | penwidth n    pen colour and stroke width",
    "  square n | star n | hexagon n | circle r",
    "  triangle n | triangle a,b,c     equilateral or by side lengths",
    "  reset | clear                   reset the turtle | wipe the canvas",
    "  save commands|image [path]      write history or canvas",
    "  load commands|image [path]      replay a script or set a background"]

/-- A whole number as a scalar, to the nearest. -/
def scalarOf (n : Int64) : Float := Float.ofInt n.toInt

namespace Config

/-- The turtle at the centre of a canvas, as configured. -/
def startingTurtle (c : Config) (bounds : Bounds Float) : Turtle Float :=
  .new bounds.centre c.heading c.colour c.width

end Config

namespace Drawing

/-- A fresh turtle on a canvas. -/
def start (config : Config) (canvas : Canvas Float) : Drawing :=
  ⟨config.startingTurtle canvas.bounds, canvas⟩

def resetTurtle (config : Config) (d : Drawing) : Drawing :=
  { d with turtle := config.startingTurtle d.canvas.bounds }

def clearCanvas (d : Drawing) : Drawing := { d with canvas := d.canvas.clear }

/-- Where an outline would leave the canvas, found by following it without drawing. There is
nothing to find if the turtle may wander off. -/
def outlineExit (config : Config) (outline : Outline Float) (d : Drawing) :
    Option (Point Float) :=
  match config.fence d.canvas.bounds with
  | none => none
  | some b => (d.turtle.follow (some b) outline.steps).2.2

/-- Follows an outline with the pen down, then puts the turtle back where it was. Nothing is
drawn if the dry run leaves the canvas. -/
def drawOutline (config : Config) (outline : Outline Float) (d : Drawing) :
    Except Error Unit × Drawing :=
  match d.outlineExit config outline with
  | some p => (.error (.leavesCanvas p), d)
  | none =>
    let t := d.turtle
    let (t', drawn, refused) :=
      { t with penDown := true }.follow (config.fence d.canvas.bounds) outline.steps
    let d' := ⟨t'.placeAt t.position t.heading, d.canvas.drawSegments drawn⟩
    match refused with
    | none => (.ok (), d')
    | some p => (.error (.leavesCanvas p), d')

/-- Takes a change that is made in one go or not at all. -/
def settle (d : Drawing) : Except Error Drawing → Except Error Unit × Drawing
  | .ok d' => (.ok (), d')
  | .error e => (.error e, d)

def moveTurtle (config : Config) (distance : Float) (d : Drawing) : Except Error Drawing :=
  match d.turtle.forward (config.fence d.canvas.bounds) distance with
  | .ok (t, drawn) => .ok ⟨t, d.canvas.drawSegments drawn⟩
  | .error p => .error (.leavesCanvas p)

/-- Draws a circle around the turtle and puts the pen down. Of its surrounding square the far
corner is checked first, then the near one. -/
def drawCircle (config : Config) (circle : Circle Float) (d : Drawing) : Except Error Drawing :=
  let t := d.turtle
  let fence := config.fence d.canvas.bounds
  let far := t.position.shift circle.radius
  let near := t.position.unshift circle.radius
  if ¬ Turtle.Within fence far then .error (.leavesCanvas far)
  else if ¬ Turtle.Within fence near then .error (.leavesCanvas near)
  else .ok ⟨{ t with penDown := true },
    d.canvas.addMarks [.arc t.position circle.radius t.colour t.width]⟩

/-- Sets the width of the pen; there is no pen of width zero. -/
def setWidth (width : UInt32) (d : Drawing) : Except Error Drawing :=
  if width = 0 then .error (.notPositive .penWidth "0")
  else .ok { d with turtle.width := width }

end Drawing

namespace Action

/-- The message for an action that was carried out. -/
def message : Action → String
  | penUp => "Pen is UP."
  | penDown => "Pen is DOWN."
  | turn n =>
    let side := if n.toInt < 0 then "left" else "right"
    s!"Turned {side} by {n.toInt.natAbs} degrees."
  | move n =>
    if n.toInt < 0 then s!"Reversed by {n.toInt.natAbs} units."
    else s!"Moved forward by {n.toInt} units."
  | colour c =>
    s!"Pen colour set to RGB({c.red.toNat},{c.green.toNat},{c.blue.toNat})."
  | penWidth n => s!"Pen width set to {n.toNat}."
  | reset => "Turtle state reset (position, direction, pen). Canvas not cleared."
  | clear => "Canvas cleared."
  | about => helpText
  | square n => s!"Drew a square with side length {n.toInt}."
  | triangle (.equilateral n) => s!"Drew an equilateral triangle with side length {n.toInt}."
  | triangle (.sides a b c) =>
    s!"Drew a triangle with sides {Decimal.shortest a}, {Decimal.shortest b}, " ++
      s!"{Decimal.shortest c}."
  | star n => s!"Drew a star with side length {n.toInt}."
  | hexagon n => s!"Drew a hexagon with side length {n.toInt}."
  | circle n => s!"Drew a circle with radius {n.toInt}."

/-- What an action does to a drawing, and what stands against it if it fails. -/
def apply (config : Config) (d : Drawing) : Action → Except Error Unit × Drawing
  | penUp => (.ok (), { d with turtle.penDown := false })
  | penDown => (.ok (), { d with turtle.penDown := true })
  | turn n => (.ok (), { d with turtle := d.turtle.turn (scalarOf n) })
  | move n => d.settle (d.moveTurtle config (scalarOf n))
  | colour c => (.ok (), { d with turtle.colour := c })
  | penWidth n => d.settle (d.setWidth n)
  | reset => (.ok (), d.resetTurtle config)
  | clear => (.ok (), d.clearCanvas)
  | about => (.ok (), d)
  | square n => d.drawOutline config (.square (scalarOf n))
  | triangle (.equilateral n) => d.drawOutline config (.equilateralTriangle (scalarOf n))
  | triangle (.sides a b c) => d.drawOutline config (.triangle a b c)
  | star n => d.drawOutline config (.star (scalarOf n))
  | hexagon n => d.drawOutline config (.hexagon (scalarOf n))
  | circle n => d.settle (d.drawCircle config ⟨scalarOf n⟩)

/-- Carries out an action: its message or what stands against it, and the drawing after it. -/
def execute (config : Config) (a : Action) (d : Drawing) : Except Error String × Drawing :=
  let (outcome, d') := a.apply config d
  (outcome.map fun _ => a.message, d')

end Action

end TurtleGraphics
