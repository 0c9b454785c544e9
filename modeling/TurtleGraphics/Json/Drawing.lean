import TurtleGraphics.Json.Basic
import TurtleGraphics.Turtle

/-!
# JSON forms of drawings

Colours, points, bounds, steps, the log of a canvas and the turtle.
-/

set_option autoImplicit false

namespace TurtleGraphics

open Json

instance : JsonForm Colour where
  toJson c := .object
    [("r", JsonForm.toJson c.red), ("g", JsonForm.toJson c.green), ("b", JsonForm.toJson c.blue)]
  ofJson? j := do
    match ← fields? ["r", "g", "b"] j with
    | [r, g, b] => return ⟨← required r, ← required g, ← required b⟩
    | _ => none

section
variable {α : Type} [JsonForm α]

instance : JsonForm (Point α) where
  toJson p := .list [JsonForm.toJson p.x, JsonForm.toJson p.y]
  ofJson?
    | .list [x, y] => return ⟨← JsonForm.ofJson? x, ← JsonForm.ofJson? y⟩
    | _ => none

instance : JsonForm (Bounds α) where
  toJson b := .object
    [("width", JsonForm.toJson b.width), ("height", JsonForm.toJson b.height)]
  ofJson? j := do
    match ← fields? ["width", "height"] j with
    | [width, height] => return ⟨← required width, ← required height⟩
    | _ => none

instance : JsonForm (Circle α) where
  toJson c := .object [("radius", JsonForm.toJson c.radius)]
  ofJson? j := do
    match ← fields? ["radius"] j with
    | [radius] => return ⟨← required radius⟩
    | _ => none

instance : JsonForm (Angles α) where
  toJson t := .object
    [("a", JsonForm.toJson t.a), ("b", JsonForm.toJson t.b), ("c", JsonForm.toJson t.c)]
  ofJson? j := do
    match ← fields? ["a", "b", "c"] j with
    | [a, b, c] => return ⟨← required a, ← required b, ← required c⟩
    | _ => none

instance : JsonForm (Step α) where
  toJson
    | .forward distance => tagged "Forward" (JsonForm.toJson distance)
    | .turn degrees => tagged "Turn" (JsonForm.toJson degrees)
  ofJson? j := do
    match ← alternative? j with
    | ("Forward", contents) => return .forward (← required contents)
    | ("Turn", contents) => return .turn (← required contents)
    | _ => none

instance : JsonForm (Segment α) where
  toJson s := .object
    [("from", JsonForm.toJson s.start), ("to", JsonForm.toJson s.stop),
      ("color", JsonForm.toJson s.colour), ("width", JsonForm.toJson s.width)]
  ofJson? j := do
    match ← fields? ["from", "to", "color", "width"] j with
    | [start, stop, colour, width] =>
      return ⟨← required start, ← required stop, ← required colour, ← required width⟩
    | _ => none

/-- The contents of an arc, named in an object. -/
def Mark.arcOf? : Json → Option (Mark α)
  | .object kvs =>
    return .arc (← required (field? kvs "center")) (← required (field? kvs "radius"))
      (← required (field? kvs "color")) (← required (field? kvs "width"))
  | _ => none

instance : JsonForm (Mark α) where
  toJson
    | .segment s => tagged "Segment" (JsonForm.toJson s)
    | .arc centre radius colour width => tagged "Arc" <| .object
      [("center", JsonForm.toJson centre), ("radius", JsonForm.toJson radius),
        ("color", JsonForm.toJson colour), ("width", JsonForm.toJson width)]
    | .clear => .text "Clear"
    | .background size => tagged "Background" (JsonForm.toJson size)
  ofJson? j := do
    match ← alternative? j with
    | ("Segment", contents) => return .segment (← required contents)
    | ("Arc", contents) => contents.bind Mark.arcOf?
    | ("Clear", contents) => return (fun _ => .clear) (← empty? contents)
    | ("Background", contents) => return .background (← required contents)
    | _ => none

instance : JsonForm (Turtle α) where
  toJson t := .object
    [("position", JsonForm.toJson t.position), ("heading", JsonForm.toJson t.heading),
      ("pen_down", JsonForm.toJson t.penDown), ("color", JsonForm.toJson t.colour),
      ("stroke_width", JsonForm.toJson t.width)]
  ofJson? j := do
    match ← fields? ["position", "heading", "pen_down", "color", "stroke_width"] j with
    | [position, heading, penDown, colour, width] =>
      return ⟨← required position, ← required heading, ← required penDown, ← required colour,
        ← required width⟩
    | _ => none

end

end TurtleGraphics
