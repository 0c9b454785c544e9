import TurtleGraphics.Command.Basic
import TurtleGraphics.Command.Keyword
import TurtleGraphics.Json.Drawing

/-!
# JSON forms of commands
-/

set_option autoImplicit false

namespace TurtleGraphics

open Json

instance : JsonForm Path where
  toJson p := .text p.text
  ofJson? j := (JsonForm.ofJson? j).map Path.mk

def Keyword.table : List (String × Keyword) :=
  [("PenUp", .penUp), ("PenDown", .penDown), ("Left", .left), ("Right", .right),
    ("Move", .move), ("Reverse", .reverse), ("Black", .black), ("Green", .green),
    ("Red", .red), ("White", .white), ("Blue", .blue), ("Yellow", .yellow),
    ("PenColour", .penColour), ("PenWidth", .penWidth), ("Reset", .reset), ("Clear", .clear),
    ("About", .about), ("Square", .square), ("Triangle", .triangle), ("Star", .star),
    ("Hexagon", .hexagon), ("Circle", .circle), ("Save", .save), ("Load", .load)]

instance : JsonForm Keyword where
  toJson := nameIn Keyword.table
  ofJson? := ofTable? Keyword.table

def FileKind.table : List (String × FileKind) := [("Commands", .script), ("Image", .image)]

instance : JsonForm FileKind where
  toJson := nameIn FileKind.table
  ofJson? := ofTable? FileKind.table

instance : JsonForm TriangleSize where
  toJson
    | .equilateral side => tagged "Equilateral" (JsonForm.toJson side)
    | .sides a b c => tagged "Sides" <|
      .list [JsonForm.toJson a, JsonForm.toJson b, JsonForm.toJson c]
  ofJson? j := do
    match ← alternative? j with
    | ("Equilateral", contents) => return .equilateral (← required contents)
    | ("Sides", some (.list [a, b, c])) =>
      return .sides (← JsonForm.ofJson? a) (← JsonForm.ofJson? b) (← JsonForm.ofJson? c)
    | _ => none

/-- The turtle commands that carry nothing. -/
def Action.table : List (String × Action) :=
  [("PenUp", .penUp), ("PenDown", .penDown), ("Reset", .reset), ("Clear", .clear),
    ("About", .about)]

instance : JsonForm Action where
  toJson
    | .turn n => tagged "Turn" (JsonForm.toJson n)
    | .move n => tagged "Move" (JsonForm.toJson n)
    | .colour c => tagged "Colour" (JsonForm.toJson c)
    | .penWidth n => tagged "PenWidth" (JsonForm.toJson n)
    | .square n => tagged "Square" (JsonForm.toJson n)
    | .triangle size => tagged "Triangle" (JsonForm.toJson size)
    | .star n => tagged "Star" (JsonForm.toJson n)
    | .hexagon n => tagged "Hexagon" (JsonForm.toJson n)
    | .circle n => tagged "Circle" (JsonForm.toJson n)
    | c => nameIn Action.table c
  ofJson? j := do
    match ← alternative? j with
    | ("Turn", contents) => return .turn (← required contents)
    | ("Move", contents) => return .move (← required contents)
    | ("Colour", contents) => return .colour (← required contents)
    | ("PenWidth", contents) => return .penWidth (← required contents)
    | ("Square", contents) => return .square (← required contents)
    | ("Triangle", contents) => return .triangle (← required contents)
    | ("Star", contents) => return .star (← required contents)
    | ("Hexagon", contents) => return .hexagon (← required contents)
    | ("Circle", contents) => return .circle (← required contents)
    | _ => ofTable? Action.table j

/-- The kind and path of a save or load. -/
def Command.fileOf? : Json → Option (FileKind × Option Path)
  | .list [kind, path] => return (← JsonForm.ofJson? kind, ← JsonForm.ofJson? path)
  | _ => none

instance : JsonForm Command where
  toJson
    | .act a => tagged "Turtle" (JsonForm.toJson a)
    | .save kind path => tagged "Save" <| .list [JsonForm.toJson kind, JsonForm.toJson path]
    | .load kind path => tagged "Load" <| .list [JsonForm.toJson kind, JsonForm.toJson path]
  ofJson? j := do
    match ← alternative? j with
    | ("Turtle", contents) => return .act (← required contents)
    | ("Save", contents) =>
      return (fun (kind, path) => .save kind path) (← contents.bind Command.fileOf?)
    | ("Load", contents) =>
      return (fun (kind, path) => .load kind path) (← contents.bind Command.fileOf?)
    | _ => none

end TurtleGraphics
