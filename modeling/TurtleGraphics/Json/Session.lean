import TurtleGraphics.Config
import TurtleGraphics.Dialogue
import TurtleGraphics.History
import TurtleGraphics.Json.Command
import TurtleGraphics.Script.Replay

/-!
# JSON forms of session data

Configurations, scripts, summaries and histories. Every field of a configuration has a default;
a record's mark of the moment before it is neither written nor read.
-/

set_option autoImplicit false

namespace TurtleGraphics

open Json

def EdgeRule.table : List (String × EdgeRule) :=
  [("reject", .refuse), ("unbounded", .ignore)]

instance : JsonForm EdgeRule where
  toJson := nameIn EdgeRule.table
  ofJson? := ofTable? EdgeRule.table

def Decision.table : List (String × Decision) :=
  [("Discard", .discard), ("SaveFirst", .saveFirst), ("Cancel", .cancel)]

instance : JsonForm Decision where
  toJson := nameIn Decision.table
  ofJson? := ofTable? Decision.table

namespace Config

def fieldNames : List String :=
  ["default_heading", "default_color", "default_stroke_width", "bounds_policy",
    "default_script_path", "default_image_path"]

/-- The fields given; a list may end early. -/
def fields? : Json → Option (List (Option Json))
  | .list items =>
    if items.length ≤ fieldNames.length then
      some (items.map some ++ List.replicate (fieldNames.length - items.length) none)
    else none
  | j => Json.fields? fieldNames j

/-- A width that a pen can have. -/
def withWidth? (c : Config) (width : UInt32) : Option Config :=
  if h : 0 < width then some { c with width := width, width_pos := h } else none

end Config

instance : JsonForm Config where
  toJson c := .object
    [("default_heading", JsonForm.toJson c.heading), ("default_color", JsonForm.toJson c.colour),
      ("default_stroke_width", JsonForm.toJson c.width),
      ("bounds_policy", JsonForm.toJson c.edgeRule),
      ("default_script_path", JsonForm.toJson c.scriptPath),
      ("default_image_path", JsonForm.toJson c.imagePath)]
  ofJson? j := do
    let d := Config.standard
    match ← Config.fields? j with
    | [heading, colour, width, policy, script, image] =>
      let c : Config := { d with
        heading := ← optional d.heading heading
        colour := ← optional d.colour colour
        edgeRule := ← optional d.edgeRule policy
        scriptPath := ← optional d.scriptPath script
        imagePath := ← optional d.imagePath image }
      c.withWidth? (← optional d.width width)
    | _ => none

instance : JsonForm Script where
  toJson s := .object [("lines", JsonForm.toJson s.lines)]
  ofJson? j := do
    match ← fields? ["lines"] j with
    | [lines] => return ⟨← required lines⟩
    | _ => none

instance : JsonForm Tally where
  toJson s := .object
    [("total", JsonForm.toJson s.total), ("applied", JsonForm.toJson s.applied),
      ("failed", JsonForm.toJson s.failed), ("skipped", JsonForm.toJson s.skipped),
      ("cancelled", JsonForm.toJson s.cancelled)]
  ofJson? j := do
    match ← fields? ["total", "applied", "failed", "skipped", "cancelled"] j with
    | [total, applied, failed, skipped, cancelled] =>
      return ⟨← required total, ← required applied, ← required failed, ← required skipped,
        ← required cancelled⟩
    | _ => none

def Purpose.table : List (String × Purpose) :=
  [("Replayable", .replay), ("Informational", .audit)]

instance : JsonForm Purpose where
  toJson := nameIn Purpose.table
  ofJson? := ofTable? Purpose.table

instance : JsonForm Record where
  toJson r := .object [("line", JsonForm.toJson r.line), ("kind", JsonForm.toJson r.purpose)]
  ofJson? j := do
    match ← fields? ["line", "kind"] j with
    | [line, purpose] => return ⟨← required line, ← required purpose, false⟩
    | _ => none

instance : JsonForm History where
  toJson h := .object
    [("records", JsonForm.toJson h.records), ("dirty", JsonForm.toJson h.dirty),
      ("replaying", JsonForm.toJson h.replaying)]
  ofJson? j := do
    match ← fields? ["records", "dirty", "replaying"] j with
    | [records, dirty, replaying] =>
      return ⟨← required records, ← required dirty, ← required replaying⟩
    | _ => none

/-- The history as it comes back from its JSON form. -/
def History.reload (h : History) : Option History := JsonForm.ofJson? (JsonForm.toJson h)

end TurtleGraphics
