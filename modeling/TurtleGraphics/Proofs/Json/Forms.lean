import TurtleGraphics.Proofs.History.Reloading

/-!
# Values that come back from their JSON forms

A value reads back if its JSON form is read as this very value. Texts, marks and whole numbers of a
fixed width always do, floats if they are finite, counts if they fit in 64 bits; and what is made of
these does if all its parts do. A configuration may be given in part: a field that its form leaves
out is read as its default (`ofJson?_without`). `forms_readBack` has all forms together.
-/

set_option autoImplicit false

namespace TurtleGraphics

open Json

/-- The value comes back from its JSON form. -/
def ReadsBack {α : Type} [JsonForm α] (a : α) : Prop :=
  JsonForm.ofJson? (JsonForm.toJson a) = some a

/-! ## Numbers, texts and lists -/

theorem wholeIn?_of_mem {lo hi n : Int} (hlo : lo ≤ n) (hhi : n < hi) :
    JsonForm.wholeIn? lo hi (.whole n) = some n := if_pos ⟨hlo, hhi⟩

theorem readsBack_bool (b : Bool) : ReadsBack b := rfl

theorem readsBack_text (s : String) : ReadsBack s := rfl

theorem readsBack_byte (n : UInt8) : ReadsBack n := by
  have hhi : (n.toNat : Int) < (UInt8.size : Nat) := by exact_mod_cast n.toNat_lt
  show (JsonForm.wholeIn? 0 (UInt8.size : Nat) (.whole n.toNat)).map _ = _
  rw [wholeIn?_of_mem (Int.natCast_nonneg _) hhi]
  simp

theorem readsBack_width (n : UInt32) : ReadsBack n := by
  have hhi : (n.toNat : Int) < (UInt32.size : Nat) := by exact_mod_cast n.toNat_lt
  show (JsonForm.wholeIn? 0 (UInt32.size : Nat) (.whole n.toNat)).map _ = _
  rw [wholeIn?_of_mem (Int.natCast_nonneg _) hhi]
  simp

theorem readsBack_int64 (n : Int64) : ReadsBack n := by
  have hlo : -9223372036854775808 ≤ n.toInt := n.le_toInt
  have hhi : n.toInt < 9223372036854775808 := n.toInt_lt
  show (JsonForm.wholeIn? (-9223372036854775808) 9223372036854775808 (.whole n.toInt)).map _ = _
  rw [wholeIn?_of_mem hlo hhi]
  simp

theorem readsBack_count (n : Nat) : ReadsBack n ↔ n < UInt64.size := by
  show (if 0 ≤ (n : Int) ∧ (n : Int) < (UInt64.size : Nat) then some (n : Int) else none).map _ = _
    ↔ _
  split
  · exact iff_of_true (by simp) (by omega)
  · exact iff_of_false (by simp) (by omega)

/-- A number that is not finite is written as null, and null is read as no number. -/
theorem readsBack_float (x : Float) : ReadsBack x ↔ x.isFinite := by
  show JsonForm.ofJson? (if x.isFinite then Json.real x else .null) = some x ↔ _
  split
  · exact iff_of_true rfl ‹_›
  · exact iff_of_false (by rintro ⟨⟩) ‹_›

theorem readsBack_list {α : Type} [JsonForm α] {items : List α} (h : ∀ a ∈ items, ReadsBack a) :
    ReadsBack items := by
  show (items.map JsonForm.toJson).mapM JsonForm.ofJson? = some items
  induction items with
  | nil => rfl
  | cons a rest ih =>
    rw [List.forall_mem_cons] at h
    rw [List.map_cons, List.mapM_cons, ih h.2, h.1]
    rfl

/-! ## Drawings

What is drawn with is read over any scalars. The scalars of a value are listed in the order in
which its form has them. -/

section
variable {α : Type} [JsonForm α]

/-- A value in an alternative is written under its name, and comes back if the value does. -/
theorem readsBack_tagged {β : Type} [JsonForm β] {f : α → β} {name : String}
    (hf : Function.Injective f) (hw : ∀ a, JsonForm.toJson (f a) = tagged name (JsonForm.toJson a))
    (hr : ∀ j : Json, JsonForm.ofJson? (tagged name j) = (do return f (← JsonForm.ofJson? j)))
    (a : α) : ReadsBack (f a) ↔ ReadsBack a := by
  rw [ReadsBack, hw, hr]
  simp [ReadsBack, Option.bind_eq_some_iff, hf.eq_iff]

theorem ofJson?_colour (r g b : Json) :
    (JsonForm.ofJson? (.object [("r", r), ("g", g), ("b", b)]) : Option Colour) = (do
      return ⟨← JsonForm.ofJson? r, ← JsonForm.ofJson? g, ← JsonForm.ofJson? b⟩) := rfl

theorem readsBack_colour (c : Colour) : ReadsBack c := by
  refine (ofJson?_colour _ _ _).trans ?_
  rw [readsBack_byte, readsBack_byte, readsBack_byte]
  rfl

def Point.scalars (p : Point α) : List α := [p.x, p.y]

theorem ofJson?_point (x y : Json) :
    (JsonForm.ofJson? (.list [x, y]) : Option (Point α)) = (do
      return ⟨← JsonForm.ofJson? x, ← JsonForm.ofJson? y⟩) := rfl

theorem readsBack_point (p : Point α) : ReadsBack p ↔ ∀ x ∈ p.scalars, ReadsBack x := by
  obtain ⟨x, y⟩ := p
  show JsonForm.ofJson? (.list [JsonForm.toJson x, JsonForm.toJson y]) = _ ↔ _
  rw [ofJson?_point]
  simp [ReadsBack, Option.bind_eq_some_iff, Point.scalars]

def Step.scalars : Step α → List α
  | forward distance => [distance]
  | turn degrees => [degrees]

theorem readsBack_step (s : Step α) : ReadsBack s ↔ ∀ x ∈ s.scalars, ReadsBack x := by
  rw [Step.scalars.eq_def]
  cases s with
  | forward distance =>
    rw [List.forall_mem_singleton]
    exact readsBack_tagged (fun _ _ => Step.forward.inj) (fun _ => rfl) (fun _ => rfl) distance
  | turn degrees =>
    rw [List.forall_mem_singleton]
    exact readsBack_tagged (fun _ _ => Step.turn.inj) (fun _ => rfl) (fun _ => rfl) degrees

def Segment.scalars (s : Segment α) : List α := s.start.scalars ++ s.stop.scalars

theorem ofJson?_segment (start stop colour width : Json) :
    (JsonForm.ofJson? (.object [("from", start), ("to", stop), ("color", colour),
      ("width", width)]) : Option (Segment α)) = (do
        return ⟨← JsonForm.ofJson? start, ← JsonForm.ofJson? stop, ← JsonForm.ofJson? colour,
          ← JsonForm.ofJson? width⟩) := rfl

theorem readsBack_segment (s : Segment α) : ReadsBack s ↔ ∀ x ∈ s.scalars, ReadsBack x := by
  obtain ⟨start, stop, colour, width⟩ := s
  show JsonForm.ofJson? (.object [("from", JsonForm.toJson start), ("to", JsonForm.toJson stop),
    ("color", JsonForm.toJson colour), ("width", JsonForm.toJson width)]) = _ ↔ _
  rw [ofJson?_segment, readsBack_colour, readsBack_width, Segment.scalars, List.forall_mem_append,
    ← readsBack_point, ← readsBack_point]
  simp [ReadsBack, Option.bind_eq_some_iff]

def Mark.scalars : Mark α → List α
  | segment s => s.scalars
  | arc centre radius _ _ => centre.scalars ++ [radius]
  | _ => []

def Mark.counts : Mark α → List Nat
  | background size => [size]
  | _ => []

theorem arcOf?_object (centre radius colour width : Json) :
    (Mark.arcOf? (.object [("center", centre), ("radius", radius), ("color", colour),
      ("width", width)]) : Option (Mark α)) = (do
        return .arc (← JsonForm.ofJson? centre) (← JsonForm.ofJson? radius)
          (← JsonForm.ofJson? colour) (← JsonForm.ofJson? width)) := rfl

theorem readsBack_arc (centre : Point α) (radius : α) (colour : Colour) (width : UInt32) :
    ReadsBack (Mark.arc centre radius colour width) ↔ ReadsBack centre ∧ ReadsBack radius := by
  show Mark.arcOf? (.object [("center", JsonForm.toJson centre), ("radius", JsonForm.toJson radius),
    ("color", JsonForm.toJson colour), ("width", JsonForm.toJson width)]) = _ ↔ _
  rw [arcOf?_object, readsBack_colour, readsBack_width]
  simp [ReadsBack, Option.bind_eq_some_iff]

theorem readsBack_mark (m : Mark α) :
    ReadsBack m ↔ (∀ x ∈ m.scalars, ReadsBack x) ∧ ∀ n ∈ m.counts, ReadsBack n := by
  cases m with
  | segment s =>
    rw [Mark.scalars, ← readsBack_segment]
    simpa [Mark.counts] using
      readsBack_tagged (fun _ _ => Mark.segment.inj) (fun _ => rfl) (fun _ => rfl) s
  | arc centre radius colour width =>
    rw [Mark.scalars, List.forall_mem_append, ← readsBack_point, List.forall_mem_singleton]
    simpa [Mark.counts] using readsBack_arc centre radius colour width
  | clear => exact iff_of_true rfl (by simp [Mark.scalars, Mark.counts])
  | background size =>
    have hf : Function.Injective (Mark.background : Nat → Mark α) := fun _ _ => Mark.background.inj
    simpa [Mark.scalars, Mark.counts] using
      readsBack_tagged hf (fun _ => rfl) (fun _ => rfl) size

def Turtle.scalars (t : Turtle α) : List α := t.position.scalars ++ [t.heading]

theorem ofJson?_turtle (position heading penDown colour width : Json) :
    (JsonForm.ofJson? (.object [("position", position), ("heading", heading),
      ("pen_down", penDown), ("color", colour), ("stroke_width", width)]) : Option (Turtle α)) = (do
        return ⟨← JsonForm.ofJson? position, ← JsonForm.ofJson? heading,
          ← JsonForm.ofJson? penDown, ← JsonForm.ofJson? colour, ← JsonForm.ofJson? width⟩) := rfl

theorem readsBack_turtle (t : Turtle α) : ReadsBack t ↔ ∀ x ∈ t.scalars, ReadsBack x := by
  obtain ⟨position, heading, penDown, colour, width⟩ := t
  show JsonForm.ofJson? (.object [("position", JsonForm.toJson position),
    ("heading", JsonForm.toJson heading), ("pen_down", JsonForm.toJson penDown),
    ("color", JsonForm.toJson colour), ("stroke_width", JsonForm.toJson width)]) = _ ↔ _
  rw [ofJson?_turtle, readsBack_bool, readsBack_colour, readsBack_width, Turtle.scalars,
    List.forall_mem_append, ← readsBack_point, List.forall_mem_singleton]
  simp [ReadsBack, Option.bind_eq_some_iff]

end

/-! ## Commands -/

/-- The sides of a triangle are the only floats in a command. -/
def TriangleSize.scalars : TriangleSize → List Float
  | equilateral _ => []
  | sides a b c => [a, b, c]

def Action.scalars : Action → List Float
  | triangle size => size.scalars
  | _ => []

def Command.scalars : Command → List Float
  | act a => a.scalars
  | _ => []

theorem ofJson?_sides (a b c : Json) :
    (JsonForm.ofJson? (tagged "Sides" (.list [a, b, c])) : Option TriangleSize) = (do
      return .sides (← JsonForm.ofJson? a) (← JsonForm.ofJson? b) (← JsonForm.ofJson? c)) := rfl

theorem readsBack_triangleSize (size : TriangleSize) :
    ReadsBack size ↔ ∀ x ∈ size.scalars, ReadsBack x := by
  cases size with
  | equilateral side =>
    have h := readsBack_tagged (fun _ _ => TriangleSize.equilateral.inj) (fun _ => rfl)
      (fun _ => rfl) side
    exact iff_of_true (h.2 (readsBack_int64 side)) (List.forall_mem_nil _)
  | sides a b c =>
    show JsonForm.ofJson? (tagged "Sides" (.list [JsonForm.toJson a, JsonForm.toJson b,
      JsonForm.toJson c])) = _ ↔ _
    rw [ofJson?_sides]
    simp [ReadsBack, Option.bind_eq_some_iff, TriangleSize.scalars]

/-- An action with no floats in what it carries. -/
theorem readsBack_carrying {α : Type} [JsonForm α] (h : ∀ a : α, ReadsBack a) {f : α → Action}
    {name : String} (hf : Function.Injective f)
    (hw : ∀ a, JsonForm.toJson (f a) = tagged name (JsonForm.toJson a))
    (hr : ∀ j : Json, JsonForm.ofJson? (tagged name j) = (do return f (← JsonForm.ofJson? j)))
    (a : α) (hs : (f a).scalars = []) : ReadsBack (f a) ↔ ∀ x ∈ (f a).scalars, ReadsBack x := by
  rw [hs]
  exact iff_of_true ((readsBack_tagged hf hw hr a).2 (h a)) (List.forall_mem_nil _)

theorem readsBack_action (a : Action) : ReadsBack a ↔ ∀ x ∈ a.scalars, ReadsBack x := by
  cases a with
  | triangle size =>
    have h := readsBack_tagged (fun _ _ => Action.triangle.inj) (fun _ => rfl) (fun _ => rfl) size
    exact h.trans (readsBack_triangleSize size)
  | colour c =>
    exact readsBack_carrying readsBack_colour (fun _ _ => Action.colour.inj) (fun _ => rfl)
      (fun _ => rfl) c rfl
  | penWidth n =>
    exact readsBack_carrying readsBack_width (fun _ _ => Action.penWidth.inj) (fun _ => rfl)
      (fun _ => rfl) n rfl
  | turn n =>
    exact readsBack_carrying readsBack_int64 (fun _ _ => Action.turn.inj) (fun _ => rfl)
      (fun _ => rfl) n rfl
  | move n =>
    exact readsBack_carrying readsBack_int64 (fun _ _ => Action.move.inj) (fun _ => rfl)
      (fun _ => rfl) n rfl
  | square n =>
    exact readsBack_carrying readsBack_int64 (fun _ _ => Action.square.inj) (fun _ => rfl)
      (fun _ => rfl) n rfl
  | star n =>
    exact readsBack_carrying readsBack_int64 (fun _ _ => Action.star.inj) (fun _ => rfl)
      (fun _ => rfl) n rfl
  | hexagon n =>
    exact readsBack_carrying readsBack_int64 (fun _ _ => Action.hexagon.inj) (fun _ => rfl)
      (fun _ => rfl) n rfl
  | circle n =>
    exact readsBack_carrying readsBack_int64 (fun _ _ => Action.circle.inj) (fun _ => rfl)
      (fun _ => rfl) n rfl
  | penUp | penDown | reset | clear | about => exact iff_of_true rfl (List.forall_mem_nil _)

theorem readsBack_command (c : Command) : ReadsBack c ↔ ∀ x ∈ c.scalars, ReadsBack x := by
  cases c with
  | act a =>
    exact (readsBack_tagged (fun _ _ => Command.act.inj) (fun _ => rfl) (fun _ => rfl) a).trans
      (readsBack_action a)
  | save kind path | load kind path =>
    refine iff_of_true ?_ (List.forall_mem_nil _)
    cases kind <;> cases path <;> rfl

/-! ## Session data -/

theorem ofJson?_script (lines : Json) :
    (JsonForm.ofJson? (.object [("lines", lines)]) : Option Script) = (do
      return ⟨← JsonForm.ofJson? lines⟩) := rfl

theorem readsBack_script (s : Script) : ReadsBack s := by
  refine (ofJson?_script _).trans ?_
  rw [readsBack_list fun line _ => readsBack_text line]
  rfl

def Tally.counts (t : Tally) : List Nat := [t.total, t.applied, t.failed, t.skipped]

theorem ofJson?_tally (total applied failed skipped cancelled : Json) :
    (JsonForm.ofJson? (.object [("total", total), ("applied", applied), ("failed", failed),
      ("skipped", skipped), ("cancelled", cancelled)]) : Option Tally) = (do
        return ⟨← JsonForm.ofJson? total, ← JsonForm.ofJson? applied, ← JsonForm.ofJson? failed,
          ← JsonForm.ofJson? skipped, ← JsonForm.ofJson? cancelled⟩) := rfl

theorem readsBack_tally (t : Tally) : ReadsBack t ↔ ∀ n ∈ t.counts, ReadsBack n := by
  obtain ⟨total, applied, failed, skipped, cancelled⟩ := t
  show JsonForm.ofJson? (.object [("total", JsonForm.toJson total),
    ("applied", JsonForm.toJson applied), ("failed", JsonForm.toJson failed),
    ("skipped", JsonForm.toJson skipped), ("cancelled", JsonForm.toJson cancelled)]) = _ ↔ _
  rw [ofJson?_tally, readsBack_bool]
  simp [ReadsBack, Option.bind_eq_some_iff, Tally.counts]

/-! ## Configurations -/

namespace Json

/-- An object without its fields of some names. -/
def without (gone : String → Bool) : Json → Json
  | object kvs => object (kvs.filter fun kv => !gone kv.1)
  | j => j

theorem field?_filter (gone : String → Bool) (kvs : List (String × Json)) (name : String) :
    field? (kvs.filter fun kv => !gone kv.1) name =
      if gone name then none else field? kvs name := by
  unfold field?
  induction kvs with
  | nil => simp
  | cons kv rest ih =>
    obtain ⟨key, j⟩ := kv
    by_cases hn : name = key
    · subst hn
      by_cases hg : gone name <;> simp [hg, ih]
    · have hb : (name == key) = false := by simpa using hn
      by_cases hg : gone key <;> simp [hg, ih, List.lookup_cons, hb]

end Json

/-- A field that may be left out. -/
theorem optional_eq {α : Type} [JsonForm α] (default : α) {a : α} (h : ReadsBack a) (gone : Bool) :
    optional default (if gone then none else some (JsonForm.toJson a)) =
      some (if gone then default else a) := by
  cases gone
  · exact h
  · rfl

/-- The configuration with defaults for the fields of some names in its form. -/
def Config.without (gone : String → Bool) (c : Config) : Config where
  heading := if gone "default_heading" then standard.heading else c.heading
  colour := if gone "default_color" then standard.colour else c.colour
  width := if gone "default_stroke_width" then standard.width else c.width
  width_pos := by
    split
    · exact standard.width_pos
    · exact c.width_pos
  edgeRule := if gone "bounds_policy" then standard.edgeRule else c.edgeRule
  scriptPath := if gone "default_script_path" then standard.scriptPath else c.scriptPath
  imagePath := if gone "default_image_path" then standard.imagePath else c.imagePath

theorem ofJson?_config (kvs : List (String × Json)) :
    (JsonForm.ofJson? (.object kvs) : Option Config) = (do
      let c : Config := { Config.standard with
        heading := ← optional Config.standard.heading (field? kvs "default_heading")
        colour := ← optional Config.standard.colour (field? kvs "default_color")
        edgeRule := ← optional Config.standard.edgeRule (field? kvs "bounds_policy")
        scriptPath := ← optional Config.standard.scriptPath (field? kvs "default_script_path")
        imagePath := ← optional Config.standard.imagePath (field? kvs "default_image_path") }
      c.withWidth? (← optional Config.standard.width (field? kvs "default_stroke_width"))) := rfl

theorem readsBack_path (p : Path) : ReadsBack p := rfl

theorem readsBack_edgeRule (rule : EdgeRule) : ReadsBack rule := by
  cases rule <;> rfl

/-- The fields that are left are read, and the others have their defaults. -/
theorem ofJson?_config_without (gone : String → Bool)
    (heading colour width policy script image : Json) :
    (JsonForm.ofJson? (without gone (.object [("default_heading", heading),
      ("default_color", colour), ("default_stroke_width", width), ("bounds_policy", policy),
      ("default_script_path", script), ("default_image_path", image)])) : Option Config) = (do
        let d := Config.standard
        let left (name : String) (j : Json) := if gone name then none else some j
        let c : Config := { d with
          heading := ← optional d.heading (left "default_heading" heading)
          colour := ← optional d.colour (left "default_color" colour)
          edgeRule := ← optional d.edgeRule (left "bounds_policy" policy)
          scriptPath := ← optional d.scriptPath (left "default_script_path" script)
          imagePath := ← optional d.imagePath (left "default_image_path" image) }
        c.withWidth? (← optional d.width (left "default_stroke_width" width))) := by
  refine (ofJson?_config _).trans ?_
  simp only [field?_filter]
  rfl

/-- Of all fields only a heading that is not finite cannot be read again, unless it is left out. -/
theorem optional_heading (gone : Bool) (default x : Float) :
    optional default (if gone then none else some (JsonForm.toJson x)) =
      if gone ∨ x.isFinite then some (if gone then default else x) else none := by
  cases gone with
  | true => rfl
  | false =>
    show JsonForm.ofJson? (if x.isFinite then Json.real x else .null) = _
    by_cases hx : x.isFinite
    · simp [hx, JsonForm.ofJson?]
    · simp [hx, JsonForm.ofJson?]

/-- A configuration in whose form some fields are left out is read with their defaults. -/
theorem ofJson?_without (gone : String → Bool) (c : Config) :
    JsonForm.ofJson? ((JsonForm.toJson c).without gone) = some (c.without gone) ↔
      gone "default_heading" ∨ c.heading.isFinite := by
  have hread := ofJson?_config_without gone (JsonForm.toJson c.heading) (JsonForm.toJson c.colour)
    (JsonForm.toJson c.width) (JsonForm.toJson c.edgeRule) (JsonForm.toJson c.scriptPath)
    (JsonForm.toJson c.imagePath)
  simp only [optional_eq _ (readsBack_colour c.colour), optional_eq _ (readsBack_width c.width),
    optional_eq _ (readsBack_edgeRule c.edgeRule), optional_eq _ (readsBack_path c.scriptPath),
    optional_eq _ (readsBack_path c.imagePath), optional_heading] at hread
  refine Iff.trans (iff_of_eq (congrArg (· = _) hread)) ?_
  split
  · exact iff_of_true (dif_pos (c.without gone).width_pos) ‹_›
  · exact iff_of_false (by rintro ⟨⟩) ‹_›

theorem readsBack_config (c : Config) : ReadsBack c ↔ c.heading.isFinite :=
  (ofJson?_without (fun _ => false) c).trans (by simp)

example : JsonForm.ofJson? (.object []) = some Config.standard := rfl

/-! ## All forms -/

def AllFinite (xs : List Float) : Prop := ∀ x ∈ xs, x.isFinite

/-- Counts of 64 bits. -/
def AllFit (counts : List Nat) : Prop := ∀ n ∈ counts, n < UInt64.size

theorem allFinite_iff (xs : List Float) : (∀ x ∈ xs, ReadsBack x) ↔ AllFinite xs :=
  forall₂_congr fun x _ => readsBack_float x

theorem allFit_iff (counts : List Nat) : (∀ n ∈ counts, ReadsBack n) ↔ AllFit counts :=
  forall₂_congr fun n _ => readsBack_count n

/-- Every command, configuration, turtle, mark, step, segment, script and tally comes back from its
JSON form exactly if the floats in it are finite and the counts in it have 64 bits. So does every
history, but for the marks of its records. If any fields of a configuration are left out of its
form, the others are read as they were and these have their defaults. All paths are texts (`Path`):
of one that is not Unicode, and so has no form to come back from, nothing is said. -/
theorem forms_readBack :
    (∀ c : Command, ReadsBack c ↔ AllFinite c.scalars) ∧
      (∀ c : Config, ReadsBack c ↔ c.heading.isFinite) ∧
      (∀ t : Turtle Float, ReadsBack t ↔ AllFinite t.scalars) ∧
      (∀ m : Mark Float, ReadsBack m ↔ AllFinite m.scalars ∧ AllFit m.counts) ∧
      (∀ s : Step Float, ReadsBack s ↔ AllFinite s.scalars) ∧
      (∀ s : Segment Float, ReadsBack s ↔ AllFinite s.scalars) ∧
      (∀ s : Script, ReadsBack s) ∧
      (∀ t : Tally, ReadsBack t ↔ AllFit t.counts) ∧
      (∀ h : History, JsonForm.ofJson? (JsonForm.toJson h) = some h.unmarked) ∧
      ∀ (c : Config) (gone : String → Bool),
        JsonForm.ofJson? ((JsonForm.toJson c).without gone) = some (c.without gone) ↔
          gone "default_heading" ∨ c.heading.isFinite := by
  refine ⟨fun c => ?_, readsBack_config, fun t => ?_, fun m => ?_, fun s => ?_, fun s => ?_,
    readsBack_script, fun t => ?_, History.reload_eq, fun c gone => ofJson?_without gone c⟩
  · rw [readsBack_command, allFinite_iff]
  · rw [readsBack_turtle, allFinite_iff]
  · rw [readsBack_mark, allFinite_iff, allFit_iff]
  · rw [readsBack_step, allFinite_iff]
  · rw [readsBack_segment, allFinite_iff]
  · rw [readsBack_tally, allFit_iff]

end TurtleGraphics
