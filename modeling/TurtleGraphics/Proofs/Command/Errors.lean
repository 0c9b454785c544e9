import TurtleGraphics.Command.Arguments
import TurtleGraphics.Proofs.Drawing.Refusal
import TurtleGraphics.Proofs.Except

/-!
# Where errors come from

A line that is not understood is rejected for its word or its arguments (`ofText_fails`), and a
command that is understood fails only where it is carried out: an action if it would leave the
canvas or set a width of zero (`Action.execute_fails`). Any action but the latter fails only at a
point that its fence excludes (`Action.execute_leaves`).
-/

set_option autoImplicit false

namespace TurtleGraphics

/-- Something is wrong with the word or the arguments of a line. -/
def Error.OfLine : Error → Prop
  | .unknownWord _ | .notANumber _ _ | .notPositive _ _ | .wrongArity _ _ _ | .outOfRange _ _
  | .badChannel _ | .noTriangle _ _ _ | .noFileKind _ _ => True
  | _ => False

/-- An action was refused: it would leave the canvas, or set a width of zero. -/
def Error.OfAction : Error → Prop
  | .leavesCanvas _ | .notPositive .penWidth _ => True
  | _ => False

/-- A point outside the fence was to be reached. -/
def Error.Leaves (fence : Option (Bounds Float)) : Error → Prop
  | .leavesCanvas p => ¬ Turtle.Within fence p
  | _ => False

theorem Error.Leaves.ofAction {fence : Option (Bounds Float)} {e : Error} (h : e.Leaves fence) :
    e.OfAction := by
  cases e with
  | leavesCanvas p => trivial
  | _ => exact h.elim

/-- There is nothing to save, or nowhere to write it. -/
def Error.OfSave : Error → Prop
  | .noPicture | .unwritable _ _ => True
  | _ => False

/-! ## Arguments -/

namespace Arguments

variable (name : Keyword) (args : Option String)

theorem absent_fails {α : Type} (value : α) : FailsOnly Error.OfLine (absent name args value) := by
  unfold absent
  split
  · exact .ok _
  · exact .error trivial

theorem single_fails : FailsOnly Error.OfLine (single name args) := by
  unfold single
  split
  · dsimp only
    split
    · exact .ok _
    · exact .error trivial
  · exact .error trivial

theorem readInteger_fails (text : String) : FailsOnly Error.OfLine (readInteger name text) := by
  unfold readInteger
  dsimp only
  split
  · exact .ok _
  · exact .error trivial

theorem integer_fails : FailsOnly Error.OfLine (integer name args) :=
  (single_fails name args).bind fun text => readInteger_fails name text

theorem positive_fails : FailsOnly Error.OfLine (positive name args) := by
  refine (integer_fails name args).bind fun n => ?_
  split
  · exact .ok _
  · exact .error trivial

theorem negatable_fails : FailsOnly Error.OfLine (negatable name args) := by
  refine (integer_fails name args).bind fun n => ?_
  split
  · exact .error trivial
  · exact .ok _

theorem width_fails : FailsOnly Error.OfLine (width name args) := by
  refine (positive_fails name args).bind fun n => ?_
  split
  · exact .ok _
  · exact .error trivial

theorem triple_fails : FailsOnly Error.OfLine (triple name args) := by
  unfold triple
  dsimp only
  split
  · exact .ok _
  · exact .error trivial

theorem colour_fails : FailsOnly Error.OfLine (colour name args) := by
  refine (triple_fails name args).bind fun ⟨r, g, b⟩ => ?_
  refine (readInteger_fails name r).bind fun red => ?_
  refine (readInteger_fails name g).bind fun green => ?_
  refine (readInteger_fails name b).bind fun blue => ?_
  cases Colour.ofChannels red green blue with
  | ok c => exact .ok c
  | error bad => exact .error trivial

theorem side_fails (text : String) : FailsOnly Error.OfLine (side name text) := by
  unfold side
  split
  · split
    · exact .error trivial
    · split
      · exact .error trivial
      · exact .ok _
  · exact .error trivial

theorem triangle_fails : FailsOnly Error.OfLine (triangle name args) := by
  unfold triangle
  split
  · refine (triple_fails name args).bind fun ⟨ta, tb, tc⟩ => ?_
    refine (side_fails name ta).bind fun a => ?_
    refine (side_fails name tb).bind fun b => ?_
    refine (side_fails name tc).bind fun c => ?_
    split
    · exact .ok _
    · exact .error trivial
  · exact (positive_fails name args).bind fun n => .ok _

theorem file_fails : FailsOnly Error.OfLine (file name args) := by
  unfold file
  dsimp only
  split
  · exact .error trivial
  · exact .ok _

end Arguments

/-! ## Lines -/

theorem Line.read_fails (text : String) : FailsOnly Error.OfLine (Line.read text) := by
  unfold Line.read
  split
  · exact .ok _
  · dsimp only
    split
    · exact .ok _
    · rename_i e he
      unfold Line.resolve at he
      split at he
      · cases he
      · split at he
        · cases he
        · cases he
          exact .error trivial

namespace Command

open Arguments in
theorem ofLine_fails (l : Line) : FailsOnly Error.OfLine (ofLine l) := by
  obtain ⟨name, args, typedAs⟩ := l
  cases name
  case save | load => exact (file_fails _ args).bind fun _ => .ok _
  case left => exact (negatable_fails _ args).bind fun _ => .ok _
  case right => exact (integer_fails _ args).bind fun _ => .ok _
  case penColour => exact (colour_fails _ args).bind fun _ => .ok _
  case penWidth => exact (width_fails _ args).bind fun _ => .ok _
  case triangle => exact (triangle_fails _ args).bind fun _ => .ok _
  case move | reverse | square | star | hexagon | circle =>
    exact (positive_fails _ args).bind fun _ => .ok _
  all_goals exact (absent_fails _ args _).bind fun _ => .ok _

/-- A text that gives no command is rejected for its word or its arguments. -/
theorem ofText_fails (text : String) : FailsOnly Error.OfLine (ofText text) := by
  have hr := Line.read_fails text
  unfold ofText
  cases hl : Line.read text with
  | error e => exact .error (hr e hl)
  | ok line =>
    cases line with
    | none => exact .ok _
    | some l => exact (ofLine_fails l).map some

end Command

/-! ## Actions -/

namespace Turtle

section
variable {α : Type} [Scalar α] {fence : Option (Bounds α)} {t : Turtle α} {p : Point α}

theorem forward_outside {distance : α} (h : t.forward fence distance = .error p) :
    ¬ Within fence p := by
  unfold forward at h
  dsimp only at h
  split at h
  · cases h
  · rename_i hw
    cases h
    exact hw

theorem step_outside {s : Step α} (h : t.step fence s = .error p) : ¬ Within fence p := by
  cases s with
  | forward distance => exact forward_outside h
  | turn degrees => cases h

/-- A step is refused for a point outside the fence. -/
theorem follow_outside {steps : List (Step α)} (h : (t.follow fence steps).2.2 = some p) :
    ¬ Within fence p := by
  induction steps generalizing t with
  | nil => cases h
  | cons s rest ih =>
    cases hs : t.step fence s with
    | error q =>
      simp only [follow, hs, Option.some.injEq] at h
      subst h
      exact step_outside hs
    | ok r =>
      simp only [follow, hs] at h
      exact ih h

end

end Turtle

namespace Drawing

variable (config : Config) (d : Drawing)

theorem settle_fails {P : Error → Prop} {r : Except Error Drawing} (h : FailsOnly P r) :
    FailsOnly P (d.settle r).1 := by
  cases r with
  | ok d' => exact .ok _
  | error e => exact .error (h e rfl)

theorem moveTurtle_fails (distance : Float) :
    FailsOnly (Error.Leaves (config.fence d.canvas.bounds)) (d.moveTurtle config distance) := by
  unfold moveTurtle
  split
  · exact .ok _
  · rename_i p hp
    exact .error (Turtle.forward_outside hp)

theorem drawCircle_fails (circle : Circle Float) :
    FailsOnly (Error.Leaves (config.fence d.canvas.bounds)) (d.drawCircle config circle) := by
  unfold drawCircle
  dsimp only
  split
  · rename_i hfar
    exact .error hfar
  · split
    · rename_i hnear
      exact .error hnear
    · exact .ok _

theorem setWidth_fails {P : Error → Prop} {width : UInt32} (hw : width ≠ 0) :
    FailsOnly P (d.setWidth width) := by
  unfold setWidth
  rw [if_neg hw]
  exact .ok _

theorem outlineExit_outside {outline : Outline Float} {p : Point Float}
    (h : d.outlineExit config outline = some p) :
    ¬ Turtle.Within (config.fence d.canvas.bounds) p := by
  unfold outlineExit at h
  split at h
  · cases h
  · rename_i b hb
    rw [hb]
    exact Turtle.follow_outside h

theorem drawOutline_fails (outline : Outline Float) :
    FailsOnly (Error.Leaves (config.fence d.canvas.bounds)) (d.drawOutline config outline).1 := by
  rw [drawOutline_eq]
  split
  · rename_i p hp
    exact .error (outlineExit_outside config d hp)
  · exact .ok _

end Drawing

namespace Action

open Drawing in
/-- Unless a width of zero is to be set, an action is refused for a point outside the fence. -/
theorem execute_leaves (config : Config) {a : Action} (ha : a ≠ .penWidth 0) (d : Drawing) :
    FailsOnly (Error.Leaves (config.fence d.canvas.bounds)) (a.execute config d).1 := by
  have happly : FailsOnly (Error.Leaves (config.fence d.canvas.bounds)) (a.apply config d).1 := by
    cases a with
    | move n => exact settle_fails d (moveTurtle_fails config d _)
    | penWidth n =>
      have hn : n ≠ 0 := by
        rintro rfl
        exact ha rfl
      exact settle_fails d (setWidth_fails d hn)
    | circle n => exact settle_fails d (drawCircle_fails config d _)
    | square n => exact drawOutline_fails config d _
    | star n => exact drawOutline_fails config d _
    | hexagon n => exact drawOutline_fails config d _
    | triangle size =>
      cases size with
      | equilateral n => exact drawOutline_fails config d _
      | sides x y z => exact drawOutline_fails config d _
    | _ => exact .ok _
  exact happly.map fun _ => a.message

/-- An action that is not carried out was refused. -/
theorem execute_fails (config : Config) (a : Action) (d : Drawing) :
    FailsOnly Error.OfAction (a.execute config d).1 := by
  by_cases ha : a = .penWidth 0
  · subst ha
    exact .error trivial
  · exact (execute_leaves config ha d).mono fun _ => Error.Leaves.ofAction

end Action

end TurtleGraphics
