import TurtleGraphics.Geometry.Triangle

/-!
# Outlines

A shape is drawn by an outline: a finite sequence of steps, a forward and a turn for every
side. An outline remembers how many of its steps have been taken, and gives the rest one by one
or all at once. Turns are in degrees, clockwise on a canvas whose y axis points down.
-/

set_option autoImplicit false

namespace TurtleGraphics

open Scalar

inductive Step (α : Type) where
  /-- Advance along the heading. -/
  | forward (distance : α)
  /-- Change the heading. -/
  | turn (degrees : α)
  deriving DecidableEq

/-- By how much a step turns. -/
def Step.degrees {α : Type} [Scalar α] : Step α → α
  | forward _ => whole 0
  | turn degrees => degrees

/-- How the sides of a shape follow each other. -/
inductive Pattern (α : Type) where
  /-- The same side and turn over and over. -/
  | regular (repeats : Nat) (side turn : α)
  /-- Three sides, each with its own turn behind it. -/
  | threeSided (sides turns : Vector α 3)

namespace Pattern

variable {α : Type}

def sides : Pattern α → Nat
  | regular repeats _ _ => repeats
  | threeSided _ _ => 3

/-- Two steps for every side. -/
def total (p : Pattern α) : Nat := 2 * p.sides

def sideAt : (p : Pattern α) → (i : Nat) → i < p.sides → α
  | regular _ side _, _, _ => side
  | threeSided sides _, i, h => sides[i]

def turnAt : (p : Pattern α) → (i : Nat) → i < p.sides → α
  | regular _ _ turn, _, _ => turn
  | threeSided _ turns, i, h => turns[i]

/-- The step number `i`, from 0 on: a side, then the turn behind it. -/
def stepAt (p : Pattern α) (i : Nat) (h : i < p.total) : Step α :=
  have half : i / 2 < p.sides := by simp only [total] at h; omega
  if i % 2 = 0 then .forward (p.sideAt (i / 2) half) else .turn (p.turnAt (i / 2) half)

end Pattern

/-- A shape's steps, of which the first `taken` are behind. -/
structure Outline (α : Type) where
  pattern : Pattern α
  taken : Nat

namespace Outline

variable {α : Type}

def ofPattern (p : Pattern α) : Outline α := ⟨p, 0⟩

/-- How many steps are left. -/
def remaining (o : Outline α) : Nat := o.pattern.total - o.taken

/-- The next step and the outline behind it; at the end there is none. -/
def next? (o : Outline α) : Option (Step α × Outline α) :=
  if h : o.taken < o.pattern.total then
    some (o.pattern.stepAt o.taken h, { o with taken := o.taken + 1 })
  else none

/-- All the steps that are left. -/
def steps (o : Outline α) : List (Step α) :=
  List.ofFn fun i : Fin o.remaining =>
    o.pattern.stepAt (o.taken + i) (by have h := i.isLt; simp only [remaining] at h; omega)

/-- What the steps that are left turn by in all, added up from the first to the last. The sum starts
at the negative zero, which changes no float that is added to it. -/
def totalTurn [Scalar α] (o : Outline α) : α :=
  (o.steps.map Step.degrees).foldl (· + ·) (-whole 0)

variable [Scalar α]

/-- A given number of sides of one length, turning a full turn in all. -/
def regularPolygon (sides : Nat) (side : α) : Outline α :=
  ofPattern (.regular sides side (whole 360 / whole sides))

def square (size : α) : Outline α := regularPolygon 4 size

def hexagon (size : α) : Outline α := regularPolygon 6 size

def equilateralTriangle (size : α) : Outline α := ofPattern (.regular 3 size (whole 120))

/-- A star of five points: five sides, each turned 144 degrees from the one before. -/
def star (size : α) : Outline α := ofPattern (.regular 5 size (whole 144))

/-- A triangle of three given sides; each turn is the outer angle between two sides. -/
def triangle (a b c : α) : Outline α :=
  let angles := Angles.ofSides a b c
  ofPattern (.threeSided #v[a, b, c]
    #v[whole 180 - angles.c, whole 180 - angles.a, whole 180 - angles.b])

end Outline

/-- A circle is no outline: the canvas draws it whole. -/
structure Circle (α : Type) where
  radius : α
  deriving DecidableEq

/-! ## Taking steps -/

namespace Outline

variable {α : Type}

theorem length_steps (o : Outline α) : o.steps.length = o.remaining := by
  simp [steps]

theorem steps_of_next? {o o' : Outline α} {s : Step α} (h : o.next? = some (s, o')) :
    o.steps = s :: o'.steps := by
  simp only [next?] at h
  split at h
  · rename_i lt
    simp only [Option.some.injEq, Prod.mk.injEq] at h
    obtain ⟨rfl, rfl⟩ := h
    apply List.ext_getElem
    · simp only [length_steps, List.length_cons, remaining]; omega
    · intro i h₁ h₂
      cases i with
      | zero => simp [steps]
      | succ i => simp [steps, Nat.add_comm, Nat.add_left_comm]
  · simp at h

end Outline

end TurtleGraphics
