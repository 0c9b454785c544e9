import TurtleGraphics.Proofs.Drawing.Outlines
import TurtleGraphics.Proofs.Scalar.Zeros

/-!
# Outlines step by step

A call for the next step gives it, or none at the end, where the outline stays as it is
(`Outline.call`). After some calls an outline has taken as many steps, but no more than there are
(`Outline.after_eq`), so further calls give just those that are left (`Outline.call_after_eq`). The
steps are the sides of the shape and the turns behind them in alternation (`Pattern.call_after`).
The sum of the turns that are left is as if nothing were added for the sides between them
(`Pattern.totalTurn_after`), since no turn of a shape is the negative zero.
-/

set_option autoImplicit false

namespace TurtleGraphics

open Scalar

/-! ## Calls -/

namespace Outline

variable {α : Type}

/-- A call for the next step: the step, or none at the end, and the outline that is left. -/
def call (o : Outline α) : Option (Step α) × Outline α :=
  match o.next? with
  | some (s, o') => (some s, o')
  | none => (none, o)

/-- The outline after some calls. -/
def after (o : Outline α) : Nat → Outline α
  | 0 => o
  | k + 1 => (o.after k).call.2

theorem call_of_lt {o : Outline α} (h : o.taken < o.pattern.total) :
    o.call = (some (o.pattern.stepAt o.taken h), { o with taken := o.taken + 1 }) := by
  rw [call, next?, dif_pos h]

theorem call_of_le {o : Outline α} (h : o.pattern.total ≤ o.taken) : o.call = (none, o) := by
  rw [call, next?, dif_neg (Nat.not_lt.2 h)]

/-- Every call takes one step, up to the end. -/
theorem after_eq {o : Outline α} (h : o.taken ≤ o.pattern.total) (k : Nat) :
    o.after k = { o with taken := min (o.taken + k) o.pattern.total } := by
  induction k with
  | zero => rw [after, Nat.add_zero, Nat.min_eq_left h]
  | succ k ih =>
    rw [after, ih]
    rcases Nat.lt_or_ge (o.taken + k) o.pattern.total with hlt | hge
    · rw [call_of_lt (by dsimp only; omega)]
      exact congrArg (Outline.mk o.pattern) (by dsimp only; omega)
    · rw [call_of_le (by dsimp only; omega)]
      exact congrArg (Outline.mk o.pattern) (by omega)

/-- Calls give the steps that are left, one after the other. -/
theorem call_after_eq {o : Outline α} (h : o.taken ≤ o.pattern.total) (k : Nat) :
    (o.after k).call.1 = o.steps[k]? := by
  rw [after_eq h]
  rcases Nat.lt_or_ge (o.taken + k) o.pattern.total with hlt | hge
  · have hk : k < o.steps.length := by
      rw [length_steps, remaining]
      omega
    have hmin : min (o.taken + k) o.pattern.total = o.taken + k := Nat.min_eq_left hlt.le
    simp only [hmin]
    rw [call_of_lt hlt, List.getElem?_eq_getElem hk]
    simp [steps]
  · rw [call_of_le (by dsimp only; omega), List.getElem?_eq_none]
    rw [length_steps, remaining]
    omega

/-- As many calls as are left give a step. -/
theorem call_isSome_iff {o : Outline α} (h : o.taken ≤ o.pattern.total) (k : Nat) :
    (o.after k).call.1.isSome ↔ k < o.remaining := by
  rw [call_after_eq h, Option.isSome_iff_ne_none, Ne, List.getElem?_eq_none_iff, length_steps,
    Nat.not_le]

/-- At the end nothing changes any more. -/
theorem call_at_end {o : Outline α} (h : o.pattern.total ≤ o.taken) (k : Nat) :
    (o.after k).call = (none, o) := by
  induction k with
  | zero => exact call_of_le h
  | succ k ih => rw [after, ih]; exact call_of_le h

/-- What is left are all steps but those taken. -/
theorem steps_eq_drop_taken (o : Outline α) :
    o.steps = (ofPattern o.pattern).steps.drop o.taken := by
  apply List.ext_getElem
  · simp [length_steps, remaining, ofPattern]
  · intro i h₁ h₂
    simp [steps, ofPattern]

end Outline

/-- Even steps are sides, and odd ones are the turns behind them. -/
theorem getElem?_sideSteps {α : Type} (sides : List (α × α)) (k : Nat) :
    (sideSteps sides)[k]? =
      if k % 2 = 0 then sides[k / 2]?.map fun side => .forward side.1
      else sides[k / 2]?.map fun side => .turn side.2 := by
  induction sides generalizing k with
  | nil => simp [sideSteps]
  | cons side rest ih =>
    match k with
    | 0 | 1 => rfl
    | k + 2 =>
      have hrest : (sideSteps (side :: rest))[k + 2]? = (sideSteps rest)[k]? := rfl
      rw [hrest, ih, Nat.add_mod_right, Nat.add_div_right k two_pos]
      rfl

namespace Pattern

variable {α : Type}

theorem after_ofPattern (p : Pattern α) (k : Nat) :
    (Outline.ofPattern p).after k = ⟨p, min k p.total⟩ := by
  rw [Outline.after_eq (Nat.zero_le _)]
  simp [Outline.ofPattern]

theorem call_after (p : Pattern α) (k : Nat) :
    ((Outline.ofPattern p).after k).call.1 =
      if k % 2 = 0 then p.turnedSides[k / 2]?.map fun side => .forward side.1
      else p.turnedSides[k / 2]?.map fun side => .turn side.2 := by
  rw [Outline.call_after_eq (Nat.zero_le _), Outline.steps_ofPattern, getElem?_sideSteps]

theorem steps_after (p : Pattern α) (k : Nat) :
    ((Outline.ofPattern p).after k).steps = (sideSteps p.turnedSides).drop k := by
  rw [after_ofPattern, Outline.steps_eq_drop_taken, ← Outline.steps_ofPattern]
  have hlength : (Outline.ofPattern p).steps.length = p.total := Outline.length_steps _
  rcases Nat.le_total k p.total with hle | hge
  · rw [Nat.min_eq_left hle]
  · rw [Nat.min_eq_right hge, List.drop_eq_nil_of_le hlength.le,
      List.drop_eq_nil_of_le (hlength.trans_le hge)]

end Pattern

/-! ## Turns in all -/

theorem drop_sideSteps {α : Type} (sides : List (α × α)) (i : Nat) :
    (sideSteps sides).drop (2 * i) = sideSteps (sides.drop i) := by
  induction i generalizing sides with
  | zero => rfl
  | succ i ih =>
    cases sides with
    | nil => rfl
    | cons side rest => exact ih rest

/-- The sum of some numbers, from the first to the last; of none it is the negative zero. -/
def leftSum : List Float → Float
  | [] => -whole 0
  | x :: rest => rest.foldl (· + ·) x

/-- Once a sum has started, nothing is added for the sides. -/
theorem foldl_sideSteps {sum : Float} (hsum : ¬ MinusZero sum) (sides : List (Float × Float)) :
    ((sideSteps sides).map Step.degrees).foldl (· + ·) sum =
      (sides.map Prod.snd).foldl (· + ·) sum := by
  induction sides generalizing sum with
  | nil => rfl
  | cons side rest ih =>
    show ((sideSteps rest).map Step.degrees).foldl (· + ·) (sum + whole 0 + side.2) = _
    rw [add_whole_zero hsum]
    exact ih fun h => hsum h.of_add.1

/-- The sum may start with a turn. -/
theorem sum_turn_sideSteps {turn : Float} (ht : ¬ MinusZero turn) (rest : List (Float × Float)) :
    ((.turn turn :: sideSteps rest : List (Step Float)).map Step.degrees).foldl (· + ·) (-whole 0) =
      leftSum (turn :: rest.map Prod.snd) := by
  show ((sideSteps rest).map Step.degrees).foldl (· + ·) (-whole 0 + turn) = _
  rw [neg_whole_zero_add]
  exact foldl_sideSteps ht rest

/-- If it starts with a side, the zero for this side goes as soon as a turn is added. -/
theorem sum_sideSteps {sides : List (Float × Float)} (ht : ∀ side ∈ sides, ¬ MinusZero side.2) :
    ((sideSteps sides).map Step.degrees).foldl (· + ·) (-whole 0) =
      leftSum (sides.map Prod.snd) := by
  cases sides with
  | nil => rfl
  | cons side rest =>
    show ((sideSteps rest).map Step.degrees).foldl (· + ·) (-whole 0 + whole 0 + side.2) = _
    have hside := ht side (List.mem_cons_self ..)
    rw [neg_whole_zero_add, whole_zero_add hside]
    exact foldl_sideSteps hside rest

theorem Pattern.totalTurn_after {p : Pattern Float}
    (ht : ∀ side ∈ p.turnedSides, ¬ MinusZero side.2) (k : Nat) :
    ((Outline.ofPattern p).after k).totalTurn =
      leftSum ((p.turnedSides.drop (k / 2)).map Prod.snd) := by
  have hleft : ∀ side ∈ p.turnedSides.drop (k / 2), ¬ MinusZero side.2 :=
    fun side hm => ht side (List.mem_of_mem_drop hm)
  rw [Outline.totalTurn, steps_after]
  obtain ⟨i, rfl | rfl⟩ := Nat.even_or_odd' k
  · rw [drop_sideSteps, show 2 * i / 2 = i by omega] at *
    exact sum_sideSteps hleft
  · rw [show (2 * i + 1) / 2 = i by omega] at *
    rw [← List.drop_drop, drop_sideSteps]
    cases hd : p.turnedSides.drop i with
    | nil => rfl
    | cons side rest =>
      exact sum_turn_sideSteps (hleft side (by simp [hd])) rest

/-! ## Shapes -/

/-- The shapes that are drawn by outlines. -/
inductive Shape where
  | regularPolygon (sides : Nat) (side : Float)
  | square (size : Float)
  | hexagon (size : Float)
  | equilateralTriangle (size : Float)
  | star (size : Float)
  | triangle (a b c : Float)

namespace Shape

def outline : Shape → Outline Float
  | regularPolygon sides side => .regularPolygon sides side
  | square size => .square size
  | hexagon size => .hexagon size
  | equilateralTriangle size => .equilateralTriangle size
  | star size => .star size
  | triangle a b c => .triangle a b c

/-- The lengths of the sides, each with the turn behind it. -/
def sides : Shape → List (Float × Float)
  | regularPolygon n side => .replicate n (side, whole 360 / whole n)
  | square size => .replicate 4 (size, whole 360 / whole 4)
  | hexagon size => .replicate 6 (size, whole 360 / whole 6)
  | equilateralTriangle size => .replicate 3 (size, whole 120)
  | star size => .replicate 5 (size, whole 144)
  | triangle a b c =>
    let angles := Angles.ofSides a b c
    [(a, whole 180 - angles.c), (b, whole 180 - angles.a), (c, whole 180 - angles.b)]

theorem exists_pattern (s : Shape) :
    ∃ p : Pattern Float, s.outline = .ofPattern p ∧ p.turnedSides = s.sides := by
  cases s with
  | triangle a b c => exact ⟨_, rfl, Pattern.turnedSides_threeSided ..⟩
  | _ => exact ⟨_, rfl, Pattern.turnedSides_regular ..⟩

/-- A regular polygon of no sides has no turns, and with sides they are positive. The other turns of
constant size are positive too, and the turns of a triangle are differences from half a circle. -/
theorem not_minusZero_turn {s : Shape} (hs : 2 * s.sides.length < 2 ^ 64) :
    ∀ side ∈ s.sides, ¬ MinusZero side.2 := by
  have hregular : ∀ {n : Nat}, 0 < n → n < 2 ^ 64 → ¬ MinusZero (whole 360 / whole n) := by
    intro n h0 hn
    obtain ⟨hx, hx0⟩ := whole_pos (n := 360) (by norm_num) (by norm_num)
    obtain ⟨hy, hy0⟩ := whole_pos h0 hn
    exact not_minusZero_div hx hx0 hy hy0
  intro side hm
  cases s with
  | regularPolygon n length =>
    obtain ⟨hn, rfl⟩ := List.mem_replicate.1 hm
    simp only [sides, List.length_replicate] at hs
    exact hregular (Nat.pos_of_ne_zero hn) (by omega)
  | square size | hexagon size =>
    obtain ⟨-, rfl⟩ := List.mem_replicate.1 hm
    exact hregular (by norm_num) (by norm_num)
  | equilateralTriangle size | star size =>
    obtain ⟨-, rfl⟩ := List.mem_replicate.1 hm
    exact not_minusZero_whole (by norm_num) (by norm_num)
  | triangle a b c =>
    have hhalf : ¬ MinusZero (whole 180) := not_minusZero_whole (by norm_num) (by norm_num)
    simp only [sides, List.mem_cons, List.not_mem_nil, or_false] at hm
    obtain rfl | rfl | rfl := hm <;> exact fun h => hhalf h.of_sub

/-- There are twice as many steps as sides, and however many calls were made, no more have been
taken. Further calls give the steps that are left, as many as the outline says, and from the end on
no call gives one or changes the outline. The next step is that of the side it belongs to, and the
turns in all are the sum of the turns that are left. -/
theorem iteration {s : Shape} (hs : 2 * s.sides.length < 2 ^ 64) (k : Nat) :
    let o := s.outline.after k
    o.pattern.total = 2 * s.sides.length ∧
      o.taken = min k o.pattern.total ∧
      (∀ j, (o.after j).call.1 = o.steps[j]?) ∧
      (∀ j, (o.after j).call.1.isSome ↔ j < o.remaining) ∧
      (o.remaining = 0 → ∀ j, (o.after j).call = (none, o)) ∧
      (o.call.1 =
        if k % 2 = 0 then s.sides[k / 2]?.map fun side => .forward side.1
        else s.sides[k / 2]?.map fun side => .turn side.2) ∧
      o.totalTurn = leftSum ((s.sides.drop (k / 2)).map Prod.snd) := by
  intro o
  obtain ⟨p, hp, hsides⟩ := s.exists_pattern
  have ho : o = (Outline.ofPattern p).after k := congrArg (·.after k) hp
  have heq : o = ⟨p, min k p.total⟩ := ho.trans (p.after_ofPattern k)
  have hle : o.taken ≤ o.pattern.total := by
    rw [heq]
    exact Nat.min_le_right _ _
  have hturns := not_minusZero_turn hs
  rw [← hsides] at hturns ⊢
  refine ⟨?_, ?_, Outline.call_after_eq hle, Outline.call_isSome_iff hle,
    fun h => Outline.call_at_end ?_, ?_, ?_⟩
  · rw [heq, Pattern.length_turnedSides]
    rfl
  · rw [heq]
  · exact Nat.sub_eq_zero_iff_le.1 h
  · rw [ho, p.call_after]
  · rw [ho, Pattern.totalTurn_after hturns]

/-- A heptagon whose third side is behind. -/
theorem iteration_heptagon :
    let s : Shape := .regularPolygon 7 2.5
    let o := s.outline.after 5
    2 * s.sides.length < 2 ^ 64 ∧ o.remaining = 9 ∧
      o.call.1 = some (.turn (whole 360 / whole 7)) ∧
      o.totalTurn = leftSum (.replicate 5 (whole 360 / whole 7)) := by
  intro s o
  have hs : 2 * s.sides.length < 2 ^ 64 := by decide
  obtain ⟨htotal, htaken, -, -, -, hcall, hturn⟩ := iteration hs 5
  refine ⟨hs, ?_, hcall, hturn⟩
  rw [Outline.remaining, htaken, htotal]
  rfl

end Shape

end TurtleGraphics
