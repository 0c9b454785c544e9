import TurtleGraphics.Proofs.Drawing.Inside
import TurtleGraphics.Proofs.Scalar.Wrapping

/-!
# Drawing outlines

The vertices of an outline are the points that its forward steps lead to (`Turtle.vertices`). They
decide everything: a run is refused at the first of them that is outside the fence
(`follow_refused_eq`), and a run with the pen down that is not refused draws the segments from one
to the next (`follow_drawn`). Steps leave the pen alone, and the turtle is put back with the heading
that it had, which wrapping does not change again (`outlined_eq`).
-/

set_option autoImplicit false

namespace TurtleGraphics

open Scalar

/-- The step draws if the pen is down. -/
def Step.isForward {α : Type} : Step α → Bool
  | forward _ => true
  | turn _ => false

/-- The segments from a point to the first of some others, and from each of them to the next. -/
def chain {α : Type} (colour : Colour) (width : UInt32) (start : Point α) :
    List (Point α) → List (Segment α)
  | [] => []
  | p :: rest => ⟨start, p, colour, width⟩ :: chain colour width p rest

@[simp] theorem length_chain {α : Type} (colour : Colour) (width : UInt32) (start : Point α)
    (points : List (Point α)) : (chain colour width start points).length = points.length := by
  induction points generalizing start with
  | nil => rfl
  | cons p rest ih => simp [chain, ih]

/-! ## Vertices -/

namespace Turtle

section
variable {α : Type} [Scalar α]

/-- The points that the forward steps lead to, in order. -/
def vertices (t : Turtle α) : List (Step α) → List (Point α)
  | [] => []
  | .forward distance :: rest =>
    t.ahead distance :: vertices { t with position := t.ahead distance } rest
  | .turn degrees :: rest => vertices (t.turn degrees) rest

theorem length_vertices (t : Turtle α) (steps : List (Step α)) :
    (t.vertices steps).length = steps.countP Step.isForward := by
  induction steps generalizing t with
  | nil => rfl
  | cons s rest ih => cases s <;> simp [vertices, Step.isForward, List.countP_cons, ih]

/-- Vertices depend on position and heading alone. -/
theorem vertices_samePlace {t t' : Turtle α} (h : SamePlace t t') (steps : List (Step α)) :
    t.vertices steps = t'.vertices steps := by
  induction steps generalizing t t' with
  | nil => rfl
  | cons s rest ih =>
    cases s with
    | forward distance =>
      simp only [vertices, h.ahead distance]
      exact congrArg _ (ih ⟨rfl, h.heading⟩)
    | turn degrees => exact ih ⟨h.position, by simp only [turn, h.heading]⟩

/-! ## Following -/

/-- The first vertex outside the fence is the one refused. -/
theorem follow_refused_eq (t : Turtle α) (fence : Option (Bounds α)) (steps : List (Step α)) :
    (t.follow fence steps).2.2 = (t.vertices steps).find? fun v => ¬ Within fence v := by
  induction steps generalizing t with
  | nil => rfl
  | cons s rest ih =>
    cases s with
    | forward distance =>
      by_cases hw : Within fence (t.ahead distance)
      · simp [follow, step, forward, vertices, hw, ih]
      · simp [follow, step, forward, vertices, hw]
    | turn degrees => simp [follow, step, vertices, ih]

/-- With the pen down, steps that are not refused draw from vertex to vertex. -/
theorem follow_drawn {t : Turtle α} (hp : t.penDown = true) {fence : Option (Bounds α)}
    {steps : List (Step α)} (h : (t.follow fence steps).2.2 = none) :
    (t.follow fence steps).2.1 = chain t.colour t.width t.position (t.vertices steps) := by
  induction steps generalizing t with
  | nil => rfl
  | cons s rest ih =>
    cases s with
    | forward distance =>
      by_cases hw : Within fence (t.ahead distance)
      · simp only [follow, step, forward, if_pos hw] at h ⊢
        rw [ih (t := { t with position := t.ahead distance }) hp h, if_pos hp]
        rfl
      · simp [follow, step, forward, hw] at h
    | turn degrees => exact ih hp h

/-- Steps leave the pen alone. -/
theorem follow_pen (t : Turtle α) (fence : Option (Bounds α)) (steps : List (Step α)) :
    ∃ position heading, (t.follow fence steps).1 = { t with position, heading } := by
  induction steps generalizing t with
  | nil => exact ⟨t.position, t.heading, rfl⟩
  | cons s rest ih =>
    cases s with
    | forward distance =>
      by_cases hw : Within fence (t.ahead distance)
      · obtain ⟨p, h, he⟩ := ih { t with position := t.ahead distance }
        exact ⟨p, h, by simp only [follow, step, forward, if_pos hw, he]⟩
      · exact ⟨t.position, t.heading, by simp only [follow, step, forward, if_neg hw]⟩
    | turn degrees =>
      obtain ⟨p, h, he⟩ := ih (t.turn degrees)
      exact ⟨p, h, he⟩

end

end Turtle

/-! ## Steps of a pattern -/

section
variable {α : Type}

/-- A forward step for every side, and the turn behind it. -/
def sideSteps (sides : List (α × α)) : List (Step α) :=
  sides.flatMap fun side => [.forward side.1, .turn side.2]

theorem sideSteps_cons (length turn : α) (rest : List (α × α)) :
    sideSteps ((length, turn) :: rest) = .forward length :: .turn turn :: sideSteps rest := rfl

theorem countP_sideSteps (sides : List (α × α)) :
    (sideSteps sides).countP Step.isForward = sides.length := by
  induction sides with
  | nil => rfl
  | cons side rest ih =>
    rw [sideSteps_cons, List.countP_cons, List.countP_cons, ih]
    rfl

/-- The sides of a pattern, each with the turn behind it. -/
def Pattern.turnedSides (p : Pattern α) : List (α × α) :=
  List.ofFn fun i : Fin p.sides => (p.sideAt i i.isLt, p.turnAt i i.isLt)

theorem Pattern.length_turnedSides (p : Pattern α) : p.turnedSides.length = p.sides :=
  List.length_ofFn

theorem Pattern.drop_turnedSides (p : Pattern α) {j : Nat} (hj : j < p.sides) :
    p.turnedSides.drop j = (p.sideAt j hj, p.turnAt j hj) :: p.turnedSides.drop (j + 1) := by
  rw [List.drop_eq_getElem_cons (i := j) (by rwa [length_turnedSides])]
  simp only [turnedSides, List.getElem_ofFn]

theorem Pattern.turnedSides_regular (n : Nat) (side turn : α) :
    (Pattern.regular n side turn).turnedSides = List.replicate n (side, turn) :=
  List.ofFn_const n (side, turn)

theorem Pattern.turnedSides_threeSided (sides turns : Vector α 3) :
    (Pattern.threeSided sides turns).turnedSides =
      [(sides[0], turns[0]), (sides[1], turns[1]), (sides[2], turns[2])] := rfl

namespace Outline

/-- Steps that are left from a side on. -/
theorem steps_eq_drop (o : Outline α) {j k : Nat} (ht : o.taken = 2 * j)
    (hk : o.pattern.sides = j + k) : o.steps = sideSteps (o.pattern.turnedSides.drop j) := by
  induction k generalizing o j with
  | zero =>
    have hnil : o.steps = [] := by
      rw [← List.length_eq_zero_iff, length_steps, remaining, Pattern.total]
      omega
    rw [hnil, List.drop_eq_nil_of_le (by rw [Pattern.length_turnedSides]; omega)]
    rfl
  | succ k ih =>
    obtain ⟨p, taken⟩ := o
    obtain rfl : taken = 2 * j := ht
    have h1 : 2 * j < p.total := by rw [Pattern.total]; dsimp only at hk; omega
    have h2 : 2 * j + 1 < p.total := by rw [Pattern.total]; dsimp only at hk; omega
    have hj : j < p.sides := by dsimp only at hk; omega
    have hforward : p.stepAt (2 * j) h1 = .forward (p.sideAt j hj) := by
      simp [Pattern.stepAt]
    have hturn : p.stepAt (2 * j + 1) h2 = .turn (p.turnAt j hj) := by
      have hhalf : (2 * j + 1) / 2 = j := by omega
      simp [Pattern.stepAt, Nat.add_mod, hhalf]
    have hnext : (⟨p, 2 * j⟩ : Outline α).next? = some (p.stepAt (2 * j) h1, ⟨p, 2 * j + 1⟩) :=
      dif_pos h1
    have hnext' : (⟨p, 2 * j + 1⟩ : Outline α).next? =
        some (p.stepAt (2 * j + 1) h2, ⟨p, 2 * j + 2⟩) := dif_pos h2
    have hrest := ih ⟨p, 2 * j + 2⟩ (j := j + 1) (by dsimp only; omega)
      (by dsimp only at hk ⊢; omega)
    rw [steps_of_next? hnext, steps_of_next? hnext', hrest, hforward, hturn,
      p.drop_turnedSides hj]
    rfl

theorem steps_ofPattern (p : Pattern α) : (ofPattern p).steps = sideSteps p.turnedSides :=
  steps_eq_drop (ofPattern p) (j := 0) rfl (Nat.zero_add _).symm

/-- A pattern has one forward step for every side. -/
theorem countP_steps_ofPattern (p : Pattern α) :
    (ofPattern p).steps.countP Step.isForward = p.sides := by
  rw [steps_ofPattern, countP_sideSteps, Pattern.length_turnedSides]

end Outline

end

/-! ## Drawings -/

namespace Drawing

variable {config : Config} {d : Drawing}

/-- The drawing with an outline drawn whole: the pen is down, and the canvas shows the segments
along the vertices. -/
def withOutline (outline : Outline Float) (d : Drawing) : Drawing :=
  let t := d.turtle
  ⟨{ t with penDown := true },
    d.canvas.drawSegments (chain t.colour t.width t.position (t.vertices outline.steps))⟩

/-- A dry run stops at the first vertex outside the canvas. -/
theorem outlineExit_eq (config : Config) (outline : Outline Float) (d : Drawing) :
    d.outlineExit config outline = match config.edgeRule with
      | .refuse => (d.turtle.vertices outline.steps).find? fun v => ¬ d.canvas.bounds.Contains v
      | .ignore => none := by
  unfold outlineExit Config.fence
  cases config.edgeRule with
  | refuse => simp [Turtle.follow_refused_eq, Turtle.within_some_iff]
  | ignore => rfl

/-- An outline is drawn along its vertices, and the turtle is put back. -/
theorem outlined_eq {outline : Outline Float} (hh : wrapDegrees d.turtle.heading = d.turtle.heading)
    (hx : d.outlineExit config outline = none) :
    d.outlined config outline = d.withOutline outline := by
  have hr := follow_refused config outline d
  rw [hx] at hr
  obtain ⟨position, heading, hpen⟩ := Turtle.follow_pen { d.turtle with penDown := true }
    (config.fence d.canvas.bounds) outline.steps
  have hplace : Turtle.SamePlace { d.turtle with penDown := true } d.turtle := ⟨rfl, rfl⟩
  have hvertices := Turtle.vertices_samePlace hplace outline.steps
  simp only [outlined, withOutline, hpen, Turtle.follow_drawn rfl hr, hvertices, Turtle.placeAt, hh]

theorem drawOutline_cases (config : Config) (outline : Outline Float)
    (hh : wrapDegrees d.turtle.heading = d.turtle.heading) :
    d.drawOutline config outline = match d.outlineExit config outline with
      | some p => (.error (.leavesCanvas p), d)
      | none => (.ok (), d.withOutline outline) := by
  rw [drawOutline_eq]
  cases hx : d.outlineExit config outline with
  | some p => rfl
  | none => simp only [outlined_eq hh hx]

theorem drawOutline_ok {outline : Outline Float}
    (hh : wrapDegrees d.turtle.heading = d.turtle.heading)
    (h : (d.drawOutline config outline).1 = .ok ()) :
    (d.drawOutline config outline).2 = d.withOutline outline := by
  rw [drawOutline_cases config outline hh] at h ⊢
  cases hx : d.outlineExit config outline with
  | some p => simp [hx] at h
  | none => rfl

/-- Under the rule that refuses to leave the canvas, an outline is refused at its first vertex
outside, or all its vertices are inside and it is drawn. -/
theorem drawOutline_refuse (hc : config.edgeRule = .refuse) (outline : Outline Float)
    (hh : wrapDegrees d.turtle.heading = d.turtle.heading) :
    let vertices := d.turtle.vertices outline.steps
    (∃ v, (vertices.find? fun v => ¬ d.canvas.bounds.Contains v) = some v ∧
      (∃ v ∈ vertices, ¬ d.canvas.bounds.Contains v) ∧
      d.drawOutline config outline = (.error (.leavesCanvas v), d)) ∨
    (vertices.find? fun v => ¬ d.canvas.bounds.Contains v) = none ∧
      (∀ v ∈ vertices, d.canvas.bounds.Contains v) ∧
      d.drawOutline config outline = (.ok (), d.withOutline outline) := by
  intro vertices
  rw [drawOutline_cases config outline hh, outlineExit_eq, hc]
  cases hx : vertices.find? fun v => ¬ d.canvas.bounds.Contains v with
  | some v =>
    have hv : ¬ d.canvas.bounds.Contains v := by simpa using List.find?_some hx
    exact .inl ⟨v, rfl, ⟨v, List.mem_of_find?_eq_some hx, hv⟩, rfl⟩
  | none =>
    refine .inr ⟨rfl, fun v hv => ?_, rfl⟩
    simpa using List.find?_eq_none.1 hx v hv

theorem drawOutline_ignore (hc : config.edgeRule = .ignore) (outline : Outline Float)
    (hh : wrapDegrees d.turtle.heading = d.turtle.heading) :
    d.drawOutline config outline = (.ok (), d.withOutline outline) := by
  rw [drawOutline_cases config outline hh, outlineExit_eq, hc]

end Drawing

/-! ## Actions -/

namespace Action

/-- The outline that an action draws, if it draws one. -/
def outline? : Action → Option (Outline Float)
  | square n => some (.square (scalarOf n))
  | triangle (.equilateral n) => some (.equilateralTriangle (scalarOf n))
  | triangle (.sides a b c) => some (.triangle a b c)
  | star n => some (.star (scalarOf n))
  | hexagon n => some (.hexagon (scalarOf n))
  | _ => none

theorem apply_outline {a : Action} {outline : Outline Float} (h : a.outline? = some outline)
    (config : Config) (d : Drawing) : a.apply config d = d.drawOutline config outline := by
  unfold outline? at h
  split at h <;> cases h <;> rfl

end Action

/-! ## All or nothing -/

namespace Drawing

/-- From a wrapped heading an outline is drawn whole or not at all. Where the canvas must not be
left, it is drawn exactly if all its vertices are inside; otherwise it is refused at the first
that is not, and nothing changes. A drawn outline adds one segment for every forward step, from
vertex to vertex in the turtle's colour and width, puts the pen down and leaves the turtle where
it was. The drawing run is not refused after a dry run that is not. -/
theorem drawOutline_exact (config : Config) (p : Pattern Float) {d : Drawing} {x : Float}
    (h : d.turtle.heading = wrapDegrees x) :
    let outline := Outline.ofPattern p
    let t := d.turtle
    let vertices := t.vertices outline.steps
    let segments := chain t.colour t.width t.position vertices
    let drawn : Drawing := ⟨{ t with penDown := true },
      { d.canvas with marks := d.canvas.marks ++ segments.map .segment }⟩
    let result := d.drawOutline config outline
    (config.edgeRule = .refuse →
      (result.1 = .ok () ↔ ∀ v ∈ vertices, d.canvas.bounds.Contains v) ∧
      ∀ v, (vertices.find? fun v => ¬ d.canvas.bounds.Contains v) = some v →
        result = (.error (.leavesCanvas v), d)) ∧
    (config.edgeRule = .ignore → result.1 = .ok ()) ∧
    (result.1 = .ok () → result.2 = drawn) ∧
    segments.length = outline.steps.countP Step.isForward ∧ segments.length = p.sides ∧
    (d.outlineExit config outline = none →
      (Turtle.follow { t with penDown := true } (config.fence d.canvas.bounds)
        outline.steps).2.2 = none) ∧
    ∀ a : Action, a.outline? = some outline →
      a.execute config d = (result.1.map fun _ => a.message, result.2) := by
  intro outline t vertices segments drawn result
  have hh : wrapDegrees d.turtle.heading = d.turtle.heading := by rw [h, wrapDegrees_idem]
  have hlength : segments.length = outline.steps.countP Step.isForward := by
    rw [length_chain, Turtle.length_vertices]
  refine ⟨fun hc => ?_, fun hc => ?_, fun hok => ?_, hlength, ?_, fun hx => ?_, fun a ha => ?_⟩
  · obtain ⟨v, hfind, ⟨w, hw, hout⟩, hresult⟩ | ⟨hfind, hin, hresult⟩ :=
      drawOutline_refuse hc outline hh
    · refine ⟨⟨fun hok => ?_, fun hall => absurd (hall w hw) hout⟩, fun v' hv' => ?_⟩
      · exact absurd (hok.symm.trans (congrArg Prod.fst hresult)) (by simp)
      · obtain rfl : v = v' := Option.some.inj (hfind.symm.trans hv')
        exact hresult
    · refine ⟨⟨fun _ => hin, fun _ => congrArg Prod.fst hresult⟩, fun v' hv' => ?_⟩
      exact absurd (hfind.symm.trans hv') (by simp)
  · exact congrArg Prod.fst (drawOutline_ignore hc outline hh)
  · exact drawOutline_ok hh hok
  · rw [hlength, Outline.countP_steps_ofPattern]
  · rw [follow_refused, hx]
  · rw [Action.execute_eq, Action.apply_outline ha]

theorem drawOutline_exact_square :
    let d : Drawing := .start .standard (.blank ⟨200, 200⟩)
    let config : Config := { Config.standard with edgeRule := .ignore }
    d.turtle.heading = wrapDegrees 270 ∧ ∃ drawn : List (Segment Float), drawn.length = 4 ∧
      (d.drawOutline config (.square 10)).2.canvas.marks = drawn.map .segment := by
  intro d config
  have hh : d.turtle.heading = wrapDegrees 270 := rfl
  obtain ⟨-, hignore, hok, -, hlength, -⟩ :=
    drawOutline_exact config (.regular 4 10 (whole 360 / whole 4)) hh
  have hdrawn := hok (hignore rfl)
  exact ⟨hh, _, hlength, congrArg (fun e : Drawing => e.canvas.marks) hdrawn⟩

end Drawing

end TurtleGraphics
