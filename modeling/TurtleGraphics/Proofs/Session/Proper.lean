import TurtleGraphics.Proofs.Drawing.Proper
import TurtleGraphics.Proofs.Session.Loading
import TurtleGraphics.Proofs.Session.Trace

/-!
# Runs with a proper turtle

If the configured heading is finite, the turtle of a session is proper after every line
(`course_proper`): each deed takes it from an action, starts it over or leaves it alone. Nor does it
matter that the canvas is given another size between two lines.
-/

set_option autoImplicit false

namespace TurtleGraphics

open Scalar Binary64

/-- An event, or a new size of the canvas between two lines. -/
inductive Occurrence (σ : Type) where
  | event (e : Event σ)
  | resize (bounds : Bounds Float)

namespace Session

variable {σ : Type} {config : Config}

def undergo (ui : Dialogue σ) (s : Session σ) : Occurrence σ → Session σ
  | .event e => s.meet ui e
  | .resize bounds => { s with drawing.canvas.bounds := bounds }

/-- The session after some occurrences. -/
def course (ui : Dialogue σ) (occurrences : List (Occurrence σ)) (s : Session σ) : Session σ :=
  occurrences.foldl (undergo ui) s

/-- A session that starts its turtles with a finite heading, and has a proper one. -/
structure KeepsProper (s : Session σ) : Prop where
  configured : s.config.heading.isFinite
  turtle : s.drawing.turtle.Proper

namespace KeepsProper

theorem change {d : Deed} {s t : Session σ} (h : Change d s t) (hs : KeepsProper s) :
    KeepsProper t := by
  obtain ⟨hc, ht⟩ := hs
  cases h with
  | talk user => exact ⟨hc, ht⟩
  | save _ hw => exact ⟨hc, ht⟩
  | failedSave _ hw => exact ⟨hc, ht⟩
  | finishReplay completed => exact ⟨hc, ht⟩
  | aside files user render => exact ⟨hc, ht⟩
  | reset => exact ⟨hc, .start hc _⟩
  | background _ image => exact ⟨hc, .start hc _⟩
  | startReplay => exact ⟨hc, .start hc _⟩
  | @draw s line message a drawing hl hc' ha hx =>
    have hd := ht.execute hc a
    rw [hx] at hd
    exact ⟨hc, hd⟩

theorem undergo (ui : Dialogue σ) {s : Session σ} (hs : KeepsProper s) (h : Occurrence σ) :
    KeepsProper (s.undergo ui h) := by
  cases h with
  | resize bounds => exact ⟨hs.configured, hs.turtle⟩
  | event e => exact (live_leads ui [e] s).keeps (fun _ _ _ _ h hs => hs.change h) hs

theorem course (ui : Dialogue σ) {s : Session σ} (hs : KeepsProper s)
    (occurrences : List (Occurrence σ)) : KeepsProper (s.course ui occurrences) := by
  induction occurrences generalizing s with
  | nil => exact hs
  | cons h rest ih => exact ih (hs.undergo ui h)

end KeepsProper

/-- Whatever lines a session has taken, and however its canvas has been resized between them, the
heading of its turtle lies in `[0, 360)` and its pen has a width. Every finite angle is wrapped into
that range, and wrapping again changes nothing; so a turtle that is put back with the heading of
such a turtle has exactly that heading. -/
theorem course_proper (ui : Dialogue σ) (hc : config.heading.isFinite) (canvas : Canvas Float)
    (files : FileSystem) (user : σ) (occurrences : List (Occurrence σ)) :
    let t := ((start config canvas files user).course ui occurrences).drawing.turtle
    (0 ≤ t.heading ∧ t.heading < 360 ∧ 0 < t.width) ∧
      (∀ x : Float, x.isFinite → 0 ≤ wrapDegrees x ∧ wrapDegrees x < 360) ∧
      (∀ x : Float, wrapDegrees (wrapDegrees x) = wrapDegrees x) ∧
      ∀ (u : Turtle Float) (p : Point Float), (u.placeAt p t.heading).heading = t.heading := by
  intro t
  have hstart : KeepsProper (start config canvas files user) := ⟨hc, .start hc _⟩
  have ht : t.Proper := (hstart.course ui occurrences).turtle
  obtain ⟨hlo, hhi⟩ := ht.heading.range
  exact ⟨⟨hlo, hhi, ht.width⟩, fun x hx => (wrapDegrees_wrapped hx).range, wrapDegrees_idem,
    fun u p => ht.heading.wrapDegrees_eq⟩

theorem course_proper_sample :
    let t := ((start .standard (.blank ⟨200, 200⟩) .empty 0).course (stopsAfter 9)
      [.event (.line "left 45"), .resize ⟨20, 20⟩, .event (.line "star 90")]).drawing.turtle
    Config.standard.heading.isFinite ∧ 0 ≤ t.heading ∧ t.heading < 360 ∧ 0 < t.width := by
  intro t
  have hc : Config.standard.heading.isFinite := rfl
  exact ⟨hc, (course_proper (stopsAfter 9) hc (.blank ⟨200, 200⟩) .empty 0 _).1⟩

end Session

end TurtleGraphics
