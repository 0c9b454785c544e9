import TurtleGraphics.Path

/-!
# Dialogue

The user of a session: what is shown to them, what they are asked, and their wish to stop a
replay. A user is any state and any reactions to it, so all that is known of an answer is that
it was given.
-/

set_option autoImplicit false

namespace TurtleGraphics

/-- The answer to the question about unsaved changes. -/
inductive Decision where
  | discard
  /-- Go on only if the commands can be saved first. -/
  | saveFirst
  | cancel
  deriving DecidableEq

/-- A user with states `σ`. Any reaction may raise the wish to stop, and the user may raise it
again the moment it is cleared. -/
structure Dialogue (σ : Type) where
  tell : String → σ → σ
  /-- Asked before unsaved changes are dropped. -/
  askUnsaved : String → σ → Decision × σ
  /-- Takes the number of the current line of a replay and the count of its lines. -/
  showProgress : Nat → Nat → σ → σ
  /-- Asked before a file is replaced. -/
  askReplace : Path → σ → Bool × σ := fun _ s => (true, s)
  /-- Where to save before going on; the path is a suggestion. -/
  askSavePath : Path → σ → Option Path × σ := fun p s => (some p, s)
  stopRequested : σ → Bool
  clearStop : σ → σ

end TurtleGraphics
