import TurtleGraphics.Command.Line
import TurtleGraphics.Script

/-!
# Replay

Feeding the lines of a script one by one to something that carries them out. Lines that would
load another file are skipped with a notice, failing lines are counted, and a request to stop is
honoured before the next line.
-/

set_option autoImplicit false

namespace TurtleGraphics

/-- Where replayed lines go. Each action gives the next state. -/
structure ReplayTarget (σ : Type) where
  /-- Carries out a line; tells whether it was accepted. -/
  carryOut : String → σ → Bool × σ
  /-- Takes a notice about a skipped line. -/
  notify : String → σ → σ
  /-- Takes the number of the current line and the count of all lines. -/
  showProgress : Nat → Nat → σ → σ
  stopRequested : σ → Bool

/-- What became of the lines of a script. -/
structure Tally where
  total : Nat
  applied : Nat
  failed : Nat
  skipped : Nat
  cancelled : Bool
  deriving DecidableEq

namespace Tally

def start (total : Nat) : Tally := ⟨total, 0, 0, 0, false⟩

/-- The lines dealt with. -/
def processed (s : Tally) : Nat := s.applied + s.failed + s.skipped

end Tally

/-- What is said about a line that would load a file in the middle of a replay. -/
def skipNotice (line : String) : String := (Error.nestedLoad line).message

namespace ReplayTarget

variable {σ : Type}

/-- Deals with one line that is not preceded by a request to stop. -/
def feed (target : ReplayTarget σ) (line : String) (sum : Tally) (s : σ) : Tally × σ :=
  if Line.isLoad line then
    ({ sum with skipped := sum.skipped + 1 }, target.notify (skipNotice line) s)
  else
    match target.carryOut line s with
    | (true, s') => ({ sum with applied := sum.applied + 1 }, s')
    | (false, s') => ({ sum with failed := sum.failed + 1 }, s')

/-- Deals with the lines from number `i` on. -/
def feedAll (target : ReplayTarget σ) : List String → Nat → Tally → σ → Tally × σ
  | [], _, sum, s => (sum, s)
  | line :: rest, i, sum, s =>
    if target.stopRequested s then ({ sum with cancelled := true }, s)
    else
      let (sum', s') := target.feed line sum (target.showProgress i sum.total s)
      target.feedAll rest (i + 1) sum' s'

/-- Replays a script. -/
def replay (target : ReplayTarget σ) (script : Script) (s : σ) : Tally × σ :=
  target.feedAll script.lines 1 (.start script.lines.length) s

end ReplayTarget

end TurtleGraphics
