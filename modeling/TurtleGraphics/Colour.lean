/-!
# Colours

Pen colours as red, green and blue channels of one byte each.
-/

set_option autoImplicit false

namespace TurtleGraphics

structure Colour where
  red : UInt8
  green : UInt8
  blue : UInt8
  deriving DecidableEq

inductive Channel where
  | red
  | green
  | blue
  deriving DecidableEq

/-- The letter a channel is named by. -/
def Channel.letter : Channel → String
  | red => "R"
  | green => "G"
  | blue => "B"

/-- A channel whose value does not fit in a byte. -/
structure BadChannel where
  channel : Channel
  value : Int64
  deriving DecidableEq

namespace Colour

def black : Colour := ⟨0, 0, 0⟩
def white : Colour := ⟨255, 255, 255⟩
def pureRed : Colour := ⟨255, 0, 0⟩
def pureGreen : Colour := ⟨0, 255, 0⟩
def pureBlue : Colour := ⟨0, 0, 255⟩
def yellow : Colour := ⟨255, 255, 0⟩

/-- A channel's value as a byte, if it is one. -/
def byteOf (channel : Channel) (value : Int64) : Except BadChannel UInt8 :=
  if 0 ≤ value ∧ value ≤ 255 then .ok (UInt8.ofNat value.toInt.toNat)
  else .error ⟨channel, value⟩

/-- The colour of three channels; the first one out of range is reported. -/
def ofChannels (r g b : Int64) : Except BadChannel Colour := do
  let red ← byteOf .red r
  let green ← byteOf .green g
  let blue ← byteOf .blue b
  return ⟨red, green, blue⟩

end Colour

end TurtleGraphics
