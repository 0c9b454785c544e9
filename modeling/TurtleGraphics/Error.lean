import TurtleGraphics.Colour
import TurtleGraphics.Command.Keyword
import TurtleGraphics.Decimal.Fixed
import TurtleGraphics.Decimal.Shortest
import TurtleGraphics.FileSystem
import TurtleGraphics.Geometry.Point

/-!
# Errors

Why a line is rejected, as causes, and the one text that each is reported by.
-/

set_option autoImplicit false

namespace TurtleGraphics

/-- How many parameters a command takes. -/
inductive Arity where
  | none
  | one
  | threeListed
  deriving DecidableEq

def Arity.text : Arity → String
  | none => "no parameters"
  | one => "one parameter"
  | threeListed => "three comma-separated values"

inductive Error where
  | unknownWord (word : String)
  | notANumber (command : Keyword) (value : String)
  | notPositive (command : Keyword) (value : String)
  | wrongArity (command : Keyword) (expected : Arity) (found : Nat)
  | outOfRange (command : Keyword) (value : String)
  | badChannel (bad : BadChannel)
  | noTriangle (a b c : Float)
  | noFileKind (command : Keyword) (found : String)
  | leavesCanvas (point : Point Float)
  | noPicture
  | unreadable (path : Path) (fault : Fault)
  | unwritable (path : Path) (fault : Fault)
  | nestedLoad (line : String)
  deriving DecidableEq

namespace Error

def invalidParameter (command : Keyword) : String :=
  s!"Invalid parameter for '{command.word}'. "

def message : Error → String
  | unknownWord word => s!"Unknown command '{word}'. Type 'about' for help."
  | notANumber command value =>
    invalidParameter command ++ s!"Expected a number, but got '{value}'."
  | notPositive command value =>
    invalidParameter command ++ s!"Value must be positive, but got '{value}'."
  | wrongArity command expected found =>
    s!"Wrong number of parameters for '{command.word}'. " ++
      s!"Expected {expected.text}, but got {found}."
  | outOfRange command value => invalidParameter command ++ s!"Value '{value}' is out of range."
  | badChannel bad =>
    s!"Colour channel {bad.channel.letter} must be between 0 and 255, but got " ++
      s!"{bad.value.toInt}."
  | noTriangle a b c =>
    s!"Sides {Decimal.shortest a}, {Decimal.shortest b}, {Decimal.shortest c} " ++
      "violate the triangle inequality."
  | noFileKind command found =>
    s!"Invalid argument for '{command.word}'. Use 'commands' or 'image', but got '{found}'."
  | leavesCanvas point =>
    s!"Move would leave the canvas at ({Decimal.fixed 1 point.x}, {Decimal.fixed 1 point.y})."
  | noPicture => "The canvas cannot export an image."
  | unreadable path fault => s!"Could not read '{path.text}': {fault.message}"
  | unwritable path fault => s!"Could not write '{path.text}': {fault.message}"
  | nestedLoad line => s!"Skipped nested '{line}' while loading a script."

end Error

end TurtleGraphics
