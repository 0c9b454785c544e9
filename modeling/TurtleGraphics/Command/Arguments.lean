import TurtleGraphics.Command.Basic
import TurtleGraphics.Command.Line
import TurtleGraphics.Decimal.Reader
import TurtleGraphics.Geometry.Triangle
import TurtleGraphics.Scalar.Binary64

/-!
# Arguments

The one place where argument text is understood. `Command.ofLine` gives a command whose numbers
are in range, or the first thing that is wrong with the line.
-/

set_option autoImplicit false

namespace TurtleGraphics

namespace Arguments

/-- A command that takes no parameters. -/
def absent {α : Type} (name : Keyword) (args : Option String) (value : α) :
    Except Error α :=
  match args with
  | none => .ok value
  | some text => .error (.wrongArity name .none (Text.words text.toList).length)

/-- The text of the one parameter. -/
def single (name : Keyword) (args : Option String) : Except Error String :=
  match args with
  | some text =>
    let found := (Text.words text.toList).length
    if found = 1 then .ok text else .error (.wrongArity name .one found)
  | none => .error (.wrongArity name .one 0)

/-- A text as a whole number. -/
def readInteger (name : Keyword) (text : String) : Except Error Int64 :=
  let cs := Text.trimBoth text.toList
  match Text.readInt64? cs with
  | some n => .ok n
  | none => .error (.notANumber name (String.ofList cs))

def integer (name : Keyword) (args : Option String) : Except Error Int64 := do
  readInteger name (← single name args)

def positive (name : Keyword) (args : Option String) : Except Error Int64 := do
  let n ← integer name args
  if 0 < n then return n else .error (.notPositive name (toString n.toInt))

/-- A whole number whose negative is one too. -/
def negatable (name : Keyword) (args : Option String) : Except Error Int64 := do
  let n ← integer name args
  if n = Int64.minValue then .error (.outOfRange name (toString n.toInt)) else return n

def width (name : Keyword) (args : Option String) : Except Error UInt32 := do
  let n ← positive name args
  if n.toInt < UInt32.size then return UInt32.ofNat n.toInt.toNat
  else .error (.outOfRange name (toString n.toInt))

/-- The three entries of a comma list, without outer blanks. -/
def triple (name : Keyword) (args : Option String) :
    Except Error (String × String × String) :=
  let parts := match args with
    | some text => (Text.pieces (· = ',') text.toList).map fun p =>
        String.ofList (Text.trimBoth p)
    | none => []
  match parts with
  | [a, b, c] => .ok (a, b, c)
  | _ => .error (.wrongArity name .threeListed parts.length)

def colour (name : Keyword) (args : Option String) : Except Error Colour := do
  let (r, g, b) ← triple name args
  let red ← readInteger name r
  let green ← readInteger name g
  let blue ← readInteger name b
  (Colour.ofChannels red green blue).mapError .badChannel

/-- The length of a side: a finite number above zero. -/
def side (name : Keyword) (text : String) : Except Error Float :=
  match Decimal.read? text.toList with
  | some x =>
    if !x.isFinite then .error (.notANumber name text)
    else if x ≤ 0 then .error (.notPositive name text)
    else .ok x
  | none => .error (.notANumber name text)

/-- One size, or three sides if there is a comma. -/
def triangle (name : Keyword) (args : Option String) : Except Error TriangleSize := do
  if args.any fun text => text.toList.contains ',' then
    let (ta, tb, tc) ← triple name args
    let a ← side name ta
    let b ← side name tb
    let c ← side name tc
    if IsTriangle a b c then return .sides a b c else .error (.noTriangle a b c)
  else return .equilateral (← positive name args)

def kindOfWord? (word : List Char) : Option FileKind :=
  match Text.lower (String.ofList word) with
  | "commands" => some .script
  | "image" => some .image
  | _ => none

/-- What to save or load, and the path if one is given. -/
def file (name : Keyword) (args : Option String) : Except Error (FileKind × Option Path) :=
  let (word, behind) := Text.splitFirst (args.getD "").toList
  match args.bind fun _ => kindOfWord? word with
  | none => .error (.noFileKind name (String.ofList word))
  | some kind =>
    let path := Text.trimBoth behind
    .ok (kind, if path.isEmpty then none else some ⟨String.ofList path⟩)

end Arguments

namespace Command

/-- The command that a line gives. -/
def ofLine (l : Line) : Except Error Command :=
  let name := l.keyword
  let args := l.arguments
  match name with
  | .save => return (fun (kind, path) => .save kind path) (← Arguments.file name args)
  | .load => return (fun (kind, path) => .load kind path) (← Arguments.file name args)
  | .penUp => return .act (← Arguments.absent name args .penUp)
  | .penDown => return .act (← Arguments.absent name args .penDown)
  | .left => return .act (.turn (-(← Arguments.negatable name args)))
  | .right => return .act (.turn (← Arguments.integer name args))
  | .move => return .act (.move (← Arguments.positive name args))
  | .reverse => return .act (.move (-(← Arguments.positive name args)))
  | .black => return .act (← Arguments.absent name args (.colour .black))
  | .green => return .act (← Arguments.absent name args (.colour .pureGreen))
  | .red => return .act (← Arguments.absent name args (.colour .pureRed))
  | .white => return .act (← Arguments.absent name args (.colour .white))
  | .blue => return .act (← Arguments.absent name args (.colour .pureBlue))
  | .yellow => return .act (← Arguments.absent name args (.colour .yellow))
  | .penColour => return .act (.colour (← Arguments.colour name args))
  | .penWidth => return .act (.penWidth (← Arguments.width name args))
  | .reset => return .act (← Arguments.absent name args .reset)
  | .clear => return .act (← Arguments.absent name args .clear)
  | .about => return .act (← Arguments.absent name args .about)
  | .square => return .act (.square (← Arguments.positive name args))
  | .triangle => return .act (.triangle (← Arguments.triangle name args))
  | .star => return .act (.star (← Arguments.positive name args))
  | .hexagon => return .act (.hexagon (← Arguments.positive name args))
  | .circle => return .act (.circle (← Arguments.positive name args))

/-- The command that a text gives; a blank one gives none. -/
def ofText (text : String) : Except Error (Option Command) :=
  match Line.read text with
  | .error e => .error e
  | .ok none => .ok none
  | .ok (some line) => (ofLine line).map some

end Command

end TurtleGraphics
