import TurtleGraphics.Command.Arguments
import TurtleGraphics.Proofs.Decimal.Reading

/-!
# The grammar of arguments

Which arguments a command takes (`Accepts`), and what is reported of those it does not take
(`Rejects`). Most commands take one whole number (`TakesNumber`), some a list of three parts
(`TakesList`); `save` and `load` take a kind of file and a path, the others nothing. Of several
faults the first one is reported: the number of tokens or parts comes before what they spell, that
before its range, and the parts of a list come one after the other.
-/

set_option autoImplicit false

namespace TurtleGraphics

open Text

/-- The number behind the word may have any sign. -/
def Keyword.signed : Keyword → Bool
  | left | right => true
  | _ => false

namespace Grammar

/-- The tokens of the arguments, between blanks. -/
def tokens (args : Option String) : List (List Char) :=
  args.elim [] fun text => (text.toList.splitOnP isBlank).filter (· ≠ [])

/-- The parts of the arguments, between commas and without outer blanks. -/
def parts (args : Option String) : List (List Char) :=
  args.elim [] fun text => (text.toList.splitOn ',').map trimBoth

def HasComma (args : Option String) : Prop := ∃ text, args = some text ∧ ',' ∈ text.toList

/-! ## One whole number -/

/-- The command takes one whole number. -/
def TakesNumber (name : Keyword) (args : Option String) : Prop :=
  match name with
  | .left | .right | .move | .reverse | .penWidth | .square | .star | .hexagon | .circle => True
  | .triangle => ¬ HasComma args
  | _ => False

/-- The action of a command carries its number, or the negative of it. -/
inductive Carries (n : Int) : Keyword → Action → Prop
  | left {v : Int64} (h : v.toInt = -n) : Carries n .left (.turn v)
  | right {v : Int64} (h : v.toInt = n) : Carries n .right (.turn v)
  | move {v : Int64} (h : v.toInt = n) : Carries n .move (.move v)
  | reverse {v : Int64} (h : v.toInt = -n) : Carries n .reverse (.move v)
  | penWidth {w : UInt32} (h : (w.toNat : Int) = n) : Carries n .penWidth (.penWidth w)
  | square {v : Int64} (h : v.toInt = n) : Carries n .square (.square v)
  | star {v : Int64} (h : v.toInt = n) : Carries n .star (.star v)
  | hexagon {v : Int64} (h : v.toInt = n) : Carries n .hexagon (.hexagon v)
  | circle {v : Int64} (h : v.toInt = n) : Carries n .circle (.circle v)
  | triangle {v : Int64} (h : v.toInt = n) : Carries n .triangle (.triangle (.equilateral v))

/-- What is wrong with a number that a command does not take. -/
inductive RejectsNumber (n : Int) : Keyword → Error → Prop
  | notPositive {name : Keyword} (hs : name.signed = false) (h : n ≤ 0) :
      RejectsNumber n name (.notPositive name (toString n))
  | noNegative (h : n = -9223372036854775808) :
      RejectsNumber n .left (.outOfRange .left (toString n))
  | tooWide (h : 4294967295 < n) : RejectsNumber n .penWidth (.outOfRange .penWidth (toString n))

/-! ## Lists -/

/-- The command takes a comma list. -/
def TakesList (name : Keyword) (args : Option String) : Prop :=
  name = .penColour ∨ name = .triangle ∧ HasComma args

/-- The part spells the length of a side: a finite number above zero. -/
structure IsSide (part : List Char) (x : Float) : Prop where
  spelled : Decimal.Spelled part x
  isFinite : x.isFinite
  pos : 0 < x

/-- What is wrong with a part that is no length of a side. -/
inductive RejectsSide (part : List Char) : Error → Prop
  | notANumber (h : ∀ x, Decimal.Spelled part x → ¬ x.isFinite) :
      RejectsSide part (.notANumber .triangle (String.ofList part))
  | notPositive {x : Float} (h : Decimal.Spelled part x) (hx : x.isFinite) (h0 : x ≤ 0) :
      RejectsSide part (.notPositive .triangle (String.ofList part))

/-- A channel's value is one of a byte. -/
def IsByte (v : Int64) : Prop := 0 ≤ v.toInt ∧ v.toInt ≤ 255

/-! ## Files -/

def kindWord : FileKind → String
  | .script => "commands"
  | .image => "image"

/-- The arguments start with a token, up to a blank or to their end. -/
structure StartsWith (text : String) (token behind : List Char) : Prop where
  append : text.toList = token ++ behind
  token : ∀ c ∈ token, isBlank c = false
  behind : ∀ c ∈ behind.head?, isBlank c

/-- The path that stands behind the kind of file, if one does. -/
def pathOf (behind : List Char) : Option Path :=
  if trimBoth behind = [] then none else some ⟨String.ofList (trimBoth behind)⟩

/-- The command of a kind of file and a path. -/
inductive OfFile (kind : FileKind) (path : Option Path) : Keyword → Command → Prop
  | save : OfFile kind path .save (.save kind path)
  | load : OfFile kind path .load (.load kind path)

/-! ## Lines -/

/-- The action of a command without parameters. -/
def bareAction? : Keyword → Option Action
  | .penUp => some .penUp
  | .penDown => some .penDown
  | .black => some (.colour .black)
  | .green => some (.colour .pureGreen)
  | .red => some (.colour .pureRed)
  | .white => some (.colour .white)
  | .blue => some (.colour .pureBlue)
  | .yellow => some (.colour .yellow)
  | .reset => some .reset
  | .clear => some .clear
  | .about => some .about
  | _ => none

/-- A command takes the arguments, and this is what it is with them. -/
inductive Accepts : Keyword → Option String → Command → Prop
  | bare {name : Keyword} {a : Action} (h : bareAction? name = some a) : Accepts name none (.act a)
  | number {name : Keyword} {args : Option String} {token : List Char} {v : Int64} {a : Action}
      (hn : TakesNumber name args) (ht : tokens args = [token]) (hv : Spells token v)
      (hp : name.signed = false → 0 < v.toInt) (ha : Carries v.toInt name a) :
      Accepts name args (.act a)
  | colour {args : Option String} {r g b : List Char} {red green blue : Int64} {c : Colour}
      (hp : parts args = [r, g, b]) (hr : Spells r red) (hg : Spells g green) (hb : Spells b blue)
      (hc : red.toInt = c.red.toNat ∧ green.toInt = c.green.toNat ∧ blue.toInt = c.blue.toNat) :
      Accepts .penColour args (.act (.colour c))
  | sides {args : Option String} {a b c : List Char} {x y z : Float} (hc : HasComma args)
      (hp : parts args = [a, b, c]) (hx : IsSide a x) (hy : IsSide b y) (hz : IsSide c z)
      (ht : IsTriangle x y z) : Accepts .triangle args (.act (.triangle (.sides x y z)))
  | file {name : Keyword} {text : String} {token behind : List Char} {kind : FileKind}
      {c : Command} (hs : StartsWith text token behind)
      (hk : lower (String.ofList token) = kindWord kind) (hc : OfFile kind (pathOf behind) name c) :
      Accepts name (some text) c

/-- A command does not take the arguments, and this is the first thing that is wrong with them. -/
inductive Rejects : Keyword → Option String → Error → Prop
  | spare {name : Keyword} {a : Action} {text : String} (h : bareAction? name = some a) :
      Rejects name (some text) (.wrongArity name .none (tokens (some text)).length)
  | tokenCount {name : Keyword} {args : Option String} (hn : TakesNumber name args)
      (ht : (tokens args).length ≠ 1) :
      Rejects name args (.wrongArity name .one (tokens args).length)
  | notANumber {name : Keyword} {args : Option String} {token : List Char}
      (hn : TakesNumber name args) (ht : tokens args = [token]) (hv : ∀ v, ¬ Spells token v) :
      Rejects name args (.notANumber name (String.ofList token))
  | number {name : Keyword} {args : Option String} {token : List Char} {v : Int64} {e : Error}
      (hn : TakesNumber name args) (ht : tokens args = [token]) (hv : Spells token v)
      (he : RejectsNumber v.toInt name e) : Rejects name args e
  | partCount {name : Keyword} {args : Option String} (hl : TakesList name args)
      (hp : (parts args).length ≠ 3) :
      Rejects name args (.wrongArity name .threeListed (parts args).length)
  | channelText {args : Option String} {front behind : List (List Char)} {part : List Char}
      (h3 : (parts args).length = 3) (hp : parts args = front ++ part :: behind)
      (hf : ∀ t ∈ front, ∃ v, Spells t v) (hv : ∀ v, ¬ Spells part v) :
      Rejects .penColour args (.notANumber .penColour (String.ofList part))
  | channel {args : Option String} {r g b : List Char} {red green blue : Int64}
      (hp : parts args = [r, g, b]) (hr : Spells r red) (hg : Spells g green) (hb : Spells b blue)
      {front behind : List BadChannel} {bad : BadChannel}
      (hc : [⟨.red, red⟩, ⟨.green, green⟩, ⟨.blue, blue⟩] = front ++ bad :: behind)
      (hf : ∀ c ∈ front, IsByte c.value) (hv : ¬ IsByte bad.value) :
      Rejects .penColour args (.badChannel bad)
  | side {args : Option String} {front behind : List (List Char)} {part : List Char} {e : Error}
      (hc : HasComma args) (h3 : (parts args).length = 3)
      (hp : parts args = front ++ part :: behind) (hf : ∀ t ∈ front, ∃ x, IsSide t x)
      (he : RejectsSide part e) : Rejects .triangle args e
  | noTriangle {args : Option String} {a b c : List Char} {x y z : Float} (hc : HasComma args)
      (hp : parts args = [a, b, c]) (hx : IsSide a x) (hy : IsSide b y) (hz : IsSide c z)
      (ht : ¬ IsTriangle x y z) : Rejects .triangle args (.noTriangle x y z)
  | noFile {name : Keyword} (hn : name = .save ∨ name = .load) :
      Rejects name none (.noFileKind name "")
  | noFileKind {name : Keyword} {text : String} {token behind : List Char}
      (hn : name = .save ∨ name = .load) (hs : StartsWith text token behind)
      (hk : ∀ kind, lower (String.ofList token) ≠ kindWord kind) :
      Rejects name (some text) (.noFileKind name (String.ofList token))

end Grammar

end TurtleGraphics
