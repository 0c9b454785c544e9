/-!
# Keywords

The words that commands begin with: the one each command is written by, and the other words that
are understood, common short forms and misspellings.
-/

set_option autoImplicit false

namespace TurtleGraphics

/-- One for every command. -/
inductive Keyword where
  | penUp
  | penDown
  | left
  | right
  | move
  | reverse
  | black
  | green
  | red
  | white
  | blue
  | yellow
  | penColour
  | penWidth
  | reset
  | clear
  | about
  | square
  | triangle
  | star
  | hexagon
  | circle
  | save
  | load
  deriving DecidableEq

namespace Keyword

def all : List Keyword :=
  [penUp, penDown, left, right, move, reverse, black, green, red, white, blue, yellow, penColour,
    penWidth, reset, clear, about, square, triangle, star, hexagon, circle, save, load]

/-- The word that a command is written by. -/
def word : Keyword → String
  | penUp => "penup"
  | penDown => "pendown"
  | left => "left"
  | right => "right"
  | move => "move"
  | reverse => "reverse"
  | black => "black"
  | green => "green"
  | red => "red"
  | white => "white"
  | blue => "blue"
  | yellow => "yellow"
  | penColour => "pencolour"
  | penWidth => "penwidth"
  | reset => "reset"
  | clear => "clear"
  | about => "about"
  | square => "square"
  | triangle => "triangle"
  | star => "star"
  | hexagon => "hexagon"
  | circle => "circle"
  | save => "save"
  | load => "load"

/-- The command written by a lowercase word. -/
def ofWord? (w : String) : Option Keyword := all.find? (·.word == w)

/-- Other words, with the command that each stands for. -/
def aliases : List (String × Keyword) :=
  [("fwd", move), ("forward", move), ("fd", move), ("mvoe", move), ("back", reverse),
    ("backward", reverse), ("bk", reverse), ("lt", left), ("rt", right), ("pu", penUp),
    ("pd", penDown), ("pencolor", penColour), ("colour", penColour), ("color", penColour),
    ("width", penWidth), ("pensize", penWidth), ("tri", triangle), ("traingle", triangle),
    ("trinagle", triangle), ("sqaure", square), ("sqare", square), ("hex", hexagon),
    ("cls", clear), ("help", about)]

/-- The command that an alias stands for. -/
def ofAlias? (w : String) : Option Keyword := aliases.lookup w

/-! ## Every command has one word -/

theorem mem_all (n : Keyword) : n ∈ all := by cases n <;> decide

theorem ofWord?_word (n : Keyword) : ofWord? n.word = some n := by cases n <;> decide

end Keyword

end TurtleGraphics
