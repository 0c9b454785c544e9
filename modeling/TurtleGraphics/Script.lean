import TurtleGraphics.Text.Blank

/-!
# Scripts

A script is a text file with one command line per line. Reading trims the lines and drops the
blank ones; writing does the same and ends every line with a line feed.
-/

set_option autoImplicit false

namespace TurtleGraphics

structure Script where
  lines : List String
  deriving DecidableEq

namespace Script

/-- The trimmed texts of the non-blank lines among some lines. -/
def trimmed (lines : List (List Char)) : List String :=
  (lines.map fun cs => String.ofList (Text.trimBoth cs)).filter (· ≠ "")

/-- The script in a text. -/
def ofText (text : String) : Script := ⟨trimmed (Text.pieces (· = '\n') text.toList)⟩

/-- The script in a file's bytes; `none` if they are not UTF-8. -/
def decode? (bytes : ByteArray) : Option Script := (String.fromUTF8? bytes).map ofText

/-- The text of a script with the given lines. -/
def textOf (lines : List String) : String :=
  String.join ((trimmed (lines.map String.toList)).map (· ++ "\n"))

def encode (lines : List String) : ByteArray := (textOf lines).toUTF8

end Script

end TurtleGraphics
