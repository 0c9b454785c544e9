import TurtleGraphics.Error
import TurtleGraphics.Text.Lowercase

/-!
# Lines

A typed line is blank, or a command word and what is left of the line as its arguments. Only
the word is brought to lowercase. A word that is no command's own may be an alias; the line then
remembers it, for the notice to the user.
-/

set_option autoImplicit false

namespace TurtleGraphics

structure Line where
  keyword : Keyword
  /-- The text behind the command word, without outer blanks; `none` if there is none. -/
  arguments : Option String
  /-- The word typed, in lowercase, if it was an alias. -/
  typedAs : Option String
  deriving DecidableEq

namespace Line

/-- What the user is told when an alias was understood. -/
def notice (l : Line) : Option String :=
  l.typedAs.map fun typed => s!"Interpreted '{typed}' as '{l.keyword.word}'."

/-- The command that a lowercase word stands for, and the word if it is an alias. -/
def resolve (word : String) : Except Error (Keyword × Option String) :=
  match Keyword.ofWord? word with
  | some name => .ok (name, none)
  | none =>
    match Keyword.ofAlias? word with
    | some name => .ok (name, some word)
    | none => .error (.unknownWord word)

/-- Reads a line; a blank one is `none`. -/
def read (text : String) : Except Error (Option Line) :=
  match Text.trimBoth text.toList with
  | [] => .ok none
  | cs =>
    let (word, behind) := Text.splitFirst cs
    let rest := Text.trimStart behind
    match resolve (Text.lower (String.ofList word)) with
    | .ok (name, corrected) =>
      .ok (some ⟨name, if rest.isEmpty then none else some (String.ofList rest), corrected⟩)
    | .error e => .error e

/-- The line would load a file. -/
def isLoad (text : String) : Bool :=
  match read text with
  | .ok (some l) => l.keyword == .load
  | _ => false

end Line

end TurtleGraphics
