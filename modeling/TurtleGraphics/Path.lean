/-!
# Paths

File paths as text, with components between slashes, and the extension of the last component.
-/

set_option autoImplicit false

namespace TurtleGraphics

/-- A path as Unicode text. Paths of an operating system may be other bytes as well; no line spells
such a path, and it has no JSON form. -/
structure Path where
  text : String
  deriving DecidableEq

namespace Path

/-- Cuts a reversed list at its first dot: what stands behind the last dot and in front of it. -/
def cutAtDot (reversed : List Char) : Option (List Char × List Char) :=
  match reversed.dropWhile (· ≠ '.') with
  | _ :: stem => some ((reversed.takeWhile (· ≠ '.')).reverse, stem.reverse)
  | [] => none

/-- The reversed text without the slashes and `.` components that it ends in; these do not belong
to the last component. A leading `.` is a component of its own. -/
def dropTail : List Char → List Char
  | '/' :: cs => dropTail cs
  | '.' :: '/' :: cs => dropTail cs
  | cs => cs

/-- The part of a path up to the end of its last component, split before that component. -/
def splitName (p : Path) : List Char × List Char :=
  let kept := dropTail p.text.toList.reverse
  ((kept.dropWhile (· ≠ '/')).reverse, (kept.takeWhile (· ≠ '/')).reverse)

/-- The last component of a path, if it names something below a directory. -/
def fileName? (p : Path) : Option (List Char) :=
  let name := p.splitName.2
  if name = [] ∨ name = ['.'] ∨ name = ['.', '.'] then none else some name

/-- A file name's stem and, behind its last dot, its extension. A dot in front of a name starts
no extension. -/
def splitExtension (name : List Char) : List Char × Option (List Char) :=
  match cutAtDot name.reverse with
  | some (ext, stem) => if stem.isEmpty then (name, none) else (stem, some ext)
  | none => (name, none)

/-- The extension of the last component; it may be empty. -/
def extension? (p : Path) : Option (List Char) := p.fileName?.bind fun n => (splitExtension n).2

/-- The path with `ext` as the extension of its last component, an empty one taking the dot away
too. What stood behind the last component goes. A path without a file name stays. -/
def replaceExtension (p : Path) (ext : String) : Path :=
  match p.fileName? with
  | none => p
  | some name =>
    let stem := p.splitName.1 ++ (splitExtension name).1
    ⟨String.ofList (if ext.isEmpty then stem else stem ++ '.' :: ext.toList)⟩

/-- Adds `ext` to a path that has no extension at all. -/
def ensureExtension (p : Path) (ext : String) : Path :=
  if p.extension?.isSome then p else p.replaceExtension ext

end Path

end TurtleGraphics
