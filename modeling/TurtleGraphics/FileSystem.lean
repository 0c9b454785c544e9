import TurtleGraphics.Path
import TurtleGraphics.Text.Blank

/-!
# File system

A tree of folders and files, given by its entries, and a working folder in it. A path is walked
component by component: each step needs a folder to step from, an empty component or `.` stays,
`..` goes up. A file is read whole. It is written in two steps: opening it makes it or empties it,
and after that the write may break off, on a full disk for one.
-/

set_option autoImplicit false

namespace TurtleGraphics

/-- Why a file could not be used. -/
inductive Fault where
  | notFound
  | notADirectory
  | isADirectory
  | nameTooLong
  | nulInName
  | notUtf8
  | noSpace
  | deviceError
  deriving DecidableEq

def Fault.message : Fault → String
  | notFound => "No such file or directory (os error 2)"
  | notADirectory => "Not a directory (os error 20)"
  | isADirectory => "Is a directory (os error 21)"
  | nameTooLong => "File name too long (os error 36)"
  | nulInName => "file name contained an unexpected NUL byte"
  | notUtf8 => "stream did not contain valid UTF-8"
  | noSpace => "No space left on device (os error 28)"
  | deviceError => "Input/output error (os error 5)"

inductive Entry where
  | file (bytes : ByteArray)
  | folder

/-- A place in the tree: the names on the way down from the root. -/
abbrev Place := List String

/-- A write that breaks off: so many bytes are in the file by then. -/
structure Break where
  kept : Nat
  fault : Fault
  deriving DecidableEq

structure FileSystem where
  entries : List (Place × Entry)
  workingFolder : Place
  /-- What befalls the files that will be opened for writing, the next one first: its write breaks
  off, or goes through. Behind the end of the list all go through. -/
  breaks : List (Option Break) := []

namespace FileSystem

def empty : FileSystem := { entries := [], workingFolder := [] }

/-- What stands at a place; the root is always a folder. -/
def entryAt? (fs : FileSystem) (place : Place) : Option Entry :=
  if place = [] then some .folder else fs.entries.lookup place

/-- The file at a place is replaced, or made if there is none. -/
def putFile (fs : FileSystem) (place : Place) (bytes : ByteArray) : FileSystem :=
  { fs with entries := (place, .file bytes) :: fs.entries.filter (fun e => e.1 != place) }

/-- One step down needs a folder to start from. -/
def requireFolder (fs : FileSystem) (place : Place) : Except Fault Unit :=
  match fs.entryAt? place with
  | some .folder => .ok ()
  | some (.file _) => .error .notADirectory
  | none => .error .notFound

/-- The longest name that a folder holds, in bytes. -/
def nameLimit : Nat := 255

/-- The longest path that is looked up, in bytes. -/
def pathLimit : Nat := 4095

/-- The place one component away from a folder. -/
def neighbour (place : Place) (c : String) : Except Fault Place :=
  if c = "" ∨ c = "." then .ok place
  else if c = ".." then .ok place.dropLast
  else if nameLimit < c.utf8ByteSize then .error .nameTooLong
  else .ok (place ++ [c])

/-- The place reached from `place` by a list of components. -/
def walk (fs : FileSystem) : Place → List String → Except Fault Place
  | place, [] => .ok place
  | place, c :: rest => do
    fs.requireFolder place
    fs.walk (← neighbour place c) rest

/-- The components of a path's text, empty ones included. -/
def components (text : String) : List String :=
  (Text.pieces (· = '/') text.toList).map String.ofList

/-- Where the walk along a path starts. -/
def origin (fs : FileSystem) (text : String) : Place :=
  if text.toList.head? = some '/' then [] else fs.workingFolder

/-- A text that can be looked up at all. -/
def checkText (text : String) : Except Fault Unit :=
  if text.toList.contains '\x00' then .error .nulInName
  else if pathLimit < text.utf8ByteSize then .error .nameTooLong
  else if text = "" then .error .notFound
  else .ok ()

/-- The place and the entry that a path leads to. -/
def locate (fs : FileSystem) (path : Path) : Except Fault (Place × Entry) := do
  checkText path.text
  let place ← fs.walk (fs.origin path.text) (components path.text)
  match fs.entryAt? place with
  | some e => return (place, e)
  | none => .error .notFound

def exists? (fs : FileSystem) (path : Path) : Bool := (fs.locate path).toOption.isSome

/-- The bytes of a file. -/
def read (fs : FileSystem) (path : Path) : Except Fault ByteArray := do
  match ← fs.locate path with
  | (_, .file bytes) => return bytes
  | (_, .folder) => .error .isADirectory

/-- The components in front of the last one, the last one, and whether slashes follow it. -/
def splitLast (cs : List String) : List String × Option String × Bool :=
  match cs.reverse.dropWhile (· = "") with
  | [] => (cs, none, true)
  | c :: front => (front.reverse, some c, cs.getLast? = some "")

/-- Where a file of this path is written: in a folder that is there, under a name that no folder
has. -/
def target (fs : FileSystem) (path : Path) : Except Fault Place := do
  checkText path.text
  match splitLast (components path.text) with
  | (_, none, _) => .error .isADirectory
  | (front, some name, slashed) =>
    let folder ← fs.walk (fs.origin path.text) front
    fs.requireFolder folder
    if slashed ∨ name = "." ∨ name = ".." then .error .isADirectory
    else if nameLimit < name.utf8ByteSize then .error .nameTooLong
    else match fs.entryAt? (folder ++ [name]) with
      | some .folder => .error .isADirectory
      | _ => return folder ++ [name]

/-- Writes a file, replacing an older one. If the path cannot be opened nothing has changed. Once
it is opened the older file is gone, and a write that breaks off leaves what it has written. -/
def write (fs : FileSystem) (path : Path) (bytes : ByteArray) : Except Fault Unit × FileSystem :=
  match fs.target path with
  | .error fault => (.error fault, fs)
  | .ok place =>
    let opened := { fs with breaks := fs.breaks.tail }
    match fs.breaks.head?.join with
    | none => (.ok (), opened.putFile place bytes)
    | some b => (.error b.fault, opened.putFile place (bytes.extract 0 b.kept))

/-! ## Entries behind a write -/

theorem lookup_filter_of_ne {entries : List (Place × Entry)} {place other : Place}
    (h : other ≠ place) :
    (entries.filter (fun e => e.1 != place)).lookup other = entries.lookup other := by
  induction entries with
  | nil => rfl
  | cons e rest ih =>
    obtain ⟨p, entry⟩ := e
    by_cases hp : p = place
    · subst hp
      have ho : (other == p) = false := by simpa using h
      simpa [List.lookup_cons, ho] using ih
    · simp [hp, List.lookup_cons, ih]

theorem entryAt?_putFile_self (fs : FileSystem) {place : Place} (bytes : ByteArray)
    (h : place ≠ []) : (fs.putFile place bytes).entryAt? place = some (.file bytes) := by
  simp [entryAt?, putFile, h]

/-- A write changes no other place. -/
theorem entryAt?_putFile_of_ne (fs : FileSystem) {place other : Place} (bytes : ByteArray)
    (h : other ≠ place) : (fs.putFile place bytes).entryAt? other = fs.entryAt? other := by
  have ho : (other == place) = false := by simpa using h
  simp only [entryAt?, putFile, List.lookup_cons, ho, lookup_filter_of_ne h]

end FileSystem

end TurtleGraphics
