import TurtleGraphics.Console

/-!
# The console program

Types lines into the console's session, one command with its answers at a time. Before a command
the files that it names are read from the disk; behind it, what it showed is printed and the
files it changed are written. A command whose question finds no answer is tried again once
another line was typed.
-/

set_option autoImplicit false

namespace TurtleGraphics.Main

/-! ## The disk -/

/-- What the disk has under a path. -/
def diskEntry (path : String) : IO (Option Entry) := do
  try return some (.file (← IO.FS.readBinFile path))
  catch
    | .inappropriateType .. => return some .folder
    | _ => return none

def diskPath (place : Place) : String := "/" ++ "/".intercalate place

/-- Adds what the disk has along a path, from its first component on. -/
def addPath (files : FileSystem) (path : Path) : IO FileSystem := do
  let names := FileSystem.components path.text
  let mut files := files
  for k in List.range names.length do
    if let .ok place := files.walk (files.origin path.text) (names.take (k + 1)) then
      if (files.entryAt? place).isNone then
        if let some entry ← diskEntry (diskPath place) then
          files := { files with entries := files.entries ++ [(place, entry)] }
  return files

/-- The working folder, with the folders it is in. -/
def workingFolder : IO FileSystem := do
  let here := (FileSystem.components (← IO.currentDir).toString).filter (· ≠ "")
  let folders := (List.range here.length).map fun k => (here.take (k + 1), .folder)
  return { entries := folders, workingFolder := here }

/-- The lines of the script that a file holds. -/
def linesIn (files : FileSystem) (path : Path) : List String :=
  match Session.readScript files path with
  | .ok script => script.lines
  | .error _ => []

/-- The files that a typed line may need, and those that the script it loads names. -/
def gather (text : String) : IO FileSystem := do
  let named := Config.standard.scriptPath :: (Console.pathOf? text).toList
  let files ← named.foldlM addPath (← workingFolder)
  ((named.flatMap (linesIn files)).filterMap Console.pathOf?).foldlM addPath files

def sameFile (files : FileSystem) (place : Place) (bytes : ByteArray) : Bool :=
  match files.entryAt? place with
  | some (.file old) => old == bytes
  | _ => false

/-- Writes the files that differ from what was there before. -/
def writeChanges (before after : FileSystem) : IO Unit :=
  after.entries.forM fun (place, entry) =>
    match entry with
    | .file bytes =>
      if sameFile before place bytes then return else IO.FS.writeBinFile (diskPath place) bytes
    | .folder => return

/-! ## The terminal -/

/-- The next line without its end; none at the end of the input or if it is no text. -/
def readLine (input : IO.FS.Stream) : IO (Option String) := do
  try
    let line ← input.getLine
    return if line.isEmpty then none else some ((line.dropSuffix "\n").dropSuffix "\r").toString
  catch _ => return none

/-- Prints what was shown from the line number `done` on. -/
def printFrom (done : Nat) (shown : Array String) : IO Unit :=
  (shown.toList.drop done).forM (IO.println ·)

/-- Takes over what a command left behind. -/
def commit (before : FileSystem) (done : Nat) (s : Session Terminal) : IO (Session Terminal) := do
  s.user.progress.forM (IO.eprintln ·)
  printFrom done s.user.shown
  writeChanges before s.files
  return { s with user := .ofLines [] }

/-- Runs one command on the lines typed for it so far, asking for more as questions need them. -/
partial def runCommand (input : IO.FS.Stream) (before : FileSystem) (s : Session Terminal)
    (typed : List String) (done : Nat) : IO (Session Terminal) := do
  let after := Console.step { s with files := before, user := .ofLines typed }
  match after.user.starvedAt with
  | none => commit before done after
  | some shown =>
    printFrom done (after.user.shown.extract 0 shown)
    match ← readLine input with
    | some line => runCommand input before s (typed ++ [line]) shown
    | none => commit before shown after

partial def runAll (input : IO.FS.Stream) (s : Session Terminal) : IO (Session Terminal) := do
  match ← readLine input with
  | some line => runAll input (← runCommand input (← gather line) s [line] 0)
  | none => return s

end TurtleGraphics.Main

open TurtleGraphics in
def main : IO UInt32 := do
  let first := Console.start (← Main.workingFolder) (.ofLines [])
  Main.printFrom 0 first.user.shown
  let last ← Main.runAll (← IO.getStdin) { first with user := .ofLines [] }
  Main.printFrom 0 (Console.finish last).user.shown
  return 0
