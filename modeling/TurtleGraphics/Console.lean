import TurtleGraphics.Session

/-!
# Console

A session whose user sits at a terminal. Typed lines wait in one queue: the next one is a
command, unless a question is open, whose answer it then is. A question that meets the end of
the input is declined.
-/

set_option autoImplicit false

namespace TurtleGraphics

/-! ## Typed lines -/

namespace Terminal

/-- The bytes of the lines of an input. The last line may lack its line feed; a carriage return
in front of a line feed belongs to the line's end. -/
def rawLines (input : List UInt8) : List (List UInt8) :=
  let parts := Text.pieces (· = 10) input
  let ended := parts.dropLast.map fun l => if l.getLast? = some 13 then l.dropLast else l
  match parts.getLast? with
  | none => ended
  | some [] => ended
  | some l => ended ++ [l]

/-- The texts of the lines in front of the first one that is not UTF-8. -/
def validPrefix : List (List UInt8) → List String
  | [] => []
  | l :: rest =>
    match String.fromUTF8? ⟨l.toArray⟩ with
    | some text => text :: validPrefix rest
    | none => []

def typedLines (input : ByteArray) : List String := validPrefix (rawLines input.toList)

end Terminal

/-! ## The terminal -/

structure Terminal where
  /-- Typed lines that nobody has read yet. -/
  waiting : List String
  /-- What was written to the output, line by line. -/
  shown : Array String
  /-- What was written about the progress of replays. -/
  progress : Array String
  /-- How much had been shown when a question first found no answer waiting. -/
  starvedAt : Option Nat

namespace Terminal

/-- A terminal with some typed lines waiting. -/
def ofLines (lines : List String) : Terminal := ⟨lines, #[], #[], none⟩

def write (text : String) (t : Terminal) : Terminal := { t with shown := t.shown.push text }

/-- The next typed line, if there is one. -/
def answer (t : Terminal) : Option String × Terminal :=
  match t.waiting with
  | line :: rest => (some line, { t with waiting := rest })
  | [] => (none, { t with starvedAt := t.starvedAt.or (some t.shown.size) })

/-- What a typed answer says about unsaved changes. -/
def decisionOf? (line : String) : Option Decision :=
  match Text.lower (Text.trim line) with
  | "d" | "discard" => some .discard
  | "s" | "save" => some .saveFirst
  | "c" | "cancel" => some .cancel
  | _ => none

/-- Reads answers, at most `fuel` of them, until one says what to do; at the end of the input it
is to cancel. -/
def readDecision : Nat → Terminal → Decision × Terminal
  | 0, t => (.cancel, t)
  | fuel + 1, t =>
    match t.answer with
    | (none, t) => (.cancel, t)
    | (some line, t) =>
      match decisionOf? line with
      | some c => (c, t)
      | none => readDecision fuel (t.write "Please answer d, s or c.")

/-- Asks about unsaved changes. Every answer uses up a waiting line, so there is one attempt more
than lines. -/
def askUnsaved (prompt : String) (t : Terminal) : Decision × Terminal :=
  readDecision (t.waiting.length + 1)
    (t.write s!"{prompt} [d]iscard / [s]ave first / [c]ancel")

/-- A typed line says yes. -/
def isYes (line : String) : Bool :=
  let said := Text.lower (Text.trim line)
  said == "y" || said == "yes"

def askReplace (path : Path) (t : Terminal) : Bool × Terminal :=
  let (said, t) := (t.write s!"Overwrite existing file {path.text}? [y/n]").answer
  (said.any isYes, t)

/-- The user at a terminal. They never stop a replay. -/
def dialogue : Dialogue Terminal where
  tell := write
  askUnsaved := askUnsaved
  showProgress i n t := { t with progress := t.progress.push s!"[{i}/{n}]" }
  askReplace := askReplace
  stopRequested _ := false
  clearStop t := t

end Terminal

/-! ## The program -/

namespace Console

/-- The size of the console's canvas. -/
def bounds : Bounds Float := ⟨800, 600⟩

def welcome : String := "Welcome! Type 'about' for commands."

def unsavedNotice : String := "Exiting with unsaved changes."

/-- The program before its first line. -/
def start (files : FileSystem) (terminal : Terminal) : Session Terminal :=
  (Session.start .standard (.blank bounds) files terminal).tell Terminal.dialogue welcome

/-- Takes the next waiting line. -/
def step (s : Session Terminal) : Session Terminal :=
  match s.user.waiting with
  | [] => s
  | line :: rest =>
    (Session.enter Terminal.dialogue line { s with user := { s.user with waiting := rest } }).2

/-- Takes waiting lines, at most `fuel` of them. Every one uses up at least itself. -/
def loop : Nat → Session Terminal → Session Terminal
  | 0, s => s
  | fuel + 1, s => if s.user.waiting.isEmpty then s else loop fuel (step s)

/-- The program after its last line. -/
def finish (s : Session Terminal) : Session Terminal :=
  if s.history.dirty then s.tell Terminal.dialogue unsavedNotice else s

/-- What a run of the program leaves behind. -/
structure Outcome where
  exitCode : UInt32
  output : Array String
  progress : Array String
  files : FileSystem

/-- Runs the program on an input to its end. The exit code is zero, as `main` has no other way out
once the thread that reads lines has started and output works. -/
def run (input : ByteArray) (files : FileSystem) : Outcome :=
  let first := start files (.ofLines (Terminal.typedLines input))
  let last := finish (loop first.user.waiting.length first)
  ⟨0, last.user.shown, last.user.progress, last.files⟩

/-- The path that a line saves to or loads from, if it does. -/
def pathOf? (text : String) : Option Path :=
  match Command.ofText text with
  | .ok (some (.save .script path)) =>
    some ((path.getD Config.standard.scriptPath).ensureExtension "txt")
  | .ok (some (.save .image path)) =>
    some ((path.getD Config.standard.imagePath).ensureExtension "png")
  | .ok (some (.load .script path)) => some (path.getD Config.standard.scriptPath)
  | .ok (some (.load .image path)) => some (path.getD Config.standard.imagePath)
  | _ => none

end Console

end TurtleGraphics
