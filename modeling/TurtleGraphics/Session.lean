import TurtleGraphics.Command.Arguments
import TurtleGraphics.Dialogue
import TurtleGraphics.Drawing
import TurtleGraphics.Script.Replay

/-!
# Sessions

A session owns a drawing, the history of accepted lines, the files and the user's side, and
takes one line after the other: read, check, carry out, record. Loading a script feeds its lines
to the same session, one level deep: what a line that loads does is a parameter of taking a line
(`Loader`), and in a replay it is refused.
-/

set_option autoImplicit false

namespace TurtleGraphics

structure Session (σ : Type) where
  config : Config
  drawing : Drawing
  history : History
  files : FileSystem
  user : σ

namespace Session

variable {σ : Type}

def start (config : Config) (canvas : Canvas Float) (files : FileSystem) (user : σ) :
    Session σ :=
  ⟨config, .start config canvas, .empty, files, user⟩

def tell (ui : Dialogue σ) (text : String) (s : Session σ) : Session σ :=
  { s with user := ui.tell text s.user }

/-! ## Saving -/

/-- The user agrees to what stands at a path being replaced. Nobody is asked if there is nothing,
or while a script is replayed. -/
def mayReplace (ui : Dialogue σ) (path : Path) (s : Session σ) : Bool × Session σ :=
  if s.files.exists? path && !s.history.replaying then
    let (yes, user) := ui.askReplace path s.user
    (yes, { s with user := user })
  else (true, s)

/-- Writes a file, after which the session has nothing unsaved. A write that fails may have lost
the file that was there. -/
def writeFile (path : Path) (bytes : ByteArray) (s : Session σ) :
    Except Error Unit × Session σ :=
  match s.files.write path bytes with
  | (.ok (), files) => (.ok (), { s with files := files, history := s.history.markSaved })
  | (.error fault, files) => (.error (.unwritable path fault), { s with files := files })

/-- Writes bytes to a path unless the user keeps what is there; tells whether they were
written. -/
def saveBytes (ui : Dialogue σ) (path : Path) (bytes : ByteArray) (s : Session σ) :
    Except Error Bool × Session σ :=
  match s.mayReplace ui path with
  | (false, s) => (.ok false, s)
  | (true, s) =>
    match s.writeFile path bytes with
    | (.ok (), s) => (.ok true, s)
    | (.error e, s) => (.error e, s)

/-- Writes the lines of the history that a script holds. -/
def saveLines (ui : Dialogue σ) (path : Path) (s : Session σ) :
    Except Error Bool × Session σ :=
  s.saveBytes ui path (Script.encode s.history.scriptLines)

def savedNotice (path : Path) : String := s!"Commands saved to {path.text}"

def saveScript (ui : Dialogue σ) (path : Option Path) (s : Session σ) :
    Except Error String × Session σ :=
  let path := (path.getD s.config.scriptPath).ensureExtension "txt"
  match s.saveLines ui path with
  | (.ok true, s) => (.ok (savedNotice path), s)
  | (.ok false, s) => (.ok "Save cancelled.", s)
  | (.error e, s) => (.error e, s)

def saveImage (ui : Dialogue σ) (path : Option Path) (s : Session σ) :
    Except Error String × Session σ :=
  let path := (path.getD s.config.imagePath).ensureExtension "png"
  match s.drawing.canvas.picture with
  | none => (.error .noPicture, s)
  | some bytes =>
    match s.saveBytes ui path bytes with
    | (.ok true, s) => (.ok s!"Image saved as {path.text}", s)
    | (.ok false, s) => (.ok "Image save cancelled.", s)
    | (.error e, s) => (.error e, s)

/-! ## Unsaved changes -/

/-- Saves the history where the user chooses; tells whether it was saved. -/
def saveFirst (ui : Dialogue σ) (s : Session σ) : Bool × Session σ :=
  match ui.askSavePath s.config.scriptPath s.user with
  | (none, user) => (false, { s with user := user })
  | (some chosen, user) =>
    let path := chosen.ensureExtension "txt"
    match saveLines ui path { s with user := user } with
    | (.ok true, s) => (true, s.tell ui (savedNotice path))
    | (.ok false, s) => (false, s)
    | (.error e, s) => (false, s.tell ui s!"Error: {e.message}")

/-- What is asked before unsaved changes are dropped. -/
def unsavedQuestion (intention : String) : String := s!"Discard unsaved changes and {intention}?"

/-- Whether an intention may drop the current work. The user is asked if some of it is
unsaved. -/
def mayDiscard (ui : Dialogue σ) (intention : String) (s : Session σ) : Bool × Session σ :=
  if s.history.dirty then
    match ui.askUnsaved (unsavedQuestion intention) s.user with
    | (.discard, user) => (true, { s with user := user })
    | (.cancel, user) => (false, { s with user := user })
    | (.saveFirst, user) => saveFirst ui { s with user := user }
  else (true, s)

/-! ## Lines -/

/-- Carries out an action and records its line. A reset starts a new history. Any other line is
recorded first and taken back if its action fails. -/
def act (line : String) (a : Action) (s : Session σ) : Except Error String × Session σ :=
  if a = .reset then
    match a.execute s.config s.drawing with
    | (.ok message, drawing) =>
      (.ok message, { s with drawing := drawing, history := s.history.clear })
    | (.error e, drawing) => (.error e, { s with drawing := drawing })
  else
    let recorded := s.history.add line a.purpose
    match a.execute s.config s.drawing with
    | (.ok message, drawing) => (.ok message, { s with drawing := drawing, history := recorded })
    | (.error e, drawing) =>
      (.error e, { s with drawing := drawing, history := recorded.undo.2 })

/-- What a line does that loads a file. -/
abbrev Loader (σ : Type) :=
  String → FileKind → Option Path → Session σ → Except Error String × Session σ

/-- Carries out a command; `loads` deals with the ones that load. -/
def run (ui : Dialogue σ) (loads : Loader σ) (line : String) (c : Command) (s : Session σ) :
    Except Error String × Session σ :=
  match c with
  | .act a => s.act line a
  | .save .script path => s.saveScript ui path
  | .save .image path => s.saveImage ui path
  | .load kind path => loads line kind path s

/-- Shows the user what became of a line. -/
def report (ui : Dialogue σ) :
    Except Error String × Session σ → Except Error (Option String) × Session σ
  | (.ok message, s) => (.ok (some message), s.tell ui message)
  | (.error e, s) => (.error e, s.tell ui s!"Error: {e.message}")

/-- Reads a line and tells the user if a word of it was an alias. -/
def hear (ui : Dialogue σ) (text : String) (s : Session σ) :
    Except Error (Option Command) × Session σ :=
  match Line.read text with
  | .error e => (.error e, s)
  | .ok none => (.ok none, s)
  | .ok (some line) =>
    let s := match line.notice with
      | some notice => s.tell ui notice
      | none => s
    ((Command.ofLine line).map some, s)

/-- Takes a line. Gives the message shown, none for a blank line, or the error that the line was
rejected for. -/
def enterWith (ui : Dialogue σ) (loads : Loader σ) (text : String) (s : Session σ) :
    Except Error (Option String) × Session σ :=
  match s.hear ui text with
  | (.error e, s) => report ui (.error e, s)
  | (.ok none, s) => (.ok none, s)
  | (.ok (some c), s) => report ui (s.run ui loads (Text.trim text) c)

/-! ## Replaying -/

/-- A load in the middle of a replay is refused. -/
def refuseLoad : Loader σ := fun line _ _ s => (.error (.nestedLoad line), s)

/-- The session as the receiver of replayed lines. -/
def asTarget (ui : Dialogue σ) : ReplayTarget (Session σ) where
  carryOut line s :=
    match s.enterWith ui refuseLoad line with
    | (.ok _, s) => (true, s)
    | (.error _, s) => (false, s)
  notify text s := s.tell ui text
  showProgress i n s := { s with user := ui.showProgress i n s.user }
  stopRequested s := ui.stopRequested s.user

/-- The session about to replay: a fresh turtle, a clear canvas, no history, no wish to stop. -/
def prepareReplay (ui : Dialogue σ) (s : Session σ) : Session σ :=
  { s with
    drawing := (s.drawing.resetTurtle s.config).clearCanvas
    history := s.history.startReplay
    user := ui.clearStop s.user }

/-- Replays a script from its first line in a session made ready for it. -/
def replay (ui : Dialogue σ) (script : Script) (s : Session σ) : Tally × Session σ :=
  let (tally, s) := (asTarget ui).replay script (s.prepareReplay ui)
  (tally, { s with history := s.history.finishReplay (!tally.cancelled) })

/-- What is said before a script is replayed. -/
def loadingNotice (path : Path) : String := s!"Loading commands from {path.text}..."

/-- What is reported of a replay that is over. -/
def replayNotice (path : Path) (t : Tally) : String :=
  if t.cancelled then s!"Load cancelled after {t.processed} of {t.total} lines."
  else
    s!"Finished executing commands from {path.text} " ++
      s!"({t.applied} applied, {t.failed} failed, {t.skipped} skipped)."

/-! ## Loading -/

/-- The script in a file. -/
def readScript (files : FileSystem) (path : Path) : Except Error Script :=
  match files.read path with
  | .error fault => .error (.unreadable path fault)
  | .ok bytes =>
    match Script.decode? bytes with
    | some script => .ok script
    | none => .error (.unreadable path .notUtf8)

/-- Loads a script. The file is read before anything is changed. -/
def loadScript (ui : Dialogue σ) (path : Option Path) (s : Session σ) :
    Except Error String × Session σ :=
  match s.mayDiscard ui "load commands" with
  | (false, s) => (.ok "Load commands cancelled.", s)
  | (true, s) =>
    let path := path.getD s.config.scriptPath
    match readScript s.files path with
    | .error e => (.error e, s)
    | .ok script =>
      let (tally, s) := (s.tell ui (loadingNotice path)).replay ui script
      (.ok (replayNotice path tally), s)

/-- Sets a file as the background of a cleared canvas, with a fresh turtle and history. -/
def loadImage (ui : Dialogue σ) (path : Option Path) (s : Session σ) :
    Except Error String × Session σ :=
  match s.mayDiscard ui "load image" with
  | (false, s) => (.ok "Load image cancelled.", s)
  | (true, s) =>
    let path := path.getD s.config.imagePath
    match s.files.read path with
    | .error fault => (.error (.unreadable path fault), s)
    | .ok bytes =>
      let cleared := s.drawing.clearCanvas.resetTurtle s.config
      (.ok s!"Loaded image '{path.text}' as background.",
        { s with
          drawing := { cleared with canvas := cleared.canvas.setBackground bytes }
          history := s.history.clear })

/-- Loads what a typed line names. -/
def load (ui : Dialogue σ) : Loader σ := fun line kind path s =>
  if s.history.replaying then refuseLoad line kind path s
  else match kind with
    | .script => s.loadScript ui path
    | .image => s.loadImage ui path

/-! ## Typed lines -/

/-- Takes one typed line. -/
def enter (ui : Dialogue σ) (text : String) (s : Session σ) :
    Except Error (Option String) × Session σ :=
  s.enterWith ui (load ui) text

/-- Takes typed lines until there are no more. -/
def enterAll (ui : Dialogue σ) (texts : List String) (s : Session σ) : Session σ :=
  texts.foldl (fun s text => (s.enter ui text).2) s

end Session

end TurtleGraphics
