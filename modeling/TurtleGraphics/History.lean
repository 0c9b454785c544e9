/-!
# History

The accepted lines of a session in order, and whether there is something in them that no file
holds. Each record keeps the dirty mark of the moment before it was made, so that the last
record can be taken back.
-/

set_option autoImplicit false

namespace TurtleGraphics

/-- What a line is kept for. -/
inductive Purpose where
  /-- To be saved in scripts and replayed. -/
  | replay
  /-- To be on record only; such a line makes nothing dirty. -/
  | audit
  deriving DecidableEq

structure Record where
  line : String
  purpose : Purpose
  /-- The dirty mark before this record. -/
  wasDirty : Bool
  deriving DecidableEq

structure History where
  /-- Oldest first. -/
  records : List Record
  dirty : Bool
  /-- A script is being replayed. -/
  replaying : Bool
  deriving DecidableEq

namespace History

def empty : History := ⟨[], false, false⟩

/-- The lines that a save writes, in order. -/
def scriptLines (h : History) : List String :=
  (h.records.filter (·.purpose == .replay)).map (·.line)

/-- The lines on record and what they are kept for. -/
def entries (h : History) : List (String × Purpose) :=
  h.records.map fun r => (r.line, r.purpose)

def add (h : History) (line : String) (purpose : Purpose) : History :=
  { h with
    records := h.records ++ [⟨line, purpose, h.dirty⟩]
    dirty := h.dirty || purpose == .replay }

/-- Takes back the last record, with the dirty mark from before it. -/
def undo (h : History) : Option Record × History :=
  match h.records.getLast? with
  | some r => (some r, { h with records := h.records.dropLast, dirty := r.wasDirty })
  | none => (none, h)

/-- Forgets all records. -/
def clear (h : History) : History := { h with records := [], dirty := false }

def markSaved (h : History) : History := { h with dirty := false }

def startReplay (h : History) : History := { h.clear with replaying := true }

/-- A completed replay leaves what its file holds; one cut short is dirty if it recorded
anything. -/
def finishReplay (h : History) (completed : Bool) : History :=
  { h with replaying := false, dirty := !completed && !h.records.isEmpty }

/-! ## Adding and taking back -/

theorem scriptLines_add (h : History) (line : String) (purpose : Purpose) :
    (h.add line purpose).scriptLines =
      h.scriptLines ++ if purpose = .replay then [line] else [] := by
  cases purpose with
  | replay => simp [scriptLines, add]
  | audit => simp [scriptLines, add]

theorem entries_add (h : History) (line : String) (purpose : Purpose) :
    (h.add line purpose).entries = h.entries ++ [(line, purpose)] := by
  simp [entries, add]

theorem undo_add (h : History) (line : String) (purpose : Purpose) :
    (h.add line purpose).undo = (some ⟨line, purpose, h.dirty⟩, h) := by
  simp [add, undo]

end History

end TurtleGraphics
