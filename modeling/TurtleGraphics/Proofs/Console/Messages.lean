import TurtleGraphics.Proofs.Command.Paths
import TurtleGraphics.Proofs.Console.Output
import TurtleGraphics.Proofs.Session.Consent

/-!
# Messages and the last notice

No message of a session can be mistaken for the notice about unsaved changes, so the output ends in
the notice only if it was shown (`Apart`). Most messages end in other words. The others are single
lines that begin with other words; those of a save name a file, whose path must be a single line, as
a typed one is (`enter_told`).
-/

set_option autoImplicit false

namespace TurtleGraphics

/-! ## Texts of numbers -/

theorem lineFeed_not_mem_toDigits (n : Nat) : '\n' ∉ Nat.toDigits 10 n := by
  intro h
  exact absurd (Nat.isDigit_of_mem_toDigits (by decide) (by decide) h) (by decide)

theorem lineFeed_not_mem_repr (n : Int) : '\n' ∉ n.repr.toList := by
  cases n with
  | ofNat m =>
    show '\n' ∉ m.repr.toList
    simp [lineFeed_not_mem_toDigits]
  | negSucc m =>
    have h : (Int.negSucc m).repr = "-" ++ (m + 1).repr := rfl
    simp [h, lineFeed_not_mem_toDigits]

namespace Decimal

theorem lineFeed_not_mem_positional {ds : List Char} (h : '\n' ∉ ds) (exponent : Int) :
    '\n' ∉ positional ds exponent := by
  have hz : ∀ n, '\n' ∉ zeros n := by
    intro n hm
    exact absurd (List.eq_of_mem_replicate hm) (by decide)
  unfold positional
  dsimp only
  split
  · simp [h, hz]
  · split
    · simp only [List.mem_append, List.mem_cons, not_or]
      exact ⟨fun hm => h (List.mem_of_mem_take hm), by decide,
        fun hm => h (List.mem_of_mem_drop hm)⟩
    · simp [h, hz]

theorem lineFeed_not_mem_shortest (x : Float) : '\n' ∉ (shortest x).toList := by
  have hs : ∀ minus, '\n' ∉ signText minus := by decide
  unfold shortest
  split
  · decide
  · decide
  · decide
  · rw [String.toList_ofList, List.mem_append, not_or]
    exact ⟨hs _, by decide⟩
  · dsimp only
    rw [String.toList_ofList, List.mem_append, not_or]
    exact ⟨hs _, lineFeed_not_mem_positional (lineFeed_not_mem_toDigits _) _⟩

end Decimal

namespace Console

/-! ## Messages -/

/-- Shown last, the text does not end the output in the notice about unsaved changes. -/
def Apart (text : String) : Prop :=
  ¬ unsavedNotice.toList <:+ text.toList ∨ '\n' ∉ text.toList ∧ text ≠ unsavedNotice

theorem Apart.not_lastLine {shown : Array String} {text : String} (h : Apart text) :
    ¬ LastLine (stdout (shown.push text)) unsavedNotice := by
  intro hlast
  obtain ⟨hsuffix, hline⟩ := suffix_of_lastLine hlast
  rcases h with h | ⟨hone, hne⟩
  · exact h hsuffix
  · exact hne (hline hone)

/-- The notice ends in `ges.`. -/
theorem Apart.of_ending {text : String} (h : text.toList.reverse.take 4 ≠ ['.', 's', 'e', 'g']) :
    Apart text := by
  refine .inl fun ⟨front, ht⟩ => h ?_
  rw [← ht]
  simp [unsavedNotice]

/-- The text is a single line, and does not begin as the notice does. -/
def BeginsApart (text : String) : Prop :=
  '\n' ∉ text.toList ∧ text.toList.take 2 ≠ ['E', 'x']

theorem BeginsApart.apart {text : String} (h : BeginsApart text) : Apart text := by
  refine .inr ⟨h.1, ?_⟩
  rintro rfl
  exact h.2 (by simp [unsavedNotice])

theorem helpText_ending : helpText.toList.reverse.take 4 ≠ ['.', 's', 'e', 'g'] := by
  obtain ⟨front, h⟩ : ∃ front, helpText = front ++
      "  load commands|image [path]      replay a script or set a background" := by
    unfold helpText
    simp only [String.intercalate_cons_cons, String.intercalate_singleton, ← String.append_assoc]
    exact ⟨_, rfl⟩
  rw [h]
  simp

theorem apart_message (a : Action) : Apart a.message := by
  cases a with
  | penUp =>
    show Apart "Pen is UP."
    exact .of_ending (by simp)
  | penDown =>
    show Apart "Pen is DOWN."
    exact .of_ending (by simp)
  | reset =>
    show Apart "Turtle state reset (position, direction, pen). Canvas not cleared."
    exact .of_ending (by simp)
  | clear =>
    show Apart "Canvas cleared."
    exact .of_ending (by simp)
  | about => exact .of_ending helpText_ending
  | turn n =>
    show Apart ("Turned " ++ (if n.toInt < 0 then "left" else "right") ++ " by " ++
      toString n.toInt.natAbs ++ " degrees.")
    exact .of_ending (by simp)
  | move n =>
    show Apart (if n.toInt < 0 then "Reversed by " ++ toString n.toInt.natAbs ++ " units."
      else "Moved forward by " ++ toString n.toInt ++ " units.")
    split
    · exact .of_ending (by simp)
    · exact .of_ending (by simp)
  | colour c =>
    show Apart ("Pen colour set to RGB(" ++ toString c.red.toNat ++ "," ++
      toString c.green.toNat ++ "," ++ toString c.blue.toNat ++ ").")
    exact .of_ending (by simp)
  -- the other messages end in a number, and are single lines
  | penWidth w =>
    show Apart ("Pen width set to " ++ toString w.toNat ++ ".")
    exact BeginsApart.apart (by simp [BeginsApart, lineFeed_not_mem_toDigits])
  | square n =>
    show Apart ("Drew a square with side length " ++ toString n.toInt ++ ".")
    exact BeginsApart.apart (by simp [BeginsApart, lineFeed_not_mem_repr])
  | star n =>
    show Apart ("Drew a star with side length " ++ toString n.toInt ++ ".")
    exact BeginsApart.apart (by simp [BeginsApart, lineFeed_not_mem_repr])
  | hexagon n =>
    show Apart ("Drew a hexagon with side length " ++ toString n.toInt ++ ".")
    exact BeginsApart.apart (by simp [BeginsApart, lineFeed_not_mem_repr])
  | circle n =>
    show Apart ("Drew a circle with radius " ++ toString n.toInt ++ ".")
    exact BeginsApart.apart (by simp [BeginsApart, lineFeed_not_mem_repr])
  | triangle size =>
    cases size with
    | equilateral n =>
      show Apart ("Drew an equilateral triangle with side length " ++ toString n.toInt ++ ".")
      exact BeginsApart.apart (by simp [BeginsApart, lineFeed_not_mem_repr])
    | sides x y z =>
      show Apart ("Drew a triangle with sides " ++ Decimal.shortest x ++ ", " ++
        Decimal.shortest y ++ ", " ++ (Decimal.shortest z ++ "."))
      exact BeginsApart.apart (by simp [BeginsApart, Decimal.lineFeed_not_mem_shortest])

theorem apart_fault (front : String) (fault : Fault) : Apart (front ++ fault.message) := by
  cases fault with
  | notFound =>
    show Apart (front ++ "No such file or directory (os error 2)")
    exact .of_ending (by simp)
  | notADirectory =>
    show Apart (front ++ "Not a directory (os error 20)")
    exact .of_ending (by simp)
  | isADirectory =>
    show Apart (front ++ "Is a directory (os error 21)")
    exact .of_ending (by simp)
  | nameTooLong =>
    show Apart (front ++ "File name too long (os error 36)")
    exact .of_ending (by simp)
  | nulInName =>
    show Apart (front ++ "file name contained an unexpected NUL byte")
    exact .of_ending (by simp)
  | notUtf8 =>
    show Apart (front ++ "stream did not contain valid UTF-8")
    exact .of_ending (by simp)
  | noSpace =>
    show Apart (front ++ "No space left on device (os error 28)")
    exact .of_ending (by simp)
  | deviceError =>
    show Apart (front ++ "Input/output error (os error 5)")
    exact .of_ending (by simp)

theorem lineFeed_not_mem_word (k : Keyword) : '\n' ∉ k.word.toList := by
  cases k <;> simp [Keyword.word]

theorem apart_error (e : Error) : Apart s!"Error: {e.message}" := by
  cases e with
  | unknownWord word =>
    show Apart ("Error: " ++ ("Unknown command '" ++ word ++ "'. Type 'about' for help."))
    exact .of_ending (by simp)
  | notANumber command value =>
    show Apart ("Error: " ++ (Error.invalidParameter command ++
      ("Expected a number, but got '" ++ value ++ "'.")))
    exact .of_ending (by simp)
  | notPositive command value =>
    show Apart ("Error: " ++ (Error.invalidParameter command ++
      ("Value must be positive, but got '" ++ value ++ "'.")))
    exact .of_ending (by simp)
  | outOfRange command value =>
    show Apart ("Error: " ++ (Error.invalidParameter command ++
      ("Value '" ++ value ++ "' is out of range.")))
    exact .of_ending (by simp)
  | noTriangle a b c =>
    show Apart ("Error: " ++ (("Sides " ++ Decimal.shortest a ++ ", " ++ Decimal.shortest b ++
      ", " ++ Decimal.shortest c ++ " ") ++ "violate the triangle inequality."))
    exact .of_ending (by simp)
  | noFileKind command found =>
    show Apart ("Error: " ++ ("Invalid argument for '" ++ command.word ++
      "'. Use 'commands' or 'image', but got '" ++ found ++ "'."))
    exact .of_ending (by simp)
  | leavesCanvas point =>
    show Apart ("Error: " ++ ("Move would leave the canvas at (" ++ Decimal.fixed 1 point.x ++
      ", " ++ Decimal.fixed 1 point.y ++ ")."))
    exact .of_ending (by simp)
  | noPicture =>
    show Apart ("Error: " ++ "The canvas cannot export an image.")
    exact .of_ending (by simp)
  | nestedLoad line =>
    show Apart ("Error: " ++ ("Skipped nested '" ++ line ++ "' while loading a script."))
    exact .of_ending (by simp)
  | unreadable path fault =>
    show Apart ("Error: " ++ (("Could not read '" ++ path.text ++ "': ") ++ fault.message))
    rw [← String.append_assoc]
    exact apart_fault _ fault
  | unwritable path fault =>
    show Apart ("Error: " ++ (("Could not write '" ++ path.text ++ "': ") ++ fault.message))
    rw [← String.append_assoc]
    exact apart_fault _ fault
  -- the other two end in a number, and are single lines
  | wrongArity command expected found =>
    have harity : '\n' ∉ expected.text.toList := by
      cases expected <;> simp [Arity.text]
    show Apart ("Error: " ++ (("Wrong number of parameters for '" ++ command.word ++ "'. ") ++
      ("Expected " ++ expected.text ++ ", but got " ++ toString found ++ ".")))
    exact BeginsApart.apart
      (by simp [BeginsApart, lineFeed_not_mem_word, lineFeed_not_mem_toDigits, harity])
  | badChannel bad =>
    have hletter : '\n' ∉ bad.channel.letter.toList := by
      cases bad.channel <;> simp [Channel.letter]
    show Apart ("Error: " ++ (("Colour channel " ++ bad.channel.letter ++
      " must be between 0 and 255, but got ") ++ (toString bad.value.toInt ++ ".")))
    exact BeginsApart.apart (by simp [BeginsApart, lineFeed_not_mem_repr, hletter])

theorem apart_replayNotice (path : Path) (t : Tally) : Apart (Session.replayNotice path t) := by
  unfold Session.replayNotice
  split
  · show Apart ("Load cancelled after " ++ toString t.processed ++ " of " ++ toString t.total ++
      " lines.")
    exact .of_ending (by simp)
  · show Apart (("Finished executing commands from " ++ path.text ++ " ") ++ ("(" ++
      toString t.applied ++ " applied, " ++ toString t.failed ++ " failed, " ++
      toString t.skipped ++ " skipped)."))
    exact .of_ending (by simp)

theorem apart_loadedNotice (path : Path) : Apart (Session.loadedNotice path) := by
  show Apart ("Loaded image '" ++ path.text ++ "' as background.")
  exact .of_ending (by simp)

theorem apart_cancelledNotice (kind : FileKind) : Apart (Session.cancelledNotice kind) := by
  cases kind with
  | script =>
    show Apart "Load commands cancelled."
    exact .of_ending (by simp)
  | image =>
    show Apart "Load image cancelled."
    exact .of_ending (by simp)

/-- What a save reports ends in the path, which must be a single line. -/
theorem apart_saveNotice (kind : FileKind) {path : Path} (h : '\n' ∉ path.text.toList)
    (saved : Bool) : Apart (Session.saveNotice kind path saved) := by
  cases kind with
  | script =>
    cases saved with
    | true =>
      show Apart ("Commands saved to " ++ path.text)
      exact BeginsApart.apart (by simp [BeginsApart, h])
    | false =>
      show Apart "Save cancelled."
      exact .of_ending (by simp)
  | image =>
    cases saved with
    | true =>
      show Apart ("Image saved as " ++ path.text)
      exact BeginsApart.apart (by simp [BeginsApart, h])
    | false =>
      show Apart "Image save cancelled."
      exact .of_ending (by simp)

end Console

/-! ## Lines -/

namespace Session

variable {σ : Type} (ui : Dialogue σ)

open Console

/-- The paths that are used when a line names none are single lines. -/
def PlainPaths (c : Config) : Prop :=
  '\n' ∉ c.scriptPath.text.toList ∧ '\n' ∉ c.imagePath.text.toList

theorem lineFeed_not_mem_saveTarget {text : String} (ht : '\n' ∉ text.toList) {kind : FileKind}
    {path : Option Path} (hc : Command.ofText text = .ok (some (.save kind path)))
    {s : Session σ} (hp : PlainPaths s.config) :
    '\n' ∉ (s.saveTarget kind path).text.toList := by
  have hpath : ∀ p ∈ path, '\n' ∉ p.text.toList := by
    rintro p rfl hm
    exact ht (Command.mem_of_mem_path hc hm)
  have hgiven : ∀ d : Path, '\n' ∉ d.text.toList → '\n' ∉ (path.getD d).text.toList := by
    intro d hd
    cases path with
    | none => exact hd
    | some p => exact hpath p rfl
  have hext : ∀ (p : Path) (ext : String), ext ≠ "" → '\n' ∉ ext.toList → '\n' ∉ p.text.toList →
      '\n' ∉ (p.ensureExtension ext).text.toList := by
    intro p ext hne he hp hm
    rcases Path.mem_ensureExtension hne hm with hm | hm | hm
    · exact hp hm
    · cases hm
    · exact he hm
  cases kind with
  | script => exact hext _ _ (by decide) (by decide) (hgiven _ hp.1)
  | image => exact hext _ _ (by decide) (by decide) (hgiven _ hp.2)

theorem load_apart {line message : String} {kind : FileKind} {path : Option Path} {s : Session σ}
    (h : (load ui line kind path s).1 = .ok message) : Apart message := by
  unfold load at h
  split at h
  · cases h
  · cases kind with
    | script =>
      obtain ⟨s', -, he⟩ | ⟨s', e, -, he⟩ | ⟨s', script, -, -, he⟩ := loadScript_cases ui path s
      all_goals rw [he] at h; cases h
      · exact apart_cancelledNotice .script
      · exact apart_replayNotice _ _
    | image =>
      obtain ⟨s', -, he⟩ | ⟨s', e, -, he⟩ | ⟨s', bytes, -, he⟩ := loadImage_cases ui path s
      all_goals rw [he] at h; cases h
      · exact apart_cancelledNotice .image
      · exact apart_loadedNotice _

/-- What a command reports can be told from the notice. -/
theorem run_apart {text message : String} (ht : '\n' ∉ text.toList) {c : Command}
    (hc : Command.ofText text = .ok (some c)) {s : Session σ} (hp : PlainPaths s.config)
    (h : (s.run ui (load ui) (Text.trim text) c).1 = .ok message) : Apart message := by
  cases c with
  | act a =>
    simp only [run, act_fst, Action.execute_eq] at h
    obtain ⟨u, -, rfl⟩ := map_eq_ok h
    exact apart_message a
  | save kind path =>
    rw [run_save] at h
    cases hb : s.contents kind with
    | none =>
      rw [hb] at h
      cases h
    | some bytes =>
      rw [hb] at h
      obtain ⟨saved, -, rfl⟩ := map_eq_ok h
      exact apart_saveNotice kind (lineFeed_not_mem_saveTarget ht hc hp) saved
  | load kind path => exact load_apart ui h

/-- A blank line does nothing. Any other line without line feeds ends in a text for the user that
can be told from the notice. -/
theorem enter_told {text : String} (ht : '\n' ∉ text.toList) {s : Session σ}
    (hp : PlainPaths s.config) :
    (s.enter ui text).2 = s ∨
      ∃ told user, Apart told ∧ (s.enter ui text).2.user = ui.tell told user := by
  unfold enter enterWith
  obtain ⟨user, hh⟩ := hear_eq ui text s
  cases hc : Command.ofText text with
  | error e =>
    rw [hh, hc]
    exact .inr ⟨_, user, apart_error e, rfl⟩
  | ok command =>
    cases command with
    | none =>
      -- nothing is said of a blank line
      have hread : Line.read text = .ok none := by
        unfold Command.ofText at hc
        split at hc
        · cases hc
        · assumption
        · obtain ⟨c, -, he⟩ := map_eq_ok hc
          cases he
      unfold hear
      rw [hread]
      exact .inl rfl
    | some c =>
      rw [hh, hc]
      dsimp only
      have happart : ∀ message, (run ui (load ui) (Text.trim text) c { s with user }).1 =
          .ok message → Apart message := fun _ h => run_apart ui ht hc (s := { s with user }) hp h
      generalize run ui (load ui) (Text.trim text) c { s with user } = r at happart
      obtain ⟨outcome, s'⟩ := r
      cases outcome with
      | ok message => exact .inr ⟨message, s'.user, happart message rfl, rfl⟩
      | error e => exact .inr ⟨_, s'.user, apart_error e, rfl⟩

end Session

end TurtleGraphics
