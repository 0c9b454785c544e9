import Mathlib.Data.List.DropRight
import TurtleGraphics.Proofs.Session.Replaying
import TurtleGraphics.Proofs.Session.Retrace

/-!
# The history is the accepted lines

The account of a session says what its users have seen: the lines taken, typed or replayed, with
the outcome of each, and where replays began (`Session.account`). The history can be read off the
account: it holds the accepted lines that ask for an action, from where it last started anew
(`acceptedEntries`). A line keeps this when it does not load (`enterWith_entries`), so a replay
does, line by line (`feedAll_entries`), and a run (`live_account`).
-/

set_option autoImplicit false

namespace TurtleGraphics

theorem Action.purpose_eq (a : Action) :
    a.purpose = if a = .about then .audit else .replay := by
  cases a <;> rfl

/-! ## Accounts -/

/-- An entry of an account. -/
inductive Happening where
  | taken (text : String) (outcome : Except Error (Option String))
  | replayStarted

namespace Happening

/-- The history starts anew: with an accepted reset, an image that was loaded, a replay. -/
def clears : Happening → Bool
  | replayStarted => true
  | taken _ (.error _) => false
  | taken text (.ok message) =>
    match Command.ofText text with
    | .ok (some (.act a)) => a = .reset
    | .ok (some (.load .image _)) => message ≠ some "Load image cancelled."
    | _ => false

/-- What is on record of an accepted line that asks for an action other than a reset. -/
def recorded? : Happening → Option (String × Purpose)
  | replayStarted => none
  | taken _ (.error _) => none
  | taken text (.ok _) =>
    match Command.ofText text with
    | .ok (some (.act a)) =>
      if a = .reset then none
      else some (Text.trim text, if a = .about then .audit else .replay)
    | _ => none

section
variable {text : String} {outcome : Except Error (Option String)}

theorem clears_eq_false (ha : ∀ a, Command.ofText text ≠ .ok (some (.act a)))
    (hi : ∀ path, Command.ofText text ≠ .ok (some (.load .image path))) :
    (taken text outcome).clears = false := by
  cases outcome with
  | error e => rfl
  | ok message =>
    simp only [clears]

theorem recorded?_eq_none (ha : ∀ a, Command.ofText text ≠ .ok (some (.act a))) :
    (taken text outcome).recorded? = none := by
  cases outcome with
  | error e => rfl
  | ok message =>
    simp only [recorded?]

end

end Happening

/-- The entries of the lines that were accepted since the history last started anew. -/
def acceptedEntries (account : List Happening) : List (String × Purpose) :=
  (account.rtakeWhile (!·.clears)).filterMap (·.recorded?)

section
variable {account : List Happening} {h : Happening}

theorem acceptedEntries_clears (hc : h.clears = true) : acceptedEntries (account ++ [h]) = [] := by
  unfold acceptedEntries
  rw [List.rtakeWhile_concat_neg _ _ _ (by simp [hc])]
  rfl

theorem acceptedEntries_concat (hc : h.clears = false) :
    acceptedEntries (account ++ [h]) = acceptedEntries account ++ h.recorded?.toList := by
  unfold acceptedEntries
  rw [List.rtakeWhile_concat_pos _ _ _ (by simp [hc]), List.filterMap_append]
  cases he : h.recorded? <;> simp [he]

/-- A line that neither acts nor loads an image leaves what is on record as it is. -/
theorem acceptedEntries_other {text : String} (outcome : Except Error (Option String))
    (ha : ∀ a, Command.ofText text ≠ .ok (some (.act a)))
    (hi : ∀ path, Command.ofText text ≠ .ok (some (.load .image path))) :
    acceptedEntries (account ++ [.taken text outcome]) = acceptedEntries account := by
  rw [acceptedEntries_concat (Happening.clears_eq_false ha hi), Happening.recorded?_eq_none ha]
  exact List.append_nil _

end

namespace Session

variable {σ : Type} (ui : Dialogue σ)

/-- What happens in a replay. -/
def ReplayStart.happenings (r : ReplayStart σ) : List Happening :=
  .replayStarted :: (r.carried ui).map fun p => .taken p.1 (p.2.enter ui p.1).1

/-- What happens when a text is taken: what it replays stands in front of it. -/
def happenings (text : String) (s : Session σ) : List Happening :=
  (match s.replayStart? ui text with
    | some r => r.happenings ui
    | none => []) ++ [.taken text (s.enter ui text).1]

/-- What happens in a run. -/
def account : List (Event σ) → Session σ → List Happening
  | [], _ => []
  | event :: rest, s =>
    (match event with
      | .line text => s.happenings ui text
      | .aside _ _ _ => []) ++ account rest (s.meet ui event)

/-! ## Lines -/

section
variable {account : List Happening} {text : String} {s : Session σ}

/-- A line that loads nothing keeps the history what the account says. -/
theorem enterWith_entries (hn : ∀ kind path, Command.ofText text ≠ .ok (some (.load kind path)))
    (loads : Loader σ) (h : s.history.entries = acceptedEntries account) :
    (s.enterWith ui loads text).2.history.entries =
      acceptedEntries (account ++ [.taken text (s.enterWith ui loads text).1]) := by
  by_cases hc : ∃ c, Command.ofText text = .ok (some c)
  · obtain ⟨c, hc⟩ := hc
    obtain ⟨heard, told, he⟩ := enterWith_command ui loads hc s
    rw [he]
    cases c with
    | act a =>
      simp only [run]
      obtain ⟨e, hx⟩ | ⟨rfl, hx⟩ | ⟨ha, message, drawing, -, hx⟩ :=
        act_cases (Text.trim text) a { s with user := heard }
      all_goals rw [hx]
      · rw [acceptedEntries_concat rfl]
        exact h.trans (List.append_nil _).symm
      · have hr : (Happening.taken text (.ok (some (Action.message .reset)))).clears = true := by
          simp only [Happening.clears, hc, decide_true]
        exact (acceptedEntries_clears hr).symm
      · have hcl : (Happening.taken text (.ok (some message))).clears = false := by
          simp only [Happening.clears, hc, ha, decide_false]
        have hen : (Happening.taken text (.ok (some message))).recorded? =
            some (Text.trim text, a.purpose) := by
          simp only [Happening.recorded?, hc, ha, if_false, Action.purpose_eq]
        refine Eq.trans ?_ (acceptedEntries_concat hcl).symm
        rw [hen, ← h]
        exact History.entries_add _ _ _
    | save kind path =>
      have hw := SameWork.run_save ui loads (Text.trim text) kind path { s with user := heard }
      rw [acceptedEntries_other _ (by simp [hc]) (by simp [hc])]
      exact hw.entries.trans h
    | load kind path => exact absurd hc (hn kind path)
  · obtain ⟨user, result, he⟩ := enterWith_idle ui loads (fun c h => hc ⟨c, h⟩) s
    rw [he, acceptedEntries_other _ (fun a h => hc ⟨_, h⟩) (fun path h => hc ⟨_, h⟩)]
    exact h

/-- A replay keeps the history what the account says. -/
theorem feedAll_entries {lines : List String} {i : Nat} {sum : Tally}
    (h : s.history.entries = acceptedEntries account) :
    ((asTarget ui).feedAll lines i sum s).2.history.entries =
      acceptedEntries (account ++ ((asTarget ui).carried lines i sum s).map
        fun p => .taken p.1 (p.2.enterWith ui refuseLoad p.1).1) := by
  induction lines generalizing account i sum s with
  | nil => simpa [ReplayTarget.carried, ReplayTarget.feedAll] using h
  | cons line rest ih =>
    rw [feedAll_cons, carried_cons]
    split
    · simpa using h
    · cases hl : Line.isLoad line with
      | true =>
        simp only [if_true, List.nil_append, feed_load ui hl]
        exact ih h
      | false =>
        have hu := enterWith_entries ui (Command.ofText_ne_load hl) refuseLoad
          (s := { s with user := ui.showProgress i sum.total s.user }) h
        simp only [Bool.false_eq_true, if_false, List.map_append, feed_line ui hl]
        rw [ih hu, List.append_assoc]
        rfl

/-- Whatever happened before a replay, the history is what happens in it. -/
theorem ReplayStart.fed_entries (r : ReplayStart σ) (account : List Happening) :
    (r.fed ui).2.history.entries = acceptedEntries (account ++ r.happenings ui) := by
  have hready : (r.ready ui).history.entries = acceptedEntries (account ++ [.replayStarted]) :=
    (acceptedEntries_clears rfl).symm
  have hc : (r.carried ui).map (fun p => Happening.taken p.1 (p.2.enter ui p.1).1) =
      (r.carried ui).map (fun p => .taken p.1 (p.2.enterWith ui refuseLoad p.1).1) :=
    List.map_congr_left fun p hp => by rw [r.enter_of_mem_carried ui hp]
  unfold happenings
  rw [List.append_cons, hc]
  exact feedAll_entries ui hready

/-! ## Loads -/

theorem enter_loadImage_entries {path : Option Path}
    (hc : Command.ofText text = .ok (some (.load .image path)))
    (h : s.history.entries = acceptedEntries account) :
    (s.enter ui text).2.history.entries =
      acceptedEntries (account ++ [.taken text (s.enter ui text).1]) := by
  obtain ⟨told, he⟩ := enter_load ui hc s
  rw [he]
  have hkeep : ∀ outcome, (Happening.taken text outcome).clears = false →
      s.history.entries = acceptedEntries (account ++ [.taken text outcome]) := by
    intro outcome hcl
    rw [acceptedEntries_concat hcl, Happening.recorded?_eq_none (by simp [hc])]
    exact h.trans (List.append_nil _).symm
  cases hr : s.history.replaying with
  | true =>
    simp only [load, hr, if_true]
    exact hkeep _ rfl
  | false =>
    have hw := SameWork.mayDiscard ui "load image" s
    simp only [load, hr, Bool.false_eq_true, if_false]
    obtain ⟨s', hm, hl⟩ | ⟨s', e, hm, hl⟩ | ⟨s', bytes, hm, hl⟩ := loadImage_cases ui path s
    all_goals rw [hl]
    · rw [hm] at hw
      refine hw.entries.trans (hkeep _ ?_)
      simp [Happening.clears, hc, Except.map]
    · rw [hm] at hw
      exact hw.entries.trans (hkeep _ rfl)
    · refine (acceptedEntries_clears ?_).symm
      simp [Happening.clears, hc, Except.map, loadedNotice_ne_cancelled]

/-- Taking a typed line keeps the history what the account says. -/
theorem enter_entries (h : s.history.entries = acceptedEntries account) :
    (s.enter ui text).2.history.entries =
      acceptedEntries (account ++ s.happenings ui text) := by
  unfold happenings
  cases hr : s.replayStart? ui text with
  | some r =>
    obtain ⟨path, -, hc, -⟩ := replayStart?_eq_some hr
    obtain ⟨told, he⟩ := enter_replayStart hr
    -- the line itself comes last and leaves the history alone
    rw [he]
    dsimp only
    rw [← List.append_assoc, acceptedEntries_other _ (by simp [hc]) (by simp [hc])]
    exact r.fed_entries ui account
  | none =>
    by_cases hc : ∃ kind path, Command.ofText text = .ok (some (.load kind path))
    · obtain ⟨kind, path, hc⟩ := hc
      cases kind with
      | script =>
        have hw := sameWork_of_no_replayStart hr hc
        rw [List.nil_append, acceptedEntries_other _ (by simp [hc]) (by simp [hc])]
        exact hw.entries.trans h
      | image => exact enter_loadImage_entries ui hc h
    · exact enterWith_entries ui (fun kind path h => hc ⟨kind, path, h⟩) (load ui) h

end

/-! ## Runs -/

/-- A run keeps the history what the account says. -/
theorem live_account (events : List (Event σ)) {account : List Happening} {s : Session σ}
    (h : s.history.entries = acceptedEntries account) :
    (s.live ui events).history.entries =
      acceptedEntries (account ++ s.account ui events) := by
  induction events generalizing account s with
  | nil => simpa [Session.account, live] using h
  | cons event rest ih =>
    unfold Session.account
    rw [← List.append_assoc]
    cases event with
    | line text => exact ih (enter_entries ui h)
    | aside files user render =>
      rw [List.append_nil]
      exact ih (s := s.meet ui (.aside files user render)) h

theorem enterAll_eq_live (texts : List String) (s : Session σ) :
    s.enterAll ui texts = s.live ui (texts.map .line) := by
  rw [enterAll, live, List.foldl_map]
  rfl

end Session

/-! ## Records -/

/-- A line that is on record the way a script can hold it: trimmed, not blank, and still asking
for what it was recorded for. -/
structure Record.WellKept (r : Record) : Prop where
  trimmed : Text.trim r.line = r.line
  ne_empty : r.line ≠ ""
  acts : ∃ a, Command.ofText r.line = .ok (some (.act a)) ∧ a ≠ .reset ∧
    (r.purpose = .audit ↔ a = .about)

namespace Session

variable {σ : Type} (ui : Dialogue σ)

def WellKept (s : Session σ) : Prop := ∀ r ∈ s.history.records, r.WellKept

theorem WellKept.of_empty {s : Session σ} (h : s.history.records = []) : s.WellKept := by
  intro r hr
  rw [h] at hr
  cases hr

/-- Every deed keeps the records well kept. -/
theorem WellKept.change {d : Deed} {s t : Session σ} (h : Change d s t) (hs : s.WellKept) :
    t.WellKept := by
  cases h with
  | @draw s line message a drawing hl hc ha hx =>
    intro r hr
    rcases List.mem_append.1 hr with hr | hr
    · exact hs r hr
    · cases List.mem_singleton.1 hr
      refine ⟨hl, hl ▸ Command.trim_ne_empty_of_ofText hc, a, hc, ha, ?_⟩
      exact ⟨Action.purpose_eq_audit, fun h => h ▸ rfl⟩
  | talk user => exact hs
  | save hc hw => exact hs
  | failedSave hc hw => exact hs
  | finishReplay completed => exact hs
  | aside files user render => exact hs
  | reset => exact .of_empty rfl
  | background image => exact .of_empty rfl
  | startReplay => exact .of_empty rfl

/-- A run records well. -/
theorem live_wellKept (config : Config) (canvas : Canvas Float) (files : FileSystem) (user : σ)
    (events : List (Event σ)) : ((start config canvas files user).live ui events).WellKept :=
  (live_leads ui events _).keeps (fun _ _ _ _ hc hs => hs.change hc) (.of_empty rfl)

theorem WellKept.enterWith {s : Session σ} (hs : s.WellKept) {text : String}
    (hn : Line.isLoad text = false) (loads : Loader σ) : (s.enterWith ui loads text).2.WellKept :=
  (enterWith_leads ui loads text
    (fun kind path hc _ => absurd hc (Command.ofText_ne_load hn kind path)) s).keeps
    (fun _ _ _ _ hc hs => hs.change hc) hs

/-- The records are well kept in front of each line of a replay. -/
theorem ReplayStart.wellKept (r : ReplayStart σ) : ∀ p ∈ r.carried ui, p.2.WellKept :=
  (r.keeps ui (I := WellKept) (fun _ _ h => h) (fun _ _ _ h => h)
    (fun _ _ _ hl ht => ht.enterWith ui hl refuseLoad) (.of_empty rfl)).2

/-- The lines of well kept records are trimmed and not blank. -/
theorem WellKept.of_mem_scriptLines {s : Session σ} (hs : s.WellKept) {line : String}
    (hl : line ∈ s.history.scriptLines) : Text.trim line = line ∧ line ≠ "" := by
  obtain ⟨r, hr, rfl⟩ := List.mem_map.1 hl
  have hkept := hs r (List.mem_filter.1 hr).1
  exact ⟨hkept.trimmed, hkept.ne_empty⟩

/-- A save of well kept records writes their lines as they are. -/
theorem WellKept.encode_eq {s : Session σ} (hs : s.WellKept) :
    Script.encode s.history.scriptLines = Script.fileOf s.history.scriptLines :=
  Script.encode_eq_fileOf (fun _ hl => (hs.of_mem_scriptLines hl).1)
    fun _ hl => (hs.of_mem_scriptLines hl).2

/-- The file that a save writes has one line for each of them, if none holds a line feed. -/
theorem WellKept.decode_fileOf {s : Session σ} (hs : s.WellKept)
    (hlf : ∀ l ∈ s.history.scriptLines, '\n' ∉ l.toList) :
    Script.decode? (Script.fileOf s.history.scriptLines) = some ⟨s.history.scriptLines⟩ := by
  rw [← hs.encode_eq]
  refine Script.decode?_encode fun l hl => ?_
  obtain ⟨ht, hne⟩ := hs.of_mem_scriptLines hl
  exact ⟨ht, hne, hlf l hl⟩

/-- Whatever lines a session has taken, its history holds the accepted ones that ask for an
action, each once and in order, since it last started anew. So a line on record is trimmed, not
blank and no reset, save or load, and it is kept for the record only if it asks about the
program. -/
theorem records_accepted (config : Config) (canvas : Canvas Float) (files : FileSystem) (user : σ)
    (events : List (Event σ)) :
    let new := start config canvas files user
    let s := new.live ui events
    s.history.entries = acceptedEntries (new.account ui events) ∧ s.WellKept ∧
      ∀ texts, (s.enterAll ui texts).history.entries =
        acceptedEntries (new.account ui (events ++ texts.map .line)) := by
  intro new s
  have hnew : new.history.entries = acceptedEntries [] := rfl
  refine ⟨live_account ui events hnew, live_wellKept ui config canvas files user events,
    fun texts => ?_⟩
  have hlive : s.enterAll ui texts = new.live ui (events ++ texts.map .line) := by
    rw [enterAll_eq_live, live, live, List.foldl_append]
    rfl
  rw [hlive]
  exact live_account ui _ hnew

end Session

end TurtleGraphics
