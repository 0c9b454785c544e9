import TurtleGraphics.Proofs.Session.Snapshots

/-!
# What is unsaved

The dirty mark is there to keep a user from losing work, so it should be justified: if it is set
there is a line that a save would write. Lines that are on record for audit only do not set it.
Every deed keeps the mark justified (`Change.justified`) except the end of a replay that was
stopped: this sets the mark for any record at all. So the mark of a session is justified unless a
replay was stopped when it had recorded lines for audit and no others, and there was no snapshot
since (`dirty_hasWork`); right after such a replay it never is.
-/

set_option autoImplicit false

namespace TurtleGraphics

namespace History

/-- There is a line for a save to write. -/
def HasWork (h : History) : Prop := ∃ r ∈ h.records, r.purpose = .replay

instance (h : History) : Decidable h.HasWork :=
  inferInstanceAs (Decidable (∃ r ∈ h.records, r.purpose = .replay))

theorem scriptLines_eq_nil_iff (h : History) : h.scriptLines = [] ↔ ¬ h.HasWork := by
  simp [HasWork, scriptLines]

/-- If the history is dirty there is a line for a save to write. -/
def Justified (h : History) : Prop := h.dirty = true → h.HasWork

theorem Justified.of_clean {h : History} (hd : h.dirty = false) : h.Justified :=
  fun hd' => absurd (hd'.symm.trans hd) (by decide)

/-- A line that sets the mark is a line that a save writes. -/
theorem Justified.add {h : History} (hj : h.Justified) (line : String) (purpose : Purpose) :
    (h.add line purpose).Justified := by
  intro hd
  simp only [History.add, Bool.or_eq_true, beq_iff_eq] at hd
  rcases hd with hd | hp
  · obtain ⟨r, hr, hp⟩ := hj hd
    exact ⟨r, List.mem_append_left _ hr, hp⟩
  · exact ⟨⟨line, purpose, h.dirty⟩, List.mem_append_right _ (by simp), hp⟩

end History

namespace Session

variable {σ : Type}

theorem Change.justified {d : Deed} {s t : Session σ} (h : Change d s t)
    (hd : d ≠ .finishReplay false) (hs : s.history.Justified) : t.history.Justified := by
  cases h with
  | talk user => exact hs
  | save hc hw => exact .of_clean rfl
  | failedSave hc hw => exact hs
  | draw hl hc ha hx => exact hs.add _ _
  | reset => exact .of_clean rfl
  | background image => exact .of_clean rfl
  | startReplay => exact .of_clean rfl
  | finishReplay s completed =>
    cases completed with
    | true => exact .of_clean rfl
    | false => exact absurd rfl hd
  | aside files user render => exact hs

section
variable (ui : Dialogue σ)

/-! ## Replays -/

/-- Taking the text replays a script that the user stops when there are lines on record, but none
for a save to write. -/
def StopsIdle (text : String) (s : Session σ) : Prop :=
  ∃ r, s.replayStart? ui text = some r ∧ (r.run ui).1.cancelled = true ∧
    (r.run ui).2.history.records ≠ [] ∧ ¬ (r.run ui).2.history.HasWork

theorem ReplayStart.run_dirty_iff (r : ReplayStart σ) :
    (r.run ui).2.history.dirty = true ↔
      (r.run ui).1.cancelled = true ∧ (r.run ui).2.history.records ≠ [] := by
  simp [r.run_dirty]

variable {ui} {text : String} {s : Session σ}

/-- After a load that was stopped too early there is nothing to save, and yet it is unsaved. -/
theorem StopsIdle.dirty (h : StopsIdle ui text s) :
    (s.enter ui text).2.history.dirty = true ∧ (s.enter ui text).2.history.scriptLines = [] := by
  obtain ⟨r, hr, hx, hne, hw⟩ := h
  obtain ⟨told, he⟩ := enter_replayStart hr
  rw [he]
  exact ⟨(r.run_dirty_iff ui).2 ⟨hx, hne⟩, ((r.run ui).2.history.scriptLines_eq_nil_iff).2 hw⟩

/-! ## Lines -/

/-- A replay leaves the mark justified, whatever it was, unless it is stopped too early. -/
theorem enter_replay_justified {r : ReplayStart σ} (hr : s.replayStart? ui text = some r)
    (hi : ¬ StopsIdle ui text s) : (s.enter ui text).2.history.Justified := by
  obtain ⟨told, he⟩ := enter_replayStart hr
  rw [he]
  intro hd
  obtain ⟨hx, hne⟩ := (r.run_dirty_iff ui).1 hd
  by_contra hw
  exact hi ⟨r, hr, hx, hne, hw⟩

theorem enter_justified (hn : s.history.replaying = false) (hs : s.history.Justified)
    (hi : ¬ StopsIdle ui text s) : (s.enter ui text).2.history.Justified := by
  by_cases hc : ∃ path, Command.ofText text = .ok (some (.load .script path))
  · obtain ⟨path, hc⟩ := hc
    cases hr : s.replayStart? ui text with
    | some r => exact enter_replay_justified hr hi
    | none =>
      obtain ⟨told, outcome, he⟩ := enter_of_no_replayStart hr hc hn
      rw [he]
      obtain ⟨-, user, target, files, -, hm⟩ | ⟨-, yes, user, target, files, -, hm⟩ :=
        mayDiscard_cases ui "load commands" s
      all_goals rw [hm]
      · exact .of_clean rfl
      · exact hs
  · -- only a load of a script ends a replay
    refine (enter_leads ui text s).keeps (fun d s t hd h hs => h.justified ?_ hs) hs
    rintro rfl
    cases hd with
    | finishReplay _ h => exact hc ⟨_, h⟩
    | replayed h _ _ _ => exact hc ⟨_, h⟩

/-- If unsaved changes are saved first, a load that replays nothing leaves nothing unsaved. -/
theorem enter_clean_of_firstSnapshot (hr : s.replayStart? ui text = none)
    (h : s.firstSnapshot ui text ≠ []) : (s.enter ui text).2.history.dirty = false := by
  unfold firstSnapshot at h
  split at h
  · rename_i kind path hc
    split at h
    · rename_i hs
      obtain ⟨hn, hs⟩ := hs
      obtain ⟨-, user, target, files, -, hm⟩ | ⟨hs', -⟩ := mayDiscard_cases ui (intention kind) s
      · cases kind with
        | script =>
          obtain ⟨told, outcome, he⟩ := enter_of_no_replayStart hr hc hn
          have hm' : s.mayDiscard ui "load commands" = _ := hm
          rw [he, hm']
          rfl
        | image =>
          obtain ⟨told, he⟩ := enter_load ui hc s
          have hm' : s.mayDiscard ui "load image" = _ := hm
          rw [he]
          simp only [load, hn, Bool.false_eq_true, if_false]
          obtain ⟨s', ha, hl⟩ | ⟨s', e, ha, hl⟩ | ⟨s', bytes, ha, hl⟩ := loadImage_cases ui path s
          all_goals rw [hl]; cases hm'.symm.trans ha
          · rfl
          · rfl
      · exact absurd hs hs'
    · exact absurd rfl h
  · exact absurd rfl h

/-- Whatever was unsaved before a snapshot does not matter any more. -/
theorem enter_justified_of_snapshot (hi : ¬ StopsIdle ui text s)
    (h : s.lineSnapshots ui text ≠ []) : (s.enter ui text).2.history.Justified := by
  cases hr : s.replayStart? ui text with
  | some r => exact enter_replay_justified hr hi
  | none =>
    refine .of_clean ?_
    by_cases hf : s.firstSnapshot ui text = []
    · have he : s.endSnapshot text (s.enter ui text) ≠ [] := by
        simpa [lineSnapshots, hr, hf] using h
      obtain ⟨h', hm⟩ := List.exists_mem_of_ne_nil _ he
      unfold endSnapshot at he
      split at he
      · rename_i hs
        exact settles_clean hs
      · exact absurd rfl he
    · exact enter_clean_of_firstSnapshot hr hf

/-- If the mark is not justified after a run, then a load was stopped too early and there was no
snapshot since, or it has not been justified all along. -/
theorem live_unjustified (events : List (Event σ)) (hn : s.history.replaying = false)
    (h : ¬ (s.live ui events).history.Justified) :
    (∃ before text after, events = before ++ .line text :: after ∧
      StopsIdle ui text (s.live ui before) ∧
      ((s.live ui before).enter ui text).2.snapshots ui after = []) ∨
    ¬ s.history.Justified ∧ s.snapshots ui events = [] := by
  induction events generalizing s with
  | nil => exact .inr ⟨h, rfl⟩
  | cons event rest ih =>
    have hn' : (s.meet ui event).history.replaying = false := live_replaying ui [event] hn
    obtain ⟨before, text, after, he, hi, hs⟩ | ⟨hj, hs⟩ := ih hn' h
    · exact .inl ⟨event :: before, text, after, by rw [he]; rfl, hi, hs⟩
    · cases event with
      | aside files user render => exact .inr ⟨hj, hs⟩
      | line text =>
        by_cases hi : StopsIdle ui text s
        · exact .inl ⟨[], text, rest, rfl, hi, hs⟩
        · refine .inr ⟨fun hj' => hj (enter_justified hn hj' hi), ?_⟩
          have hl : s.lineSnapshots ui text = [] :=
            Decidable.byContradiction fun hl => hj (enter_justified_of_snapshot hi hl)
          simp only [snapshots, hl, List.nil_append]
          exact hs

end

/-- If something is unsaved there is a line for a save to write, unless some replay of the run was
stopped when it had recorded lines for audit only, and nothing was saved or begun anew since then.
Such a load leaves a dirty session without a line to write. -/
theorem dirty_hasWork (ui : Dialogue σ) (config : Config) (canvas : Canvas Float)
    (files : FileSystem) (user : σ) (events : List (Event σ)) :
    let new := start config canvas files user
    let s := new.live ui events
    (s.history.dirty = true → s.history.HasWork ∨
        ∃ before text after, events = before ++ .line text :: after ∧
          StopsIdle ui text (new.live ui before) ∧
          ((new.live ui before).enter ui text).2.snapshots ui after = []) ∧
      ∀ text, StopsIdle ui text s →
        (s.enter ui text).2.history.dirty = true ∧
          (s.enter ui text).2.history.scriptLines = [] := by
  intro new s
  refine ⟨fun hd => ?_, fun text h => h.dirty⟩
  by_cases hw : s.history.HasWork
  · exact .inl hw
  · have hj : ¬ s.history.Justified := fun hj => hw (hj hd)
    obtain hstop | ⟨hnew, -⟩ := live_unjustified (s := new) events rfl hj
    · exact .inr hstop
    · exact absurd (History.Justified.of_clean rfl) hnew

/-! ## A script of lines for audit -/

theorem enterWith_about (limit : Nat) (loads : Loader Nat) (s : Session Nat) :
    s.enterWith (stopsAfter limit) loads "about" =
      (.ok (some (Action.message .about)), { s with history := s.history.add "about" .audit }) := by
  have hr : Line.read "about" = .ok (some ⟨.about, none, none⟩) := by cbv
  have ht : Text.trim "about" = "about" := by cbv
  unfold enterWith
  rw [hear_of_read (stopsAfter limit) hr rfl rfl s, ht]
  rfl

/-- A load that is stopped when it has shown the help text leaves a dirty session in which there is
nothing to save. -/
theorem stopped_about_dirties :
    let s := (withScript ["about", "about"]).live (stopsAfter 1) [.line "load commands drawing.txt"]
    s.history.dirty = true ∧ ¬ s.history.HasWork := by
  have hlines : ∀ l ∈ ["about", "about"], Script.IsLine l := by
    intro l hl
    obtain rfl : l = "about" := by simpa using hl
    exact ⟨by cbv, by decide, by decide⟩
  have hl : Line.isLoad "about" = false := by cbv
  have hrun : (ReplayStart.run (stopsAfter 1)
      ⟨⟨"drawing.txt"⟩, ⟨["about", "about"]⟩, withScript ["about", "about"]⟩).2.history =
      ⟨[⟨"about", .audit, false⟩], true, false⟩ := by
    unfold ReplayStart.run replayFile replay ReplayTarget.replay
    rw [feedAll_applied (stopsAfter 1) hl rfl (enterWith_about 1 refuseLoad _)]
    rfl
  obtain ⟨told, he⟩ := enter_replayStart (withScript_replayStart (stopsAfter 1) hlines)
  intro s
  have hs : s.history = ⟨[⟨"about", .audit, false⟩], true, false⟩ :=
    (congrArg (fun r => r.2.history) he).trans hrun
  rw [hs]
  decide

end Session

end TurtleGraphics
