import TurtleGraphics.Proofs.Session.Replaying
import TurtleGraphics.Proofs.Session.Retrace

/-!
# Nothing new since the last snapshot

Whenever nothing is unsaved any more, the history is a snapshot: when a session starts, when the
commands or the image were saved, when the history starts anew, and when a replay is over that was
not stopped. `Session.snapshots` lists the snapshots of a run in order; none of them is dirty
(`snapshots_clean`). From one to the next the lines to replay only grow, and what makes them grow
makes the session dirty (`History.UpToDate`). Every line keeps this (`enter_upToDate`), those of a
replay included (`feedAll_upToDate`); so a session that is not dirty has the lines of its last
snapshot (`clean_eq_lastSnapshot`).
-/

set_option autoImplicit false

namespace TurtleGraphics

theorem getLastD_append {α : Type} (as bs : List α) (a : α) :
    (as ++ bs).getLastD a = bs.getLastD (as.getLastD a) := by
  simp only [List.getLastD_eq_getLast?, List.getLast?_append]
  cases bs.getLast? with
  | some b => rfl
  | none => rfl

/-! ## Histories -/

namespace History

/-- The lines to replay are those of an earlier history and what was added since, and nothing was
if the history is not dirty. -/
structure UpToDate (h last : History) : Prop where
  grown : last.scriptLines <+: h.scriptLines
  clean : h.dirty = false → h.scriptLines = last.scriptLines

namespace UpToDate

theorem refl (h : History) : h.UpToDate h := ⟨List.prefix_rfl, fun _ => rfl⟩

variable {h last : History}

theorem add (hu : h.UpToDate last) (line : String) (purpose : Purpose) :
    (h.add line purpose).UpToDate last := by
  refine ⟨?_, fun hd => ?_⟩
  · rw [scriptLines_add]
    exact hu.grown.trans (List.prefix_append _ _)
  · -- a line that is kept for replaying would have made the history dirty
    obtain ⟨hclean, hp⟩ : h.dirty = false ∧ purpose ≠ .replay := by
      simpa [History.add] using hd
    rw [scriptLines_add, if_neg hp, List.append_nil]
    exact hu.clean hclean

/-- A stopped replay is dirty if it has recorded anything. -/
theorem finishReplay_stopped (hu : h.UpToDate last) : (h.finishReplay false).UpToDate last := by
  refine ⟨hu.grown, fun hd => ?_⟩
  have hr : h.records = [] := by simpa [finishReplay] using hd
  have hl : (h.finishReplay false).scriptLines = [] := by
    simp [scriptLines, finishReplay, hr]
  have hlast : last.scriptLines <+: (h.finishReplay false).scriptLines := hu.grown
  rw [hl, List.prefix_nil] at hlast
  rw [hl, hlast]

end UpToDate

end History

/-! ## Snapshots -/

namespace Session

variable {σ : Type}

/-- The outcome of a line taken in `s` says that nothing is unsaved any more: it was a save or a
reset, or it has set a background. Loads of scripts are not meant. -/
def settles (text : String) (outcome : Except Error (Option String)) (s : Session σ) : Bool :=
  match Command.ofText text, outcome with
  | .ok (some (.act a)), .ok _ => a = .reset
  | .ok (some (.save kind path)), .ok message =>
    message = some (saveNotice kind (s.saveTarget kind path) true)
  | .ok (some (.load .image path)), .ok message =>
    message = some (loadedNotice (path.getD s.config.imagePath))
  | _, _ => false

/-- The snapshot with which a line ends that was taken in `s` with result `r`. -/
def endSnapshot (text : String) (s : Session σ)
    (r : Except Error (Option String) × Session σ) : List History :=
  if settles text r.1 s then [r.2.history] else []

variable (ui : Dialogue σ)

instance (intention : String) (s : Session σ) : Decidable (SavesFirst ui intention s) :=
  let answer := ui.askUnsaved (unsavedQuestion intention) s.user
  decidable_of_iff
    (s.history.dirty = true ∧ answer.1 = .saveFirst ∧
      (saveFirst ui { s with user := answer.2 }).1 = true) <| by
    refine and_congr_right fun _ => ⟨fun ⟨hd, hs⟩ => ⟨answer.2, Prod.ext hd rfl, hs⟩, ?_⟩
    rintro ⟨user, ha, hs⟩
    simp only [answer, ha, hs, and_self]

/-- The snapshot in front of a load that has unsaved changes saved first. -/
def firstSnapshot (text : String) (s : Session σ) : List History :=
  match Command.ofText text with
  | .ok (some (.load kind _)) =>
    if s.history.replaying = false ∧ SavesFirst ui (intention kind) s then
      [(s.mayDiscard ui (intention kind)).2.history]
    else []
  | _ => []

/-- The snapshots of a replay: at its start, with each line that leaves nothing unsaved, and at its
end unless it was stopped. -/
def ReplayStart.snapshots (r : ReplayStart σ) : List History :=
  (r.ready ui).history ::
    (r.carried ui).flatMap (fun p => p.2.endSnapshot p.1 (p.2.enter ui p.1)) ++
    if (r.run ui).1.cancelled then [] else [(r.run ui).2.history]

/-- The snapshots while a text is taken. -/
def lineSnapshots (text : String) (s : Session σ) : List History :=
  s.firstSnapshot ui text ++
    match s.replayStart? ui text with
    | some r => r.snapshots ui
    | none => s.endSnapshot text (s.enter ui text)

/-- The snapshots of a run. -/
def snapshots : List (Event σ) → Session σ → List History
  | [], _ => []
  | event :: rest, s =>
    (match event with
      | .line text => s.lineSnapshots ui text
      | .aside _ _ _ => []) ++ snapshots rest (s.meet ui event)

/-! ## Lines -/

section
variable {ui} {text : String} {s : Session σ} {last : History}

/-- A history is up to date with itself, so only lines that are no snapshot matter. -/
theorem endSnapshot_upToDate {r : Except Error (Option String) × Session σ}
    (h : settles text r.1 s = false → r.2.history.UpToDate last) :
    r.2.history.UpToDate ((s.endSnapshot text r).getLastD last) := by
  unfold endSnapshot
  cases hs : settles text r.1 s with
  | true => exact .refl _
  | false => exact h hs

/-- An action that is no reset adds its line at most. -/
theorem act_upToDate {line : String} {a : Action} (hu : s.history.UpToDate last)
    (h : a = .reset → ∀ message, (s.act line a).1 ≠ .ok message) :
    (s.act line a).2.history.UpToDate last := by
  obtain ⟨e, he⟩ | ⟨ha, he⟩ | ⟨ha, message, drawing, -, he⟩ := act_cases line a s
  all_goals rw [he] at h ⊢
  · exact hu
  · exact absurd rfl (h ha _)
  · exact hu.add line a.purpose

/-- A save that is not reported as done leaves the history. -/
theorem save_upToDate {loads : Loader σ} {line : String} {kind : FileKind} {path : Option Path}
    (hu : s.history.UpToDate last)
    (h : (s.run ui loads line (.save kind path)).1 ≠
      .ok (saveNotice kind (s.saveTarget kind path) true)) :
    (s.run ui loads line (.save kind path)).2.history.UpToDate last := by
  obtain ⟨bytes, user, files, -, -, he⟩ | ⟨user, files, outcome, -, -, he⟩ :=
    run_save_cases ui loads line kind path s
  all_goals rw [he] at h ⊢
  · exact absurd rfl h
  · exact hu

/-- A line that loads nothing keeps the history up to date. -/
theorem enterWith_upToDate (hn : ∀ kind path, Command.ofText text ≠ .ok (some (.load kind path)))
    (loads : Loader σ) (hu : s.history.UpToDate last) :
    let r := s.enterWith ui loads text
    r.2.history.UpToDate ((s.endSnapshot text r).getLastD last) := by
  refine endSnapshot_upToDate fun hs => ?_
  by_cases hc : ∃ c, Command.ofText text = .ok (some c)
  · obtain ⟨c, hc⟩ := hc
    obtain ⟨heard, told, he⟩ := enterWith_command ui loads hc s
    rw [he] at hs ⊢
    simp only [settles, hc] at hs
    cases c with
    | act a =>
      refine act_upToDate (s := { s with user := heard }) hu fun ha message hm => ?_
      simp only [run] at hs
      rw [hm] at hs
      simp [ha, Except.map] at hs
    | save kind path =>
      refine save_upToDate (s := { s with user := heard }) hu fun hm => ?_
      rw [hm] at hs
      simp [Except.map] at hs
    | load kind path => exact absurd hc (hn kind path)
  · obtain ⟨user, result, he⟩ := enterWith_idle ui loads (fun c h => hc ⟨c, h⟩) s
    rw [he]
    exact hu

end

/-! ## Loads -/

section
variable {ui} {last : History}

/-- The lines of a replay keep the history up to date. -/
theorem feedAll_upToDate (lines : List String) (i : Nat) (sum : Tally) {s : Session σ}
    (hu : s.history.UpToDate last) :
    ((asTarget ui).feedAll lines i sum s).2.history.UpToDate
      ((((asTarget ui).carried lines i sum s).flatMap
        fun p => p.2.endSnapshot p.1 (p.2.enter ui p.1)).getLastD last) := by
  induction lines generalizing i sum s last with
  | nil => exact hu
  | cons line rest ih =>
    rw [feedAll_cons, carried_cons]
    split
    · exact hu
    · cases hl : Line.isLoad line with
      | true =>
        simp only [if_true, List.nil_append, feed_load ui hl]
        exact ih _ _ hu
      | false =>
        simp only [Bool.false_eq_true, if_false, List.singleton_append, List.flatMap_cons,
          getLastD_append, feed_line ui hl]
        refine ih _ _ ?_
        unfold enter
        rw [enterWith_eq_of_not_isLoad ui hl (load ui) refuseLoad]
        exact enterWith_upToDate (Command.ofText_ne_load hl) refuseLoad hu

/-- A replay starts from nothing unsaved. It ends so too, or it was stopped and its lines have kept
the history up to date. -/
theorem ReplayStart.upToDate (r : ReplayStart σ) :
    (r.run ui).2.history.UpToDate ((r.snapshots ui).getLastD last) := by
  have hfed : (r.fed ui).2.history.UpToDate _ :=
    feedAll_upToDate r.script.lines 1 _ (.refl (r.ready ui).history)
  have hrun : (r.run ui).2.history =
      (r.fed ui).2.history.finishReplay (!(r.run ui).1.cancelled) := rfl
  unfold ReplayStart.snapshots
  rw [getLastD_append, List.getLastD_cons]
  cases hx : (r.run ui).1.cancelled with
  | true =>
    rw [hrun, hx]
    exact hfed.finishReplay_stopped
  | false => exact .refl _

variable {text : String} {s : Session σ}

/-- Saving unsaved changes first leaves the lines as they are, and nothing unsaved. -/
theorem mayDiscard_upToDate {kind : FileKind} {path : Option Path}
    (hc : Command.ofText text = .ok (some (.load kind path))) (hn : s.history.replaying = false)
    (hu : s.history.UpToDate last) :
    (s.mayDiscard ui (intention kind)).2.history.UpToDate
      ((s.firstSnapshot ui text).getLastD last) := by
  simp only [firstSnapshot, hc, hn, true_and]
  split
  · exact .refl _
  · rename_i hs
    obtain ⟨hs', -⟩ | ⟨-, yes, user, target, files, -, he⟩ :=
      mayDiscard_cases ui (intention kind) s
    · exact absurd hs' hs
    · rw [he]
      exact hu

/-- A load of an image that is not reported as done has only asked about unsaved changes. -/
theorem enter_loadImage_upToDate {path : Option Path}
    (hc : Command.ofText text = .ok (some (.load .image path))) (hn : s.history.replaying = false)
    (hu : (s.mayDiscard ui "load image").2.history.UpToDate last) :
    (s.enter ui text).2.history.UpToDate
      ((s.endSnapshot text (s.enter ui text)).getLastD last) := by
  refine endSnapshot_upToDate fun hs => ?_
  obtain ⟨told, he⟩ := enter_load ui hc s
  rw [he] at hs ⊢
  simp only [settles, hc, load, hn, Bool.false_eq_true, if_false] at hs ⊢
  have hw := SameWork.mayDiscard ui "load image" s
  obtain ⟨s', hm, hl⟩ | ⟨s', e, hm, hl⟩ | ⟨s', bytes, hm, hl⟩ := loadImage_cases ui path s
  all_goals rw [hm] at hu hw; rw [hl] at hs ⊢
  · exact hu
  · exact hu
  · have hp : s'.config.imagePath = s.config.imagePath := congrArg Config.imagePath hw.config
    simp [Except.map, hp] at hs

/-- Every line keeps the history up to date. -/
theorem enter_upToDate (hn : s.history.replaying = false) (hu : s.history.UpToDate last) :
    (s.enter ui text).2.history.UpToDate ((s.lineSnapshots ui text).getLastD last) := by
  unfold lineSnapshots
  rw [getLastD_append]
  by_cases hc : ∃ kind path, Command.ofText text = .ok (some (.load kind path))
  · obtain ⟨kind, path, hc⟩ := hc
    have hm : (s.mayDiscard ui (intention kind)).2.history.UpToDate _ :=
      mayDiscard_upToDate hc hn hu
    cases hr : s.replayStart? ui text with
    | some r =>
      obtain ⟨told, he⟩ := enter_replayStart hr
      rw [he]
      exact r.upToDate
    | none =>
      cases kind with
      | image => exact enter_loadImage_upToDate hc hn hm
      | script =>
        obtain ⟨told, outcome, he⟩ := enter_of_no_replayStart hr hc hn
        refine endSnapshot_upToDate fun _ => ?_
        rw [he]
        exact hm
  · have hl : ∀ kind path, Command.ofText text ≠ .ok (some (.load kind path)) :=
      fun kind path h => hc ⟨kind, path, h⟩
    have hr : s.replayStart? ui text = none := by
      cases hr : s.replayStart? ui text with
      | none => rfl
      | some r =>
        obtain ⟨path, -, hc, -⟩ := replayStart?_eq_some hr
        exact absurd hc (hl _ _)
    have hf : s.firstSnapshot ui text = [] := by
      unfold firstSnapshot
      split
      · rename_i hc
        exact absurd hc (hl _ _)
      · rfl
    rw [hr, hf]
    exact enterWith_upToDate hl (load ui) hu

/-- So does every run. -/
theorem live_upToDate (events : List (Event σ)) (hn : s.history.replaying = false)
    (hu : s.history.UpToDate last) :
    (s.live ui events).history.UpToDate ((s.snapshots ui events).getLastD last) := by
  induction events generalizing s last with
  | nil => exact hu
  | cons event rest ih =>
    have hn' : (s.meet ui event).history.replaying = false := live_replaying ui [event] hn
    unfold snapshots
    rw [getLastD_append]
    refine ih hn' ?_
    cases event with
    | line text => exact enter_upToDate hn hu
    | aside files user render => exact hu

end

/-! ## Nothing unsaved -/

section
variable {ui}

/-- A save that is reported as done leaves nothing unsaved. -/
theorem save_clean {loads : Loader σ} {line : String} {kind : FileKind} {path : Option Path}
    {s : Session σ} (h : (s.run ui loads line (.save kind path)).1 =
      .ok (saveNotice kind (s.saveTarget kind path) true)) :
    (s.run ui loads line (.save kind path)).2.history.dirty = false := by
  obtain ⟨bytes, user, files, -, -, he⟩ | ⟨user, files, outcome, -, hne, he⟩ :=
    run_save_cases ui loads line kind path s
  all_goals rw [he] at h ⊢
  · rfl
  · exact absurd h hne

/-- A load of an image that is reported as done leaves nothing unsaved. -/
theorem loadImage_clean {path : Option Path} {s : Session σ} {image : Path}
    (h : (s.loadImage ui path).1 = .ok (loadedNotice image)) :
    (s.loadImage ui path).2.history.dirty = false := by
  obtain ⟨s', -, he⟩ | ⟨s', e, -, he⟩ | ⟨s', bytes, -, he⟩ := loadImage_cases ui path s
  all_goals rw [he] at h ⊢
  · exact absurd (Except.ok.inj h).symm (loadedNotice_ne_cancelled image)
  · cases h
  · rfl

/-- What is said of a line is true: a line that settles leaves nothing unsaved. -/
theorem settles_clean {text : String} {s : Session σ}
    (h : settles text (s.enter ui text).1 s = true) :
    (s.enter ui text).2.history.dirty = false := by
  unfold settles at h
  split at h
  · rename_i a message hc hm
    have ha : a = .reset := by simpa using h
    obtain ⟨heard, told, he⟩ := enterWith_command ui (load ui) hc s
    unfold enter
    rw [he, ha]
    rfl
  · rename_i kind path message hc hm
    obtain ⟨heard, told, he⟩ := enterWith_command ui (load ui) hc s
    unfold enter at hm ⊢
    rw [he] at hm ⊢
    obtain ⟨notice, hr, hn⟩ := map_eq_ok hm
    have hs : notice = saveNotice kind (s.saveTarget kind path) true := by simpa [← hn] using h
    exact save_clean (by rw [hr, hs, saveTarget_user kind path s heard])
  · rename_i path message hc hm
    obtain ⟨told, he⟩ := enter_load ui hc s
    rw [he] at hm ⊢
    obtain ⟨notice, hr, hn⟩ := map_eq_ok hm
    have hs : notice = loadedNotice (path.getD s.config.imagePath) := by simpa [← hn] using h
    rw [hs] at hr
    unfold load at hr ⊢
    split at hr
    · cases hr
    · rename_i hreplaying
      rw [if_neg hreplaying]
      exact loadImage_clean hr
  · cases h

theorem endSnapshot_clean {text : String} {s : Session σ} :
    ∀ h ∈ s.endSnapshot text (s.enter ui text), h.dirty = false := by
  intro h hm
  unfold endSnapshot at hm
  split at hm
  · rename_i hs
    rw [List.mem_singleton.1 hm]
    exact settles_clean hs
  · cases hm

theorem ReplayStart.snapshots_clean (r : ReplayStart σ) :
    ∀ h ∈ r.snapshots ui, h.dirty = false := by
  intro h hm
  unfold ReplayStart.snapshots at hm
  simp only [List.cons_append, List.mem_cons, List.mem_append, List.mem_flatMap] at hm
  obtain rfl | ⟨p, -, hp⟩ | hm := hm
  · rfl
  · exact endSnapshot_clean h hp
  · cases hx : (r.run ui).1.cancelled with
    | true => simp [hx] at hm
    | false =>
      have hh : h = (r.run ui).2.history := by simpa [hx] using hm
      rw [hh, r.run_dirty, hx, Bool.false_and]

theorem firstSnapshot_clean {text : String} {s : Session σ} :
    ∀ h ∈ s.firstSnapshot ui text, h.dirty = false := by
  intro h hm
  unfold firstSnapshot at hm
  split at hm
  · rename_i kind path hc
    split at hm
    · rename_i hs
      rw [List.mem_singleton.1 hm]
      obtain ⟨-, user, target, files, -, he⟩ | ⟨hs', -⟩ := mayDiscard_cases ui (intention kind) s
      · rw [he]
        rfl
      · exact absurd hs.2 hs'
    · cases hm
  · cases hm

/-- At a snapshot nothing is unsaved. -/
theorem snapshots_clean (events : List (Event σ)) (s : Session σ) :
    ∀ h ∈ s.snapshots ui events, h.dirty = false := by
  induction events generalizing s with
  | nil => simp [snapshots]
  | cons event rest ih =>
    intro h hm
    unfold snapshots at hm
    rcases List.mem_append.1 hm with hm | hm
    · cases event with
      | line text =>
        rcases List.mem_append.1 hm with hm | hm
        · exact firstSnapshot_clean h hm
        · split at hm
          · exact ReplayStart.snapshots_clean _ h hm
          · exact endSnapshot_clean h hm
      | aside files user render => cases hm
    · exact ih _ h hm

end

/-- A session that is not dirty has the lines to replay that it had when nothing was unsaved the
last time: at its start, after a save or a reset or when an image was loaded, at the start of a
replay or at the end of one that was not stopped. Lines are only added to these in between. -/
theorem clean_eq_lastSnapshot (ui : Dialogue σ) (config : Config) (canvas : Canvas Float)
    (files : FileSystem) (user : σ) (events : List (Event σ)) :
    let new := start config canvas files user
    let s := new.live ui events
    let last := (new.snapshots ui events).getLastD new.history
    (∀ h ∈ new.snapshots ui events, h.dirty = false) ∧
      last.scriptLines <+: s.history.scriptLines ∧
      (s.history.dirty = false → s.history.scriptLines = last.scriptLines) := by
  intro new s last
  have hu : s.history.UpToDate last := live_upToDate (s := new) events rfl (.refl new.history)
  exact ⟨snapshots_clean events new, hu.grown, hu.clean⟩

end Session

end TurtleGraphics
