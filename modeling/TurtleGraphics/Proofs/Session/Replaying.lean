import TurtleGraphics.Proofs.Command.Errors
import TurtleGraphics.Proofs.Session.Asking
import TurtleGraphics.Proofs.Session.Loading

/-!
# Replays are one level deep

`Session.replayed` lists the lines that taking a typed text replays, each with the session that
takes it. None of them loads, so each is taken as a typed line is; while a script is replayed such
a line asks the user nothing (`enterWith_silent`), and no replay starts or ends with it
(`enterWith_replaying`). What every line keeps the replay keeps (`ReplayStart.keeps`). So it does
not matter what a load inside a replay would do: loading, as a step that leaves this open, has one
solution (`loadWith_eq_load`).
-/

set_option autoImplicit false

namespace TurtleGraphics

/-! ## Lines carried out -/

namespace ReplayTarget

variable {σ : Type} (target : ReplayTarget σ)

/-- The lines that are carried out, each with the state it is carried out in. -/
def carried : List String → Nat → Tally → σ → List (String × σ)
  | [], _, _, _ => []
  | line :: rest, i, sum, s =>
    if target.stopRequested s then []
    else
      let ready := target.showProgress i sum.total s
      let fed := target.feed line sum ready
      (if Line.isLoad line then [] else [(line, ready)]) ++ carried rest (i + 1) fed.1 fed.2

theorem feed_tally (line : String) (sum : Tally) (s : σ) :
    (target.feed line sum s).1.processed = sum.processed + 1 ∧
      (target.feed line sum s).1.cancelled = sum.cancelled := by
  unfold feed
  split
  · refine ⟨?_, rfl⟩
    simp only [Tally.processed]
    omega
  · split
    all_goals
      refine ⟨?_, rfl⟩
      simp only [Tally.processed]
      omega

/-- The lines carried out are those of the first `k` that do not load, where `k` is how many were
dealt with; the replay was stopped if these are not all. -/
theorem carried_lines (lines : List String) (i : Nat) (sum : Tally) (s : σ)
    (hc : sum.cancelled = false) :
    ∃ k ≤ lines.length, (target.feedAll lines i sum s).1.processed = sum.processed + k ∧
      ((target.feedAll lines i sum s).1.cancelled = true ↔ k < lines.length) ∧
      (target.carried lines i sum s).map (·.1) = Session.typedLines (lines.take k) := by
  induction lines generalizing i sum s with
  | nil => exact ⟨0, Nat.le_refl 0, rfl, by simp [feedAll, hc], rfl⟩
  | cons line rest ih =>
    unfold feedAll carried
    split
    · exact ⟨0, Nat.zero_le _, rfl, by simp, rfl⟩
    · obtain ⟨hp, hc'⟩ := target.feed_tally line sum (target.showProgress i sum.total s)
      obtain ⟨k, hk, hpk, hck, hl⟩ := ih (i + 1) _ _ (hc'.trans hc)
      refine ⟨k + 1, by simpa using hk, ?_, ?_, ?_⟩
      · rw [hpk, hp]
        omega
      · simpa using hck
      · rw [List.map_append, hl, List.take_succ_cons]
        unfold Session.typedLines
        cases hload : Line.isLoad line <;> simp [hload]

theorem not_isLoad_of_mem_carried {lines : List String} {i : Nat} {sum : Tally} {s t : σ}
    {line : String} (h : (line, t) ∈ target.carried lines i sum s) : Line.isLoad line = false := by
  induction lines generalizing i sum s with
  | nil => cases h
  | cons line rest ih =>
    unfold carried at h
    split at h
    · cases h
    · rcases List.mem_append.1 h with h | h
      · split at h
        · cases h
        · rename_i hl
          cases List.mem_singleton.1 h
          simpa using hl
      · exact ih h

/-- Targets that deal with each line alike replay alike. -/
theorem feedAll_congr (target' : ReplayTarget σ)
    (hstop : target.stopRequested = target'.stopRequested)
    (hshow : target.showProgress = target'.showProgress)
    (hfeed : ∀ line sum s, target.feed line sum s = target'.feed line sum s) (lines : List String)
    (i : Nat) (sum : Tally) (s : σ) :
    target.feedAll lines i sum s = target'.feedAll lines i sum s := by
  induction lines generalizing i sum s with
  | nil => rfl
  | cons line rest ih => simp only [feedAll, hstop, hshow, hfeed, ih]

end ReplayTarget

namespace Session

variable {σ : Type} (ui : Dialogue σ)

theorem carried_cons (line : String) (rest : List String) (i : Nat) (sum : Tally)
    (s : Session σ) :
    (asTarget ui).carried (line :: rest) i sum s =
      if ui.stopRequested s.user then []
      else
        let ready := { s with user := ui.showProgress i sum.total s.user }
        let fed := (asTarget ui).feed line sum ready
        (if Line.isLoad line then [] else [(line, ready)]) ++
          (asTarget ui).carried rest (i + 1) fed.1 fed.2 := rfl

/-- What words to the user and each line that is carried out keep, the replay keeps, and each such
line is taken with it. -/
theorem feedAll_keeps {I : Session σ → Prop} (htell : ∀ text s, I s → I (s.tell ui text))
    (hshow : ∀ i n s, I s → I { s with user := ui.showProgress i n s.user })
    {lines : List String} {i : Nat} {sum : Tally} {s : Session σ}
    (hline : ∀ line t, (line, t) ∈ (asTarget ui).carried lines i sum s → I t →
      I (t.enterWith ui refuseLoad line).2)
    (hs : I s) :
    I ((asTarget ui).feedAll lines i sum s).2 ∧
      ∀ p ∈ (asTarget ui).carried lines i sum s, I p.2 := by
  induction lines generalizing i sum s with
  | nil => exact ⟨hs, by simp [ReplayTarget.carried]⟩
  | cons line rest ih =>
    rw [carried_cons] at hline ⊢
    rw [feedAll_cons]
    split
    · exact ⟨hs, by simp⟩
    · rename_i hstop
      rw [if_neg hstop] at hline
      have hu := hshow i sum.total s hs
      cases hl : Line.isLoad line with
      | true =>
        simp only [hl, if_true, List.nil_append, feed_load ui hl] at hline ⊢
        exact ih hline (htell _ _ hu)
      | false =>
        simp only [hl, Bool.false_eq_true, if_false, List.singleton_append, List.mem_cons,
          feed_line ui hl] at hline ⊢
        have hstep := hline line _ (.inl rfl) hu
        obtain ⟨hi, hall⟩ := ih (fun l t hm => hline l t (.inr hm)) hstep
        refine ⟨hi, ?_⟩
        rintro p (rfl | hp)
        · exact hu
        · exact hall p hp

/-! ## Lines that do not load -/

section
variable {text : String} (hn : Line.isLoad text = false)
include hn

/-- What the loads do is of no account to a line that does not load. -/
theorem enterWith_eq_of_not_isLoad (loads loads' : Loader σ) (s : Session σ) :
    s.enterWith ui loads text = s.enterWith ui loads' text := by
  obtain ⟨user, hh⟩ := hear_eq ui text s
  unfold enterWith
  rw [hh]
  cases hc : Command.ofText text with
  | error e => rfl
  | ok command =>
    cases command with
    | none => rfl
    | some c =>
      cases c with
      | act a => rfl
      | save kind path => cases kind <;> rfl
      | load kind path =>
        exact absurd hc (Command.ofText_ne_load hn kind path)

/-- A line that does not load neither starts nor ends a replay. -/
theorem enterWith_replaying (loads : Loader σ) (s : Session σ) :
    (s.enterWith ui loads text).2.history.replaying = s.history.replaying := by
  have hload := Command.ofText_ne_load hn
  have hleads := enterWith_leads ui loads text (fun kind path hc => absurd hc (hload kind path)) s
  refine hleads.keeps (I := fun t => t.history.replaying = s.history.replaying)
    (fun d t u hd hc ht => ?_) rfl
  cases hc with
  | startReplay =>
    cases hd with
    | startReplay h => exact absurd h (hload _ _)
    | replayed h _ _ _ => exact absurd h (hload _ _)
  | finishReplay completed =>
    cases hd with
    | finishReplay _ h => exact absurd h (hload _ _)
    | replayed h _ _ _ => exact absurd h (hload _ _)
  | _ => exact ht

/-- A line that does not load asks nothing while a script is replayed. -/
theorem enterWith_silent (loads : Loader (σ × List Question)) {s : Session (σ × List Question)}
    (hr : s.history.replaying = true) :
    (s.enterWith ui.logged loads text).2.user.2 = s.user.2 := by
  have hq : ∀ path yes, s.replaceQuestions path yes = [] := by
    intro path yes
    simp [replaceQuestions, hr]
  by_cases hc : ∃ kind path, Command.ofText text = .ok (some (.save kind path))
  · obtain ⟨kind, path, hc⟩ := hc
    obtain ⟨-, told, he⟩ | ⟨bytes, yes, -, hs⟩ := enterWith_saves ui loads hc s
    · rw [he]
    · generalize (s.enterWith ui.logged loads text).2 = s' at hs
      cases hs with
      | written user hw => simp [hq]
      | declined user he hn => simp [hr] at hn
      | failed user hw => simp [hq]
  · exact enterWith_quiet ui loads (fun kind path h => hc ⟨kind, path, h⟩)
      (Command.ofText_ne_load hn) s

end

/-! ## Errors of replayed lines -/

theorem act_fst (line : String) (a : Action) (s : Session σ) :
    (s.act line a).1 = (a.execute s.config s.drawing).1 := by
  unfold act
  cases a.execute s.config s.drawing with
  | mk outcome drawing => cases outcome <;> split <;> rfl

theorem saveBytes_fails (path : Path) (bytes : ByteArray) (s : Session σ) :
    FailsOnly Error.OfSave (s.saveBytes ui path bytes).1 := by
  obtain ⟨user, files, -, -, h⟩ | ⟨user, -, h⟩ | ⟨user, fault, files, -, -, h⟩ :=
    saveBytes_cases ui path bytes s
  all_goals rw [h]
  · exact .ok _
  · exact .ok _
  · exact .error trivial

theorem run_save_fails (loads : Loader σ) (line : String) (kind : FileKind) (path : Option Path)
    (s : Session σ) : FailsOnly Error.OfSave (s.run ui loads line (.save kind path)).1 := by
  rw [run_save]
  cases s.contents kind with
  | none => exact .error trivial
  | some bytes => exact (saveBytes_fails ui _ bytes s).map _

/-- A line that does not load is not rejected for loading in a replay. -/
theorem enterWith_ne_nestedLoad {text : String} (hn : Line.isLoad text = false)
    (loads : Loader σ) (s : Session σ) (l : String) :
    (s.enterWith ui loads text).1 ≠ .error (.nestedLoad l) := by
  intro h
  obtain ⟨heard, hh⟩ := hear_eq ui text s
  unfold enterWith at h
  rw [hh] at h
  -- the line is not understood, or blank, or its command fails
  cases hc : Command.ofText text with
  | error e =>
    rw [hc] at h
    cases h
    exact Command.ofText_fails text _ hc
  | ok command =>
    rw [hc] at h
    cases command with
    | none => cases h
    | some c =>
      obtain ⟨told, ht⟩ := report_eq ui (run ui loads (Text.trim text) c { s with user := heard })
      simp only [ht] at h
      have hr := map_eq_error h
      cases c with
      | act a =>
        simp only [run, act_fst] at hr
        exact Action.execute_fails _ a _ _ hr
      | save kind path => exact run_save_fails ui loads _ kind path _ _ hr
      | load kind path =>
        exact absurd hc (Command.ofText_ne_load hn kind path)

/-! ## One level deep -/

/-- The session as the receiver of replayed lines, with `deeper` for the loads among them. -/
def asTargetWith (deeper : Loader σ) : ReplayTarget (Session σ) :=
  { asTarget ui with
    carryOut := fun line s =>
      match s.enterWith ui deeper line with
      | (.ok _, s) => (true, s)
      | (.error _, s) => (false, s) }

def replayWith (deeper : Loader σ) (script : Script) (s : Session σ) : Tally × Session σ :=
  let (tally, s) := (asTargetWith ui deeper).replay script (s.prepareReplay ui)
  (tally, { s with history := s.history.finishReplay (!tally.cancelled) })

def loadScriptWith (deeper : Loader σ) (path : Option Path) (s : Session σ) :
    Except Error String × Session σ :=
  match s.mayDiscard ui "load commands" with
  | (false, s) => (.ok "Load commands cancelled.", s)
  | (true, s) =>
    let path := path.getD s.config.scriptPath
    match readScript s.files path with
    | .error e => (.error e, s)
    | .ok script =>
      let (tally, s) := (s.tell ui (loadingNotice path)).replayWith ui deeper script
      (.ok (replayNotice path tally), s)

/-- Loading as a step of a recursion: the lines of a script are taken as typed ones are, and what
a load among them does is up to `deeper`. -/
def loadWith (deeper : Loader σ) : Loader σ := fun line kind path s =>
  if s.history.replaying then refuseLoad line kind path s
  else match kind with
    | .script => s.loadScriptWith ui deeper path
    | .image => s.loadImage ui path

theorem feed_asTargetWith (deeper : Loader σ) (line : String) (sum : Tally) (s : Session σ) :
    (asTargetWith ui deeper).feed line sum s = (asTarget ui).feed line sum s := by
  unfold ReplayTarget.feed
  split
  · rfl
  · rename_i hl
    have he := enterWith_eq_of_not_isLoad ui (by simpa using hl) deeper refuseLoad s
    have hc : (asTargetWith ui deeper).carryOut line s = (asTarget ui).carryOut line s :=
      congrArg (fun r : Except Error (Option String) × Session σ =>
        match r with
        | (.ok _, s) => (true, s)
        | (.error _, s) => (false, s)) he
    rw [hc]

theorem loadScriptWith_eq (deeper : Loader σ) (path : Option Path) (s : Session σ) :
    s.loadScriptWith ui deeper path = s.loadScript ui path := by
  have hr : ∀ script s, replayWith ui deeper script s = replay ui script s := by
    intro script s
    have hf := (asTargetWith ui deeper).feedAll_congr (asTarget ui) rfl rfl
      (feed_asTargetWith ui deeper)
    unfold replayWith replay ReplayTarget.replay
    rw [hf]
  unfold loadScriptWith loadScript
  generalize s.mayDiscard ui "load commands" = answer
  obtain ⟨yes, s'⟩ := answer
  cases yes with
  | false => rfl
  | true =>
    dsimp only
    cases readScript s'.files (path.getD s'.config.scriptPath) with
    | error e => rfl
    | ok script =>
      exact congrArg (fun r : Tally × Session σ => (Except.ok (replayNotice _ r.1), r.2))
        (hr script _)

/-- The recursion has one solution, whatever one tries for the loads inside a replay. -/
theorem loadWith_eq_load (deeper : Loader σ) : loadWith ui deeper = load ui := by
  funext line kind path s
  unfold loadWith load
  by_cases hn : s.history.replaying = true
  · rw [if_pos hn, if_pos hn]
  · rw [if_neg hn, if_neg hn]
    cases kind with
    | script => exact loadScriptWith_eq ui deeper path s
    | image => rfl

/-! ## What a typed line replays -/

/-- A replay about to start: the script, the path it was read from, and the session by then. -/
structure ReplayStart (σ : Type) where
  path : Path
  script : Script
  session : Session σ

namespace ReplayStart

variable (r : ReplayStart σ)

/-- The replay. -/
def run : Tally × Session σ := r.session.replayFile ui r.path r.script

/-- The session in front of the first line. -/
def ready : Session σ := (r.session.tell ui (loadingNotice r.path)).prepareReplay ui

/-- The session behind the last line, the replay not yet over. -/
def fed : Tally × Session σ :=
  (asTarget ui).feedAll r.script.lines 1 (.start r.script.lines.length) (r.ready ui)

/-- The lines carried out, each with the session that takes it. -/
def carried : List (String × Session σ) :=
  (asTarget ui).carried r.script.lines 1 (.start r.script.lines.length) (r.ready ui)

variable {r ui} in
theorem not_isLoad_of_mem_carried {line : String} {t : Session σ} (h : (line, t) ∈ r.carried ui) :
    Line.isLoad line = false := by
  unfold carried at h
  exact (asTarget ui).not_isLoad_of_mem_carried h

/-- A line that is carried out in a replay is taken as a typed one is. -/
theorem enter_of_mem_carried {line : String} {t : Session σ} (h : (line, t) ∈ r.carried ui) :
    t.enter ui line = t.enterWith ui refuseLoad line :=
  enterWith_eq_of_not_isLoad ui (not_isLoad_of_mem_carried h) (load ui) refuseLoad t

/-- What each line keeps, the replay keeps. -/
theorem keeps {I : Session σ → Prop} (htell : ∀ text s, I s → I (s.tell ui text))
    (hshow : ∀ i n s, I s → I { s with user := ui.showProgress i n s.user })
    (hline : ∀ line t, (line, t) ∈ r.carried ui → Line.isLoad line = false → I t →
      I (t.enterWith ui refuseLoad line).2)
    (hs : I (r.ready ui)) : I (r.fed ui).2 ∧ ∀ p ∈ r.carried ui, I p.2 := by
  have hkeep : ∀ line t, (line, t) ∈ r.carried ui → I t →
      I (t.enterWith ui refuseLoad line).2 :=
    fun line t hm ht => hline line t hm (not_isLoad_of_mem_carried hm) ht
  unfold fed
  unfold carried at hkeep ⊢
  exact feedAll_keeps ui htell hshow hkeep hs

theorem carried_replaying : ∀ p ∈ r.carried ui, p.2.history.replaying = true :=
  (r.keeps ui (I := fun t => t.history.replaying = true) (fun _ _ h => h) (fun _ _ _ h => h)
    (fun _ t _ hl ht => (enterWith_replaying ui hl refuseLoad t).trans ht) rfl).2

/-- What a replay leaves is unsaved if it was stopped with anything on record. -/
theorem run_dirty : (r.run ui).2.history.dirty =
    ((r.run ui).1.cancelled && !(r.run ui).2.history.records.isEmpty) :=
  (replayFile_history ui r.path r.script r.session).2

/-- A replay asks nothing. -/
theorem run_silent (r : ReplayStart (σ × List Question)) :
    (r.run ui.logged).2.user.2 = r.session.user.2 := by
  have hi := r.keeps ui.logged
    (I := fun t => t.history.replaying = true ∧ t.user.2 = r.session.user.2)
    (fun _ _ h => h) (fun _ _ _ h => h)
    (fun _ t _ hl ⟨hr, ht⟩ => ⟨(enterWith_replaying ui.logged hl refuseLoad t).trans hr,
      (enterWith_silent ui hl refuseLoad hr).trans ht⟩)
    ⟨rfl, rfl⟩
  exact hi.1.2

/-- The lines carried out are those of the script up to where the user stopped the replay, without
the ones that load. -/
theorem carried_lines : ∃ k ≤ r.script.lines.length,
    (r.run ui).1.processed = k ∧ ((r.run ui).1.cancelled = true ↔ k < r.script.lines.length) ∧
      (r.carried ui).map (·.1) = typedLines (r.script.lines.take k) := by
  obtain ⟨k, hk, hp, hx, hl⟩ := (asTarget ui).carried_lines r.script.lines 1
    (.start r.script.lines.length) (r.ready ui) rfl
  refine ⟨k, hk, hp.trans ?_, hx, hl⟩
  simp [Tally.start, Tally.processed]

end ReplayStart

/-- The replay that taking a typed text starts, if it loads a script and gets that far. -/
def replayStart? (text : String) (s : Session σ) : Option (ReplayStart σ) :=
  match s.history.replaying, Command.ofText text with
  | false, .ok (some (.load .script path)) =>
    match s.mayDiscard ui "load commands" with
    | (true, s') =>
      match readScript s'.files (path.getD s'.config.scriptPath) with
      | .ok script => some ⟨path.getD s'.config.scriptPath, script, s'⟩
      | .error _ => none
    | (false, _) => none
  | _, _ => none

/-- The lines that taking a typed text replays, each with the session that takes it. -/
def replayed (text : String) (s : Session σ) : List (String × Session σ) :=
  match s.replayStart? ui text with
  | some r => r.carried ui
  | none => []

section
variable {ui} {text : String} {s : Session σ}

theorem replayStart?_eq_some {r : ReplayStart σ} (h : s.replayStart? ui text = some r) :
    ∃ path, s.history.replaying = false ∧
      Command.ofText text = .ok (some (.load .script path)) ∧
      s.mayDiscard ui "load commands" = (true, r.session) ∧
      r.path = path.getD r.session.config.scriptPath ∧
      readScript r.session.files r.path = .ok r.script := by
  unfold replayStart? at h
  split at h
  · rename_i path hn hc
    split at h
    · rename_i s' hm
      split at h
      · rename_i script hr
        cases h
        exact ⟨path, hn, hc, hm, rfl, hr⟩
      · cases h
    · cases h
  · cases h

/-- A load that can read its file, in a session without unsaved changes. -/
theorem replayStart?_of_clean {path : Option Path} {script : Script}
    (hn : s.history.replaying = false) (hd : s.history.dirty = false)
    (hc : Command.ofText text = .ok (some (.load .script path)))
    (hr : readScript s.files (path.getD s.config.scriptPath) = .ok script) :
    s.replayStart? ui text = some ⟨path.getD s.config.scriptPath, script, s⟩ := by
  have hm : s.mayDiscard ui "load commands" = (true, s) := by
    simp [mayDiscard, hd]
  simp only [replayStart?, hn, hc, hm, hr]

/-- A replay that starts is all that the line does. -/
theorem enter_replayStart {r : ReplayStart σ} (h : s.replayStart? ui text = some r) :
    ∃ told, s.enter ui text =
      (.ok (some (replayNotice r.path (r.run ui).1)), { (r.run ui).2 with user := told }) := by
  obtain ⟨path, hn, hc, hm, hp, hr⟩ := replayStart?_eq_some h
  unfold ReplayStart.run
  rw [hp] at hr ⊢
  exact enter_loadScript ui hn hc hm hr

/-- A load of a script that starts no replay only asks about unsaved changes. -/
theorem enter_of_no_replayStart (h : s.replayStart? ui text = none) {path : Option Path}
    (hc : Command.ofText text = .ok (some (.load .script path)))
    (hn : s.history.replaying = false) :
    ∃ told outcome, s.enter ui text =
      (outcome, { (s.mayDiscard ui "load commands").2 with user := told }) := by
  obtain ⟨told, he⟩ := enter_load ui hc s
  rw [he]
  simp only [load, hn, Bool.false_eq_true, if_false]
  obtain ⟨s', hm, hl⟩ | ⟨s', e, hm, hl⟩ | ⟨s', script, hm, hr, -⟩ := loadScript_cases ui path s
  · rw [hl, hm]
    exact ⟨told, _, rfl⟩
  · rw [hl, hm]
    exact ⟨told, _, rfl⟩
  · have hs : s.replayStart? ui text =
        some ⟨path.getD s'.config.scriptPath, script, s'⟩ := by
      simp only [replayStart?, hn, hc, hm, hr]
    rw [h] at hs
    cases hs

theorem sameWork_of_no_replayStart (h : s.replayStart? ui text = none) {path : Option Path}
    (hc : Command.ofText text = .ok (some (.load .script path))) :
    SameWork s (s.enter ui text).2 := by
  cases hn : s.history.replaying with
  | true =>
    obtain ⟨told, he⟩ := enter_load ui hc s
    rw [he]
    simp only [load, hn, if_true]
    exact .of_user s told
  | false =>
    have hw := SameWork.mayDiscard ui "load commands" s
    obtain ⟨told, outcome, he⟩ := enter_of_no_replayStart h hc hn
    rw [he]
    exact ⟨hw.config, hw.drawing, hw.entries⟩

theorem replayed_eq {r : ReplayStart σ} (h : s.replayStart? ui text = some r) :
    s.replayed ui text = r.carried ui := by
  unfold replayed
  rw [h]

theorem exists_of_mem_replayed {p : String × Session σ} (hp : p ∈ s.replayed ui text) :
    ∃ r, s.replayStart? ui text = some r ∧ p ∈ r.carried ui := by
  unfold replayed at hp
  cases h : s.replayStart? ui text with
  | none =>
    rw [h] at hp
    cases hp
  | some r =>
    rw [h] at hp
    exact ⟨r, rfl, hp⟩

end

/-- Taking a line nests no deeper than one replay. What a load inside a replay would do is of no
account, for none is reached: the lines replayed are those read before the replay began, without
the ones that load, each is taken as if it were typed and none is rejected as a nested load. The
replay asks the user nothing, and it is over when the line has been taken. -/
theorem replay_one_level (ui : Dialogue σ) (text : String) {s : Session σ}
    (hn : s.history.replaying = false) :
    (∀ deeper : Loader σ, s.enterWith ui (loadWith ui deeper) text = s.enter ui text) ∧
      (s.enter ui text).2.history.replaying = false ∧
      (∀ r, s.replayStart? ui text = some r →
        s.mayDiscard ui "load commands" = (true, r.session) ∧
        readScript r.session.files r.path = .ok r.script ∧
        (∃ told, s.enter ui text =
          (.ok (some (replayNotice r.path (r.run ui).1)), { (r.run ui).2 with user := told })) ∧
        (∃ k ≤ r.script.lines.length, (r.run ui).1.processed = k ∧
          ((r.run ui).1.cancelled = true ↔ k < r.script.lines.length) ∧
          (s.replayed ui text).map (·.1) = typedLines (r.script.lines.take k)) ∧
        let logged := r.session.withLog.replayFile ui.logged r.path r.script
        mapResult Prod.fst logged = r.run ui ∧ logged.2.user.2 = []) ∧
      ∀ line t, (line, t) ∈ s.replayed ui text →
        (∀ kind path, Command.ofText line ≠ .ok (some (.load kind path))) ∧
        t.history.replaying = true ∧ t.enterWith ui refuseLoad line = t.enter ui line ∧
        ∀ l, (t.enter ui line).1 ≠ .error (.nestedLoad l) := by
  refine ⟨fun deeper => ?_, enter_replaying ui text hn, fun r hr => ?_, fun line t hm => ?_⟩
  · rw [loadWith_eq_load]
    rfl
  · obtain ⟨path, -, -, hask, -, hread⟩ := replayStart?_eq_some hr
    have hlines := r.carried_lines ui
    rw [← replayed_eq hr] at hlines
    have hlog := replayFile_mapUser ui.logged_projects r.path r.script r.session.withLog
    have hsilent := ReplayStart.run_silent ui ⟨r.path, r.script, r.session.withLog⟩
    exact ⟨hask, hread, enter_replayStart hr, hlines, hlog.symm, hsilent⟩
  · obtain ⟨r, -, hp⟩ := exists_of_mem_replayed hm
    have hl : Line.isLoad line = false := ReplayStart.not_isLoad_of_mem_carried hp
    exact ⟨Command.ofText_ne_load hl, r.carried_replaying ui _ hp,
      (r.enter_of_mem_carried ui hp).symm, enterWith_ne_nestedLoad ui hl (load ui) t⟩

theorem withScript_replayStart (ui : Dialogue Nat) {lines : List String}
    (hl : ∀ l ∈ lines, Script.IsLine l) :
    (withScript lines).replayStart? ui "load commands drawing.txt" =
      some ⟨⟨"drawing.txt"⟩, ⟨lines⟩, withScript lines⟩ := by
  unfold replayStart?
  rw [ofText_loadDrawing]
  show (match readScript (withScript lines).files ⟨"drawing.txt"⟩ with
    | .ok script => some (ReplayStart.mk ⟨"drawing.txt"⟩ script (withScript lines))
    | .error _ => none) = _
  rw [readScript_withScript hl]

theorem withSampleScript_replayStart :
    withSampleScript.replayStart? (stopsAfter 9) "load commands drawing.txt" =
      some ⟨⟨"drawing.txt"⟩, sampleScript, withSampleScript⟩ :=
  withScript_replayStart (stopsAfter 9) isLine_sampleScript

/-- The sample script has a load in it, which is left out. -/
theorem replay_one_level_sample :
    withSampleScript.history.replaying = false ∧
      withSampleScript.replayStart? (stopsAfter 9) "load commands drawing.txt" =
        some ⟨⟨"drawing.txt"⟩, sampleScript, withSampleScript⟩ ∧
      (withSampleScript.enter (stopsAfter 9) "load commands drawing.txt").2.history.replaying =
        false ∧
      ∃ k ≤ 4, (withSampleScript.replayed (stopsAfter 9) "load commands drawing.txt").map (·.1) =
        typedLines (sampleScript.lines.take k) := by
  obtain ⟨-, hrep, hreplay, -⟩ :=
    replay_one_level (stopsAfter 9) "load commands drawing.txt" (s := withSampleScript) rfl
  obtain ⟨-, -, -, ⟨k, hk, -, -, hl⟩, -⟩ := hreplay _ withSampleScript_replayStart
  exact ⟨rfl, withSampleScript_replayStart, hrep, k, hk, hl⟩

end Session

end TurtleGraphics
