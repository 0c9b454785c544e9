import TurtleGraphics.Proofs.Script.Codec
import TurtleGraphics.Proofs.Session.Steps

/-!
# What can happen to a session

Whatever a line does is a sequence of a few deeds (`Deed`), each of which changes a session in one
way (`Change`): something is said, a file is saved, an action is carried out and recorded, a
replay starts. `Causes text d` says that taking the typed `text` can do `d`; `enter_leads` shows
that taking it does nothing else, by induction on the lines of a script if it loads one. So an
invariant of `Change` is an invariant of every run (`live_leads`, `Leads.keeps`). A replay ends with
the line that started it (`live_replaying`).
-/

set_option autoImplicit false

namespace TurtleGraphics

/-- One thing done to a session. -/
inductive Deed where
  /-- Something was said to the user or asked of them. -/
  | talk
  /-- A file was written, or its write has failed. -/
  | save (kind : FileKind) (path : Path)
  /-- An action other than a reset was carried out and its line recorded. -/
  | draw (line : String) (a : Action)
  | reset
  | background (image : ByteArray)
  | startReplay
  | finishReplay (completed : Bool)
  /-- The files, the user's side or the renderer changed from outside. -/
  | aside

/-- The deed empties the history. -/
def Deed.startsOver : Deed → Bool
  | reset | background _ | startReplay => true
  | _ => false

/-- What taking a typed text can do. -/
inductive Causes : String → Deed → Prop
  | talk (text : String) : Causes text .talk
  | save {text : String} {kind : FileKind} {path : Option Path} (target : Path)
      (h : Command.ofText text = .ok (some (.save kind path))) : Causes text (.save kind target)
  | saveFirst {text : String} {kind : FileKind} {path : Option Path} (target : Path)
      (h : Command.ofText text = .ok (some (.load kind path))) : Causes text (.save .script target)
  | draw {text : String} {a : Action} (h : Command.ofText text = .ok (some (.act a))) :
      Causes text (.draw (Text.trim text) a)
  | reset {text : String} (h : Command.ofText text = .ok (some (.act .reset))) : Causes text .reset
  | background {text : String} {path : Option Path} (image : ByteArray)
      (h : Command.ofText text = .ok (some (.load .image path))) : Causes text (.background image)
  | startReplay {text : String} {path : Option Path}
      (h : Command.ofText text = .ok (some (.load .script path))) : Causes text .startReplay
  | finishReplay {text : String} {path : Option Path} (completed : Bool)
      (h : Command.ofText text = .ok (some (.load .script path))) :
      Causes text (.finishReplay completed)
  | replayed {text line : String} {path : Option Path} {d : Deed}
      (h : Command.ofText text = .ok (some (.load .script path))) (hl : Script.IsLine line)
      (hn : Line.isLoad line = false) (hd : Causes line d) : Causes text d

namespace Session

variable {σ : Type}

/-- How a deed changes a session. -/
inductive Change : Deed → Session σ → Session σ → Prop
  | talk (s : Session σ) (user : σ) : Change .talk s { s with user }
  | save {s : Session σ} {kind : FileKind} {path : Path} {bytes : ByteArray} {files : FileSystem}
      (hc : s.contents kind = some bytes) (hw : s.files.write path bytes = (.ok (), files)) :
      Change (.save kind path) s { s with files, history := s.history.markSaved }
  | failedSave {s : Session σ} {kind : FileKind} {path : Path} {bytes : ByteArray} {fault : Fault}
      {files : FileSystem} (hc : s.contents kind = some bytes)
      (hw : s.files.write path bytes = (.error fault, files)) :
      Change (.save kind path) s { s with files }
  | draw {s : Session σ} {line message : String} {a : Action} {drawing : Drawing}
      (hl : Text.trim line = line) (hc : Command.ofText line = .ok (some (.act a)))
      (ha : a ≠ .reset) (hx : a.execute s.config s.drawing = (.ok message, drawing)) :
      Change (.draw line a) s { s with drawing, history := s.history.add line a.purpose }
  | reset (s : Session σ) : Change .reset s
      { s with drawing := s.drawing.resetTurtle s.config, history := s.history.clear }
  | background (s : Session σ) (image : ByteArray) : Change (.background image) s
      { s with
        drawing :=
          { s.drawing.clearCanvas.resetTurtle s.config with
            canvas := (s.drawing.clearCanvas.resetTurtle s.config).canvas.setBackground image }
        history := s.history.clear }
  | startReplay (s : Session σ) : Change .startReplay s
      { s with
        drawing := (s.drawing.resetTurtle s.config).clearCanvas
        history := s.history.startReplay }
  | finishReplay (s : Session σ) (completed : Bool) : Change (.finishReplay completed) s
      { s with history := s.history.finishReplay completed }
  | aside (s : Session σ) (files : FileSystem) (user : σ) (render : Renderer Float) :
      Change .aside s { s with files, user, drawing.canvas.render := render }

/-- Deeds done one after the other. -/
inductive Trace : List Deed → Session σ → Session σ → Prop
  | nil (s : Session σ) : Trace [] s s
  | cons {d : Deed} {deeds : List Deed} {s t u : Session σ} (h : Change d s t)
      (ht : Trace deeds t u) : Trace (d :: deeds) s u

theorem Trace.append {deeds deeds' : List Deed} {s t u : Session σ} (h : Trace deeds s t)
    (h' : Trace deeds' t u) : Trace (deeds ++ deeds') s u := by
  induction h with
  | nil s => exact h'
  | cons hc _ ih => exact .cons hc (ih h')

/-- Some deeds with a property lead from one session to the other. -/
def Leads (P : Deed → Prop) (s s' : Session σ) : Prop :=
  ∃ deeds, Trace deeds s s' ∧ ∀ d ∈ deeds, P d

namespace Leads

variable {P Q : Deed → Prop} {s t u : Session σ}

theorem refl (s : Session σ) : Leads P s s := ⟨[], .nil s, by simp⟩

theorem of_change {d : Deed} (h : Change d s t) (hd : P d) : Leads P s t :=
  ⟨[d], .cons h (.nil t), by simpa using hd⟩

theorem trans (h : Leads P s t) (h' : Leads P t u) : Leads P s u := by
  obtain ⟨deeds, ht, hp⟩ := h
  obtain ⟨deeds', ht', hp'⟩ := h'
  refine ⟨deeds ++ deeds', ht.append ht', fun d hd => ?_⟩
  rcases List.mem_append.1 hd with hd | hd
  · exact hp d hd
  · exact hp' d hd

theorem mono (h : Leads P s t) (hpq : ∀ d, P d → Q d) : Leads Q s t := by
  obtain ⟨deeds, ht, hp⟩ := h
  exact ⟨deeds, ht, fun d hd => hpq d (hp d hd)⟩

/-- What each deed keeps is kept. -/
theorem keeps {I : Session σ → Prop} (h : Leads P s t)
    (hI : ∀ d s t, P d → Change d s t → I s → I t) (hs : I s) : I t := by
  obtain ⟨deeds, ht, hp⟩ := h
  induction ht with
  | nil s => exact hs
  | cons hc _ ih =>
    refine ih (hI _ _ _ (hp _ (by simp)) hc hs) fun d hd => hp d (by simp [hd])

end Leads

/-- The configuration is for life. -/
theorem Leads.config {P : Deed → Prop} {s t : Session σ} (h : Leads P s t) :
    t.config = s.config := by
  refine h.keeps (I := fun u => u.config = s.config) (fun d u v _ hc hu => ?_) rfl
  cases hc with
  | _ => exact hu

/-! ## Lines -/

section
variable (ui : Dialogue σ) {P : Deed → Prop}

theorem leads_of_talk (h : P .talk) (s : Session σ) (user : σ) : Leads P s { s with user } :=
  .of_change (.talk s user) h

/-- A save followed by words to the user. -/
theorem leads_of_save {kind : FileKind} {path : Path} {bytes : ByteArray} {files : FileSystem}
    {s : Session σ} (hc : s.contents kind = some bytes)
    (hw : s.files.write path bytes = (.ok (), files)) (hs : P (.save kind path)) (ht : P .talk)
    (user : σ) : Leads P s { s with user, files, history := s.history.markSaved } :=
  (Leads.of_change (.save hc hw) hs).trans (leads_of_talk ht _ user)

/-- A save that is not done, followed by words to the user. -/
theorem leads_of_unwritten {kind : FileKind} {path : Path} {files : FileSystem} {s : Session σ}
    (h : Unwritten kind path s files) (hs : P (.save kind path)) (ht : P .talk) (user : σ) :
    Leads P s { s with user, files } := by
  obtain rfl | ⟨bytes, fault, hc, hw⟩ := h
  · exact leads_of_talk ht s user
  · exact (Leads.of_change (.failedSave hc hw) hs).trans (leads_of_talk ht _ user)

theorem act_leads {text : String} {a : Action} (h : Command.ofText text = .ok (some (.act a)))
    (s : Session σ) : Leads (Causes text) s (s.act (Text.trim text) a).2 := by
  obtain ⟨e, he⟩ | ⟨rfl, he⟩ | ⟨ha, message, drawing, hx, he⟩ := act_cases (Text.trim text) a s
  all_goals rw [he]
  · exact .refl s
  · exact .of_change (.reset s) (.reset h)
  · have hc : Command.ofText (Text.trim text) = .ok (some (.act a)) := by
      rw [Command.ofText_trim, h]
    exact .of_change (.draw (Text.trim_trim text) hc ha hx) (.draw h)

theorem save_leads {text : String} {kind : FileKind} {path : Option Path}
    (h : Command.ofText text = .ok (some (.save kind path))) (loads : Loader σ) (s : Session σ) :
    Leads (Causes text) s (s.run ui loads (Text.trim text) (.save kind path)).2 := by
  obtain ⟨bytes, user, files, hc, hw, he⟩ | ⟨user, files, outcome, hf, -, he⟩ :=
    run_save_cases ui loads (Text.trim text) kind path s
  all_goals rw [he]
  · exact leads_of_save hc hw (.save _ h) (.talk text) user
  · exact leads_of_unwritten hf (.save _ h) (.talk text) user

/-- A line does what it can cause, if the loads it may ask for do. -/
theorem enterWith_leads (loads : Loader σ) (text : String)
    (hloads : ∀ kind path, Command.ofText text = .ok (some (.load kind path)) → ∀ s,
      Leads (Causes text) s (loads (Text.trim text) kind path s).2) (s : Session σ) :
    Leads (Causes text) s (s.enterWith ui loads text).2 := by
  by_cases hc : ∃ c, Command.ofText text = .ok (some c)
  · obtain ⟨c, hc⟩ := hc
    obtain ⟨heard, told, he⟩ := enterWith_command ui loads hc s
    rw [he]
    have ht : ∀ s : Session σ, Leads (Causes text) s { s with user := told } :=
      fun s => leads_of_talk (.talk text) s told
    refine (leads_of_talk (.talk text) s heard).trans (.trans ?_ (ht _))
    cases c with
    | act a => exact act_leads hc _
    | save kind path => exact save_leads ui hc loads _
    | load kind path => exact hloads kind path hc _
  · obtain ⟨user, result, he⟩ := enterWith_idle ui loads (fun c h => hc ⟨c, h⟩) s
    rw [he]
    exact leads_of_talk (.talk text) s user

/-! ## Replays -/

/-- A replay does what its lines can cause that do not load. -/
theorem feedAll_leads (htalk : P .talk) {lines : List String}
    (h : ∀ l ∈ lines, Line.isLoad l = false → ∀ d, Causes l d → P d) (i : Nat) (sum : Tally)
    (s : Session σ) : Leads P s ((asTarget ui).feedAll lines i sum s).2 := by
  induction lines generalizing i sum s with
  | nil => exact .refl s
  | cons line rest ih =>
    rw [feedAll_cons]
    split
    · exact .refl s
    · refine .trans ?_ (ih (fun l hl => h l (by simp [hl])) _ _ _)
      refine (leads_of_talk htalk s (ui.showProgress i sum.total s.user)).trans ?_
      cases hl : Line.isLoad line with
      | true =>
        rw [feed_load ui hl]
        exact leads_of_talk htalk _ _
      | false =>
        rw [feed_line ui hl]
        refine (enterWith_leads ui refuseLoad line (fun _ _ _ s => .refl s) _).mono ?_
        exact h line (by simp) hl

theorem isLine_of_readScript {files : FileSystem} {path : Path} {script : Script}
    (h : readScript files path = .ok script) : ∀ l ∈ script.lines, Script.IsLine l := by
  unfold readScript at h
  split at h
  · cases h
  · split at h
    · rename_i hd
      cases h
      exact fun l hl => Script.isLine_of_decode? hd hl
    · cases h

theorem replay_leads {text : String} {path : Option Path}
    (h : Command.ofText text = .ok (some (.load .script path))) {script : Script}
    (hl : ∀ l ∈ script.lines, Script.IsLine l) (s : Session σ) :
    Leads (Causes text) s (s.replay ui script).2 := by
  refine (leads_of_talk (.talk text) s (ui.clearStop s.user)).trans ?_
  refine (Leads.of_change (.startReplay _) (.startReplay h)).trans ?_
  refine .trans ?_ (Leads.of_change (.finishReplay _ _) (.finishReplay _ h))
  exact feedAll_leads ui (.talk text) (fun l hm hn d hd => .replayed h (hl l hm) hn hd) _ _ _

/-! ## Loading -/

theorem mayDiscard_leads {text : String} {kind : FileKind} {path : Option Path}
    (h : Command.ofText text = .ok (some (.load kind path))) (intention : String)
    (s : Session σ) : Leads (Causes text) s (s.mayDiscard ui intention).2 := by
  obtain ⟨-, user, target, files, hw, he⟩ | ⟨-, yes, user, target, files, hf, he⟩ :=
    mayDiscard_cases ui intention s
  all_goals rw [he]
  · have hc : s.contents .script = some (Script.encode s.history.scriptLines) := rfl
    exact leads_of_save hc hw (.saveFirst _ h) (.talk text) user
  · exact leads_of_unwritten hf (.saveFirst _ h) (.talk text) user

theorem loadScript_leads {text : String} {path : Option Path}
    (h : Command.ofText text = .ok (some (.load .script path))) (s : Session σ) :
    Leads (Causes text) s (s.loadScript ui path).2 := by
  have hm := mayDiscard_leads ui h "load commands" s
  obtain ⟨s', ha, he⟩ | ⟨s', e, ha, he⟩ | ⟨s', script, ha, hr, he⟩ := loadScript_cases ui path s
  all_goals rw [ha] at hm; rw [he]
  · exact hm
  · exact hm
  · have ht : Leads (Causes text) s'
        (s'.tell ui (loadingNotice (path.getD s'.config.scriptPath))) :=
      leads_of_talk (.talk text) s' _
    exact (hm.trans ht).trans (replay_leads ui h (isLine_of_readScript hr) _)

theorem loadImage_leads {text : String} {path : Option Path}
    (h : Command.ofText text = .ok (some (.load .image path))) (s : Session σ) :
    Leads (Causes text) s (s.loadImage ui path).2 := by
  have hm := mayDiscard_leads ui h "load image" s
  obtain ⟨s', ha, he⟩ | ⟨s', e, ha, he⟩ | ⟨s', bytes, ha, he⟩ := loadImage_cases ui path s
  all_goals rw [ha] at hm; rw [he]
  · exact hm
  · exact hm
  · exact hm.trans (.of_change (.background s' bytes) (.background bytes h))

/-- A typed line does what it can cause. -/
theorem enter_leads (text : String) (s : Session σ) :
    Leads (Causes text) s (s.enter ui text).2 := by
  refine enterWith_leads ui (load ui) text (fun kind path h s => ?_) s
  unfold load
  split
  · exact .refl s
  · cases kind with
    | script => exact loadScript_leads ui h s
    | image => exact loadImage_leads ui h s

/-! ## Between lines -/

/-- Only a replay that starts makes a session replay. -/
theorem Change.replaying {d : Deed} {s t : Session σ} (h : Change d s t) (hd : d ≠ .startReplay)
    (hs : s.history.replaying = false) : t.history.replaying = false := by
  cases h with
  | startReplay => exact absurd rfl hd
  | finishReplay completed => rfl
  | _ => exact hs

/-- Loading ends the replay that it starts. -/
theorem loadScript_replaying {path : Option Path} {s : Session σ}
    (hs : s.history.replaying = false) : (s.loadScript ui path).2.history.replaying = false := by
  have hm : (s.mayDiscard ui "load commands").2.history.replaying = false := by
    obtain ⟨-, user, target, files, -, he⟩ | ⟨-, yes, user, target, files, -, he⟩ :=
      mayDiscard_cases ui "load commands" s
    all_goals rw [he]; exact hs
  obtain ⟨s', ha, he⟩ | ⟨s', e, ha, he⟩ | ⟨s', script, ha, -, he⟩ := loadScript_cases ui path s
  all_goals rw [ha] at hm; rw [he]
  · exact hm
  · exact hm
  · rfl

/-- Between two typed lines nothing is being replayed. -/
theorem enter_replaying (text : String) {s : Session σ} (hs : s.history.replaying = false) :
    (s.enter ui text).2.history.replaying = false := by
  by_cases hc : ∃ path, Command.ofText text = .ok (some (.load .script path))
  · obtain ⟨path, hc⟩ := hc
    obtain ⟨heard, told, he⟩ := enterWith_command ui (load ui) hc s
    unfold enter
    rw [he]
    simp only [run, load, hs, Bool.false_eq_true, if_false]
    exact loadScript_replaying ui hs
  · refine (enter_leads ui text s).keeps (fun d s t hd h hs => h.replaying ?_ hs) hs
    rintro rfl
    cases hd with
    | startReplay h => exact hc ⟨_, h⟩
    | replayed h _ _ _ => exact hc ⟨_, h⟩

end

end Session

/-! ## Runs -/

/-- A typed line, or a change of the surroundings between two lines. -/
inductive Event (σ : Type) where
  | line (text : String)
  | aside (files : FileSystem) (user : σ) (render : Renderer Float)

namespace Session

variable {σ : Type} (ui : Dialogue σ)

def meet (s : Session σ) : Event σ → Session σ
  | .line text => (s.enter ui text).2
  | .aside files user render => { s with files, user, drawing.canvas.render := render }

/-- The session after some events. -/
def live (events : List (Event σ)) (s : Session σ) : Session σ := events.foldl (meet ui) s

/-- A run does what its lines can cause. -/
theorem live_leads (events : List (Event σ)) (s : Session σ) :
    Leads (fun d => d = .aside ∨ ∃ text, .line text ∈ events ∧ Causes text d) s
      (s.live ui events) := by
  induction events generalizing s with
  | nil => exact .refl s
  | cons event rest ih =>
    refine .trans (t := s.meet ui event) ?_ ((ih _).mono fun d hd => ?_)
    · cases event with
      | line text => exact (enter_leads ui text s).mono fun d hd => .inr ⟨text, by simp, hd⟩
      | aside files user render => exact .of_change (.aside s files user render) (.inl rfl)
    · rcases hd with hd | ⟨text, hm, hd⟩
      · exact .inl hd
      · exact .inr ⟨text, by simp [hm], hd⟩

theorem live_replaying (events : List (Event σ)) {s : Session σ}
    (hs : s.history.replaying = false) : (s.live ui events).history.replaying = false := by
  induction events generalizing s with
  | nil => exact hs
  | cons event rest ih =>
    refine ih (s := s.meet ui event) ?_
    cases event with
    | line text => exact enter_replaying ui text hs
    | aside files user render => exact hs

end Session

end TurtleGraphics
