import TurtleGraphics.Proofs.Drawing.Alike
import TurtleGraphics.Proofs.Session.Trace

/-!
# The turtle is the replay of the history

`Drawing.retrace` carries out the lines of a script one after the other, and gives up if one of
them asks for no action or its action fails. The lines that a save writes can always be retraced,
and lead a fresh turtle to where the session's turtle is (`live_turtle_retraced`). Every deed
keeps this (`Retraced.change`): a refused action has changed nothing, and whatever empties the
history puts the turtle back to its start.
-/

set_option autoImplicit false

namespace TurtleGraphics

namespace Drawing

/-- The drawing after a line of a script, if the line asks for an action that is carried out. -/
def retraceLine (config : Config) (d : Drawing) (line : String) : Option Drawing :=
  match Command.ofText line with
  | .ok (some (.act a)) =>
    match a.execute config d with
    | (.ok _, d') => some d'
    | (.error _, _) => none
  | _ => none

/-- The drawing after some lines of a script. -/
def retrace (config : Config) (lines : List String) (d : Drawing) : Option Drawing :=
  lines.foldlM (retraceLine config) d

variable {config : Config} {d e d' : Drawing} {line : String} {a : Action}

theorem retraceLine_of_act (hc : Command.ofText line = .ok (some (.act a))) {message : String}
    (hx : a.execute config d = (.ok message, d')) : retraceLine config d line = some d' := by
  unfold retraceLine
  simp only [hc, hx]

theorem retraceLine_eq_some (h : retraceLine config d line = some d') :
    ∃ a message, Command.ofText line = .ok (some (.act a)) ∧
      a.execute config d = (.ok message, d') := by
  unfold retraceLine at h
  split at h
  · rename_i a hc
    split at h
    · rename_i message d'' hx
      cases h
      exact ⟨a, message, hc, hx⟩
    · cases h
  · cases h

theorem retrace_append_line (lines : List String) (line : String) (d : Drawing) :
    d.retrace config (lines ++ [line]) =
      (d.retrace config lines).bind (retraceLine config · line) := by
  simp [retrace, List.foldlM_append]

theorem retrace_cons (line : String) (rest : List String) (d : Drawing) :
    d.retrace config (line :: rest) = (retraceLine config d line).bind (retrace config rest) :=
  rfl

end Drawing

/-! ## Recorded lines -/

theorem Action.purpose_eq_audit {a : Action} (h : a.purpose = .audit) : a = .about := by
  cases a with
  | about => rfl
  | _ => cases h

namespace Drawing

variable {config : Config} {size : Bounds Float} {base base' : List (Mark Float)}

/-- A line that is carried out and recorded is retraced on a drawing alike. -/
theorem Alike.retrace_add {d e d' e₀ : Drawing} (h : Alike size base base' d e) {log : History}
    (he : e₀.retrace config log.scriptLines = some e) {line message : String} {a : Action}
    (hc : Command.ofText line = .ok (some (.act a)))
    (hx : a.execute config d = (.ok message, d')) :
    ∃ e', e₀.retrace config (log.add line a.purpose).scriptLines = some e' ∧
      Alike size base base' d' e' := by
  rw [History.scriptLines_add]
  -- a line that is not kept for replaying has drawn nothing
  by_cases hp : a.purpose = .replay
  · obtain ⟨ho, ha⟩ := h.execute config a
    rw [hx] at ho ha
    have hx' : a.execute config e = (.ok message, (a.execute config e).2) :=
      Prod.ext ho.symm rfl
    refine ⟨(a.execute config e).2, ?_, ha⟩
    rw [if_pos hp, retrace_append_line, he]
    exact retraceLine_of_act hc hx'
  · have ha : a = .about := by
      cases hq : a.purpose with
      | replay => exact absurd hq hp
      | audit => exact Action.purpose_eq_audit hq
    subst ha
    cases hx
    exact ⟨e, by simpa [hp] using he, h⟩

end Drawing

namespace Session

variable {σ : Type} {config : Config} {canvas : Canvas Float} {base : List (Mark Float)}

/-- The recorded lines take a fresh turtle on `canvas` to where the session's turtle is, and draw
there what the session has drawn behind `base`. -/
structure Drawn (config : Config) (canvas : Canvas Float) (base : List (Mark Float))
    (s : Session σ) : Prop where
  configured : s.config = config
  retraced : ∃ e, (Drawing.start config canvas).retrace config s.history.scriptLines = some e ∧
    Drawing.Alike canvas.bounds base canvas.marks s.drawing e

/-- A fresh turtle is the replay of an empty history. -/
theorem Drawn.of_fresh {s : Session σ} (hc : s.config = config)
    (hb : s.drawing.canvas.bounds = canvas.bounds) (hh : s.history.records = [])
    (ht : s.drawing.turtle = config.startingTurtle s.drawing.canvas.bounds) :
    Drawn config canvas s.drawing.canvas.marks s := by
  have hl : s.history.scriptLines = [] := by simp [History.scriptLines, hh]
  refine ⟨hc, Drawing.start config canvas, by rw [hl]; rfl, ?_⟩
  exact Drawing.Alike.of_eq (e := Drawing.start config canvas) (ht.trans (congrArg _ hb)) hb

/-- A deed that does not start over draws what it records. -/
theorem Drawn.change {d : Deed} {s t : Session σ} (h : Change d s t) (hd : d.startsOver = false)
    (hs : Drawn config canvas base s) : Drawn config canvas base t := by
  obtain ⟨rfl, e, he, ha⟩ := hs
  cases h with
  | talk user => exact ⟨rfl, e, he, ha⟩
  | save hc hw => exact ⟨rfl, e, he, ha⟩
  | failedSave hc hw => exact ⟨rfl, e, he, ha⟩
  | aside files user render => exact ⟨rfl, e, he, ha.turtle, ha.left, ha.right, ha.marks⟩
  | finishReplay completed => exact ⟨rfl, e, he, ha⟩
  | draw hl hc hne hx =>
    obtain ⟨e', he', ha'⟩ := ha.retrace_add he hc hx
    exact ⟨rfl, e', he', ha'⟩
  | reset => cases hd
  | background image => cases hd
  | startReplay => cases hd

/-- What retraces the recorded lines elsewhere draws there what the session has drawn. -/
theorem Drawn.marks {s : Session σ} (hs : Drawn config canvas base s) {base' : List (Mark Float)}
    {d e : Drawing}
    (he : (Drawing.start config canvas).retrace config s.history.scriptLines = some e)
    (hd : Drawing.Alike canvas.bounds base' canvas.marks d e) :
    ∃ added, s.drawing.canvas.marks = base ++ added ∧ d.canvas.marks = base' ++ added := by
  obtain ⟨-, e', he', ha⟩ := hs
  have hee : e' = e := Option.some.inj (he'.symm.trans he)
  subst hee
  obtain ⟨added, hm, hm'⟩ := ha.marks
  obtain ⟨added', hn, hn'⟩ := hd.marks
  have hadded : added' = added := List.append_cancel_left (hn'.symm.trans hm')
  subst hadded
  exact ⟨added', hm, hn⟩

/-- The recorded lines take a fresh turtle on `canvas` to where the session's turtle is. -/
def Retraced (config : Config) (canvas : Canvas Float) (s : Session σ) : Prop :=
  ∃ base, Drawn config canvas base s

namespace Retraced

/-- Every deed keeps the turtle the replay of the history: one that starts over puts it back to
its start. -/
theorem change {d : Deed} {s t : Session σ} (h : Change d s t) (hs : Retraced config canvas s) :
    Retraced config canvas t := by
  obtain ⟨base, hs⟩ := hs
  cases hd : d.startsOver with
  | false => exact ⟨base, hs.change h hd⟩
  | true =>
    obtain ⟨rfl, e, -, ha⟩ := hs
    have hb : s.drawing.canvas.bounds = canvas.bounds := ha.left
    -- whatever starts over puts a fresh turtle in front of an empty history
    cases h with
    | reset => exact ⟨_, .of_fresh rfl hb rfl rfl⟩
    | background image => exact ⟨_, .of_fresh rfl hb rfl rfl⟩
    | startReplay => exact ⟨_, .of_fresh rfl hb rfl rfl⟩
    | _ => cases hd

theorem start (config : Config) (canvas canvas' : Canvas Float)
    (hb : canvas.bounds = canvas'.bounds) (files : FileSystem) (user : σ) :
    Retraced config canvas' (Session.start config canvas files user) :=
  ⟨_, .of_fresh (s := Session.start config canvas files user) rfl hb rfl rfl⟩

/-- A run keeps the turtle the replay of the history. -/
theorem live {s : Session σ} (hs : Retraced config canvas s) (ui : Dialogue σ)
    (events : List (Event σ)) : Retraced config canvas (s.live ui events) :=
  (live_leads ui events s).keeps (fun _ _ _ _ hc hs => hs.change hc) hs

end Retraced

/-- Whatever lines a session has taken, its turtle is where the lines in its history take a fresh
turtle, on any canvas of the same size; none of these lines fails. -/
theorem live_turtle_retraced (ui : Dialogue σ) (config : Config) (canvas : Canvas Float)
    (files : FileSystem) (user : σ) (events : List (Event σ)) (marks : List (Mark Float))
    (background : Option ByteArray) (render : Renderer Float) :
    let s := (start config canvas files user).live ui events
    ∃ d, (Drawing.start config ⟨canvas.bounds, marks, background, render⟩).retrace config
        s.history.scriptLines = some d ∧ s.drawing.turtle = d.turtle := by
  intro s
  have h := Retraced.start config canvas ⟨canvas.bounds, marks, background, render⟩ rfl files user
  obtain ⟨base, -, d, hd, ha⟩ := h.live ui events
  exact ⟨d, hd, ha.turtle⟩

end Session

end TurtleGraphics
