import TurtleGraphics.Proofs.Session.Questions

/-!
# What the user's side keeps

A session changes the user's side only by the reactions of the user. So what every reaction keeps
is kept when a line is taken (`enter_keeps`): the session may as well be one whose user has no
other states (`Dialogue.restrict`).
-/

set_option autoImplicit false

namespace TurtleGraphics

variable {σ : Type} {I : σ → Prop}

namespace Dialogue

/-- Every reaction of the user keeps `I`. -/
structure Keeps (ui : Dialogue σ) (I : σ → Prop) : Prop where
  tell : ∀ text u, I u → I (ui.tell text u)
  askUnsaved : ∀ question u, I u → I (ui.askUnsaved question u).2
  showProgress : ∀ i n u, I u → I (ui.showProgress i n u)
  askReplace : ∀ path u, I u → I (ui.askReplace path u).2
  askSavePath : ∀ suggested u, I u → I (ui.askSavePath suggested u).2
  clearStop : ∀ u, I u → I (ui.clearStop u)

/-- The user with no states but those in `I`. -/
def restrict (ui : Dialogue σ) (h : ui.Keeps I) : Dialogue { u // I u } where
  tell text u := ⟨ui.tell text u.1, h.tell text u.1 u.2⟩
  askUnsaved question u :=
    ((ui.askUnsaved question u.1).1, ⟨(ui.askUnsaved question u.1).2, h.askUnsaved _ _ u.2⟩)
  showProgress i n u := ⟨ui.showProgress i n u.1, h.showProgress i n u.1 u.2⟩
  askReplace path u :=
    ((ui.askReplace path u.1).1, ⟨(ui.askReplace path u.1).2, h.askReplace _ _ u.2⟩)
  askSavePath suggested u :=
    ((ui.askSavePath suggested u.1).1, ⟨(ui.askSavePath suggested u.1).2, h.askSavePath _ _ u.2⟩)
  stopRequested u := ui.stopRequested u.1
  clearStop u := ⟨ui.clearStop u.1, h.clearStop u.1 u.2⟩

theorem restrict_projects (ui : Dialogue σ) (h : ui.Keeps I) :
    Projects Subtype.val (ui.restrict h) ui where
  tell _ _ := rfl
  askUnsaved _ _ := rfl
  showProgress _ _ _ := rfl
  askReplace _ _ := rfl
  askSavePath _ _ := rfl
  stopRequested _ := rfl
  clearStop _ := rfl

end Dialogue

/-- Taking a line keeps what every reaction of the user keeps. -/
theorem Session.enter_keeps {ui : Dialogue σ} (h : ui.Keeps I) (text : String) {s : Session σ}
    (hs : I s.user) : I (s.enter ui text).2.user := by
  let inside : Session { u // I u } := { s with user := ⟨s.user, hs⟩ }
  have hm : s.enter ui text = mapResult Subtype.val (inside.enter (ui.restrict h) text) :=
    enter_mapUser (ui.restrict_projects h) text inside
  rw [hm]
  exact (inside.enter (ui.restrict h) text).2.user.2

end TurtleGraphics
