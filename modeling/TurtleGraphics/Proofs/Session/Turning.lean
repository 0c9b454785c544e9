import TurtleGraphics.Proofs.Command.Validation
import TurtleGraphics.Proofs.Drawing.Proper
import TurtleGraphics.Proofs.Scalar.WholeNumbers
import TurtleGraphics.Proofs.Session.Loading

/-!
# Turning line by line

A heading that is a whole number of degrees stays one, whatever whole numbers it is turned by:
each number and each sum is rounded to binary64, a tie to the even neighbour, before full turns are
taken out (`TurnedTo`). So turns add up as long as nothing is lost to rounding (`turns_add_up`), and
a turn of more than 53 bits can lose a degree (`large_turn_rounded`).
-/

set_option autoImplicit false

namespace TurtleGraphics

open Scalar Binary64

/-! ## Turns of whole degrees -/

/-- What becomes of a heading by turns of whole degrees: each number is rounded, and so is each
sum. -/
inductive TurnedTo : Int → List Int → Int → Prop
  | nil (h : Int) : TurnedTo h [] h
  | cons {h n k m h' : Int} {turns : List Int} (hn : RoundsTo n k) (hs : RoundsTo (h + k) m)
      (rest : TurnedTo (m % 360) turns h') : TurnedTo h (n :: turns) h'

/-- Nothing is lost to rounding: binary64 holds each number and each sum. -/
def Unrounded (h : Int) : List Int → Prop
  | [] => True
  | n :: rest => Holds n ∧ Holds (h + n) ∧ Unrounded ((h + n) % 360) rest

/-- Turns that leave room for a heading below 53 bits are not rounded. -/
theorem unrounded_of_small {turns : List Int} (hsmall : ∀ n ∈ turns, |n| ≤ 2 ^ 53 - 360) {h : Int}
    (hlo : 0 ≤ h) (hhi : h < 360) : Unrounded h turns := by
  induction turns generalizing h with
  | nil => trivial
  | cons n rest ih =>
    obtain ⟨hn, hn'⟩ := abs_le.1 (hsmall n List.mem_cons_self)
    refine ⟨holds_of_abs_le (abs_le.2 ⟨by omega, by omega⟩),
      holds_of_abs_le (abs_le.2 ⟨by omega, by omega⟩),
      ih (fun k hk => hsmall k (List.mem_cons_of_mem _ hk)) ?_ ?_⟩ <;> omega

/-- There is only one way to round. -/
theorem TurnedTo.unique {h k j : Int} {turns : List Int} (hk : TurnedTo h turns k)
    (hj : TurnedTo h turns j) : j = k := by
  induction hk with
  | nil h =>
    cases hj
    rfl
  | cons hn hs _ ih =>
    cases hj with
    | cons hn' hs' rest' =>
      obtain rfl := hn.unique hn'
      obtain rfl := hs.unique hs'
      exact ih rest'

theorem TurnedTo.sum {h h' : Int} {turns : List Int} (ht : TurnedTo h turns h')
    (hu : Unrounded h turns) (hmod : h % 360 = h) : h' = (h + turns.sum) % 360 := by
  induction ht with
  | nil h => simp [hmod]
  | @cons h n k m h' turns hn hs rest ih =>
    obtain ⟨hheld, hheld', hrest⟩ := hu
    obtain rfl := hn.eq_of_holds hheld
    obtain rfl := hs.eq_of_holds hheld'
    rw [ih hrest (Int.emod_emod _ _), List.sum_cons]
    omega

/-! ## Headings -/

/-- The angle is wrapped, and a whole number of degrees. -/
structure Degrees (x : Float) (h : Int) : Prop where
  wrapped : Wrapped x
  value_eq : value x = h

theorem Degrees.wrapDegrees {x : Float} (hx : x.isFinite) {h : Int} (hv : value x = h) :
    Degrees (wrapDegrees x) (h % 360) :=
  ⟨wrapDegrees_wrapped hx, value_wrapDegrees hx hv⟩

/-- One turn rounds twice. -/
theorem Degrees.turn {x : Float} {h : Int} (hx : Degrees x h) (n : Int64) :
    ∃ k m, value (scalarOf n) = (k : Int) ∧ RoundsTo n.toInt k ∧ RoundsTo (h + k) m ∧
      Degrees (Scalar.wrapDegrees (x + scalarOf n)) (m % 360) := by
  obtain ⟨⟨hfin, hnear⟩, hfin', hnear'⟩ := add_scalarOf hx.wrapped n
  obtain ⟨k, hk, hround⟩ := hnear.roundsTo hfin
  rw [hx.value_eq, hk, ← Int.cast_add] at hnear'
  obtain ⟨m, hm, hround'⟩ := hnear'.roundsTo hfin'
  exact ⟨k, m, hk, hround, hround', .wrapDegrees hfin' hm⟩

/-! ## Lines -/

/-- The line is accepted, and turns the turtle clockwise by so many degrees. -/
inductive TurnsBy (text : String) : Int → Prop
  | left {l : Line} {c : Command} {n : Int} (hl : Line.read text = .ok (some l))
      (hk : l.keyword = .left) (hc : Command.ofLine l = .ok c)
      (hn : Arguments.whole? l.arguments = some n) : TurnsBy text (-n)
  | right {l : Line} {c : Command} {n : Int} (hl : Line.read text = .ok (some l))
      (hk : l.keyword = .right) (hc : Command.ofLine l = .ok c)
      (hn : Arguments.whole? l.arguments = some n) : TurnsBy text n

theorem TurnsBy.ofText {text : String} {n : Int} (h : TurnsBy text n) :
    ∃ m : Int64, m.toInt = n ∧ Command.ofText text = .ok (some (.act (.turn m))) := by
  cases h with
  | @left l c k hl hk hc hn =>
    obtain ⟨name, args, typed⟩ := l
    obtain rfl : name = .left := hk
    obtain ⟨m, hm, hx⟩ := bind_eq_ok hc
    obtain ⟨hw, hne⟩ := Arguments.negatable_eq_ok hm
    cases hn.symm.trans hw
    cases hx
    refine ⟨-m, toInt_neg_of_ne hne, ?_⟩
    rw [Command.ofText, hl]
    exact congrArg (Except.map some) hc
  | @right l c k hl hk hc hn =>
    obtain ⟨name, args, typed⟩ := l
    obtain rfl : name = .right := hk
    obtain ⟨m, hm, hx⟩ := bind_eq_ok hc
    cases hn.symm.trans (Arguments.integer_eq_ok hm)
    cases hx
    refine ⟨m, rfl, ?_⟩
    rw [Command.ofText, hl]
    exact congrArg (Except.map some) hc

namespace Session

variable {σ : Type} (ui : Dialogue σ)

theorem enter_turn {text : String} {n : Int64}
    (h : Command.ofText text = .ok (some (.act (.turn n)))) (s : Session σ) :
    (s.enter ui text).2.drawing.turtle.heading =
      wrapDegrees (s.drawing.turtle.heading + scalarOf n) := by
  obtain ⟨heard, told, he⟩ := enterWith_command ui (load ui) h s
  unfold enter
  rw [he]
  have hact := act_of_ok (a := .turn n) (s := { s with user := heard }) (Text.trim text)
    (by simp) rfl
  simp only [run, hact]
  rfl

/-- Lines that turn leave a heading of whole degrees. -/
theorem enterAll_turned {texts : List String} {turns : List Int}
    (h : List.Forall₂ TurnsBy texts turns) {s : Session σ} {k : Int}
    (hs : Degrees s.drawing.turtle.heading k) :
    ∃ k', Degrees (s.enterAll ui texts).drawing.turtle.heading k' ∧ TurnedTo k turns k' := by
  induction h generalizing s k with
  | nil => exact ⟨k, hs, .nil k⟩
  | @cons text n texts turns ht _ ih =>
    obtain ⟨m, rfl, hc⟩ := ht.ofText
    obtain ⟨l, sum, -, hround, hround', hd⟩ := hs.turn m
    rw [← enter_turn ui hc s] at hd
    obtain ⟨k', hk', hturned⟩ := ih hd
    exact ⟨k', hk', .cons hround hround' hturned⟩

theorem start_degrees {config : Config} (hc : config.heading.isFinite) {h : Int}
    (hv : value config.heading = h) (canvas : Canvas Float) (files : FileSystem) (user : σ) :
    Degrees (start config canvas files user).drawing.turtle.heading (h % 360) :=
  .wrapDegrees hc hv

/-- The heading after accepted lines that turn, if the configured heading is a whole number of
degrees: it is one again, in every case the only one that comes out when each number and each sum
is rounded to binary64. As long as binary64 holds all of them, for instance if no turn exceeds
`2 ^ 53 - 360` degrees either way, it is exactly the sum of the turns to the right less those to the
left, without full turns. -/
theorem turns_add_up {config : Config} (hc : config.heading.isFinite) {h : Int}
    (hv : value config.heading = h) (canvas : Canvas Float) (files : FileSystem) (user : σ)
    {texts : List String} {turns : List Int} (ht : List.Forall₂ TurnsBy texts turns) :
    let heading := ((start config canvas files user).enterAll ui texts).drawing.turtle.heading
    heading.isFinite ∧ ∃ final : Int, value heading = final ∧ TurnedTo (h % 360) turns final ∧
      (∀ k, TurnedTo (h % 360) turns k → k = final) ∧
      (Unrounded (h % 360) turns → final = (h + turns.sum) % 360) ∧
      ((∀ n ∈ turns, |n| ≤ 2 ^ 53 - 360) → final = (h + turns.sum) % 360) := by
  intro heading
  obtain ⟨final, hfinal, hturned⟩ := enterAll_turned ui ht (start_degrees hc hv canvas files user)
  have hsum : Unrounded (h % 360) turns → final = (h + turns.sum) % 360 := by
    intro hu
    rw [hturned.sum hu (Int.emod_emod _ _)]
    omega
  exact ⟨hfinal.wrapped.isFinite, final, hfinal.value_eq, hturned, fun _ => hturned.unique, hsum,
    fun hsmall => hsum (unrounded_of_small hsmall (by omega) (by omega))⟩

/-- Turns of more than a full circle, one of them as large as may be for any heading. -/
theorem turns_add_up_sample :
    let texts := ["left 90", "rt 725", "right -9007199254740632"]
    let turns := [-90, 725, -9007199254740632]
    Config.standard.heading.isFinite ∧ value Config.standard.heading = (270 : Int) ∧
      List.Forall₂ TurnsBy texts turns ∧
      value ((start .standard (.blank ⟨200, 200⟩) .empty 0).enterAll (stopsAfter 9)
        texts).drawing.turtle.heading = (153 : Int) := by
  intro texts turns
  have hc : Config.standard.heading.isFinite := rfl
  have hv : value Config.standard.heading = (270 : Int) := (value_whole (n := 270) (by norm_num)).2
  have ht : List.Forall₂ TurnsBy texts turns :=
    .cons (.left (l := ⟨.left, some "90", none⟩) rfl rfl rfl rfl) <|
      .cons (.right (l := ⟨.right, some "725", some "rt"⟩) rfl rfl rfl rfl) <|
        .cons (.right (l := ⟨.right, some "-9007199254740632", none⟩) rfl rfl rfl rfl) .nil
  obtain ⟨-, final, hfinal, -, -, -, hsum⟩ :=
    turns_add_up (stopsAfter 9) hc hv (.blank ⟨200, 200⟩) .empty 0 ht
  have hsmall : ∀ n ∈ turns, |n| ≤ 2 ^ 53 - 360 := by decide
  rw [hsum hsmall] at hfinal
  exact ⟨hc, hv, ht, hfinal⟩

/-- A turn of 54 bits loses a degree: from 0 it should lead to 33. -/
theorem large_turn_rounded :
    let config := { Config.standard with heading := 0 }
    TurnsBy "right 9007199254740993" 9007199254740993 ∧ (0 + 9007199254740993 : Int) % 360 = 33 ∧
      value ((start config (.blank ⟨200, 200⟩) .empty 0).enterAll (stopsAfter 9)
        ["right 9007199254740993"]).drawing.turtle.heading = (32 : Int) := by
  intro config
  have ht : TurnsBy "right 9007199254740993" 9007199254740993 :=
    .right (l := ⟨.right, some "9007199254740993", none⟩) rfl rfl rfl rfl
  refine ⟨ht, by norm_num, ?_⟩
  have hc : config.heading.isFinite := whole_zero.1
  have hv : value config.heading = (0 : Int) := whole_zero.2.trans Int.cast_zero.symm
  have hread : Command.ofText "right 9007199254740993" =
    .ok (some (.act (.turn 9007199254740993))) := rfl
  have hunpack : (scalarOf 9007199254740993).toModel.unpack =
    .finite .positive (2 ^ 52) 1 (by norm_num) := rfl
  have hrounded : value (scalarOf 9007199254740993) = (2 ^ 53 : Int) := by
    rw [value, hunpack]
    norm_num [Float.Model.UnpackedFloat.Sign.apply]
  obtain ⟨k, m, hk, -, hround, hd⟩ :=
    (start_degrees hc hv (.blank ⟨200, 200⟩) .empty 0).turn 9007199254740993
  obtain rfl : (2 ^ 53 : Int) = k := by exact_mod_cast hrounded.symm.trans hk
  obtain rfl := hround.eq_of_holds (holds_of_abs_le (by norm_num))
  rw [← enter_turn (stopsAfter 9) hread] at hd
  exact hd.value_eq

end Session

end TurtleGraphics
