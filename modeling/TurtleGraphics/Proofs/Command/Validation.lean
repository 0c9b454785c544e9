import TurtleGraphics.Proofs.Command.Errors
import TurtleGraphics.Proofs.Command.Reading

/-!
# Validated actions

The numbers of an action that a line gives are in range (`Action.InRange`), and they are the whole
numbers in the text of the line, with the sign that the word of the line asks for: nothing is lost
when they are negated or brought to fewer bits (`Action.Exact`). Each reader of arguments has a
lemma for its success, and a command is put together from these (`ofLine_validated`). What is in
range can only fail by leaving the canvas (`validated_outcome`).
-/

set_option autoImplicit false

namespace TurtleGraphics

/-! ## Machine words -/

theorem toInt_neg_of_ne {n : Int64} (h : n ≠ Int64.minValue) : (-n).toInt = -n.toInt := by
  have hn : n.toInt ≠ -2 ^ 63 := by
    intro he
    exact h (Int64.toInt_inj.1 (he.trans Int64.toInt_minValue.symm))
  have hlo := Int64.le_toInt n
  have hhi := Int64.toInt_lt n
  rw [Int64.toInt_neg]
  apply Int.bmod_eq_of_le <;> omega

theorem toInt_pos {n : Int64} (h : 0 < n) : 0 < n.toInt := by
  have hlt := Int64.lt_iff_toInt_lt.1 h
  rwa [Int64.toInt_zero] at hlt

/-- A positive number has a negative of 64 bits. -/
theorem toInt_neg_of_pos {n : Int64} (h : 0 < n) : (-n).toInt = -n.toInt := by
  apply toInt_neg_of_ne
  rintro rfl
  exact absurd h (by decide)

theorem Colour.byteOf_eq_ok {channel : Channel} {value : Int64} {byte : UInt8}
    (h : byteOf channel value = .ok byte) : value.toInt = byte.toNat := by
  unfold byteOf at h
  split at h
  · rename_i hv
    obtain ⟨hlo, hhi⟩ := hv
    have h0 : 0 ≤ value.toInt := by simpa using Int64.le_iff_toInt_le.1 hlo
    have h255 : value.toInt ≤ 255 := Int64.le_iff_toInt_le.1 hhi
    have hsize : value.toInt.toNat < UInt8.size := by
      show value.toInt.toNat < 256
      omega
    cases h
    rw [UInt8.toNat_ofNat_of_lt' hsize]
    omega
  · cases h

theorem Colour.ofChannels_eq_ok {r g b : Int64} {c : Colour} (h : ofChannels r g b = .ok c) :
    r.toInt = c.red.toNat ∧ g.toInt = c.green.toNat ∧ b.toInt = c.blue.toNat := by
  obtain ⟨red, hr, h⟩ := bind_eq_ok h
  obtain ⟨green, hg, h⟩ := bind_eq_ok h
  obtain ⟨blue, hb, h⟩ := bind_eq_ok h
  cases h
  exact ⟨byteOf_eq_ok hr, byteOf_eq_ok hg, byteOf_eq_ok hb⟩

/-! ## Arguments -/

namespace Arguments

/-- The whole number that the parameters are. -/
def whole? (args : Option String) : Option Int :=
  args.bind fun text => Text.readInteger? (Text.trimBoth text.toList)

/-- The whole numbers that the entries of a comma list are. -/
def listed (args : Option String) : List (Option Int) :=
  match args with
  | some text =>
    (Text.pieces (· = ',') text.toList).map fun p => Text.readInteger? (Text.trimBoth p)
  | none => []

variable {name : Keyword} {args : Option String}

theorem absent_eq_ok {α : Type} {value x : α} (h : absent name args value = .ok x) : x = value := by
  unfold absent at h
  split at h
  · cases h
    rfl
  · cases h

theorem single_eq_ok {text : String} (h : single name args = .ok text) : args = some text := by
  unfold single at h
  split at h
  · dsimp only at h
    split at h
    · cases h
      rfl
    · cases h
  · cases h

theorem readInteger_eq_ok {text : String} {n : Int64} (h : readInteger name text = .ok n) :
    Text.readInteger? (Text.trimBoth text.toList) = some n.toInt := by
  unfold readInteger at h
  dsimp only at h
  split at h
  · rename_i hn
    cases h
    exact Text.toInt_of_readInt64?_eq_some hn
  · cases h

theorem integer_eq_ok {n : Int64} (h : integer name args = .ok n) : whole? args = some n.toInt := by
  obtain ⟨text, ht, hn⟩ := bind_eq_ok h
  rw [single_eq_ok ht]
  exact readInteger_eq_ok hn

theorem positive_eq_ok {n : Int64} (h : positive name args = .ok n) :
    whole? args = some n.toInt ∧ 0 < n := by
  obtain ⟨m, hm, hn⟩ := bind_eq_ok h
  split at hn
  · rename_i hpos
    cases hn
    exact ⟨integer_eq_ok hm, hpos⟩
  · cases hn

theorem negatable_eq_ok {n : Int64} (h : negatable name args = .ok n) :
    whole? args = some n.toInt ∧ n ≠ Int64.minValue := by
  obtain ⟨m, hm, hn⟩ := bind_eq_ok h
  split at hn
  · cases hn
  · rename_i hne
    cases hn
    exact ⟨integer_eq_ok hm, hne⟩

theorem width_eq_ok {w : UInt32} (h : width name args = .ok w) :
    whole? args = some (w.toNat : Int) ∧ w ≠ 0 := by
  obtain ⟨n, hn, hw⟩ := bind_eq_ok h
  obtain ⟨hwhole, hpos⟩ := positive_eq_ok hn
  have hn0 := toInt_pos hpos
  split at hw
  · rename_i hlt
    cases hw
    have hnat : (UInt32.ofNat n.toInt.toNat).toNat = n.toInt.toNat :=
      UInt32.toNat_ofNat_of_lt' (by omega)
    refine ⟨?_, fun h0 => ?_⟩
    · rw [hwhole, hnat]
      congr 1
      omega
    · rw [h0] at hnat
      have : (0 : UInt32).toNat = 0 := rfl
      omega
  · cases hw

theorem triple_eq_ok {a b c : String} (h : triple name args = .ok (a, b, c)) :
    listed args = [a, b, c].map fun t => Text.readInteger? (Text.trimBoth t.toList) := by
  cases args with
  | none => cases h
  | some text =>
    unfold triple at h
    dsimp only at h
    split at h
    · rename_i a' b' c' hparts
      cases h
      -- what was cut is trimmed already
      have hmap := congrArg (List.map fun t => Text.readInteger? (Text.trimBoth t.toList)) hparts
      rw [List.map_map] at hmap
      refine Eq.trans (List.map_congr_left fun p _ => ?_) hmap
      simp only [Function.comp_apply, String.toList_ofList, Text.trimBoth_trimBoth]
    · cases h

theorem colour_eq_ok {c : Colour} (h : colour name args = .ok c) :
    listed args = [some (c.red.toNat : Int), some (c.green.toNat : Int),
      some (c.blue.toNat : Int)] := by
  obtain ⟨⟨r, g, b⟩, ht, h⟩ := bind_eq_ok h
  obtain ⟨red, hr, h⟩ := bind_eq_ok h
  obtain ⟨green, hg, h⟩ := bind_eq_ok h
  obtain ⟨blue, hb, h⟩ := bind_eq_ok h
  cases hc : Colour.ofChannels red green blue with
  | error bad => simp [hc, Except.mapError] at h
  | ok c' =>
    rw [hc] at h
    cases h
    obtain ⟨her, heg, heb⟩ := Colour.ofChannels_eq_ok hc
    rw [triple_eq_ok ht]
    simp only [List.map_cons, List.map_nil, readInteger_eq_ok hr, readInteger_eq_ok hg,
      readInteger_eq_ok hb, her, heg, heb]

theorem side_eq_ok {text : String} {x : Float} (h : side name text = .ok x) :
    x.isFinite = true := by
  unfold side at h
  split at h
  · split at h
    · cases h
    · rename_i hfin
      split at h
      · cases h
      · cases h
        simpa using hfin
  · cases h

end Arguments

/-! ## Actions -/

/-- The sides are positive, and three of them are finite and close to a triangle. -/
def TriangleSize.InRange : TriangleSize → Prop
  | equilateral n => 0 < n
  | sides a b c => a.isFinite ∧ b.isFinite ∧ c.isFinite ∧ IsTriangle a b c

theorem Arguments.triangle_eq_ok {name : Keyword} {args : Option String} {size : TriangleSize}
    (h : triangle name args = .ok size) :
    size.InRange ∧ ∀ n, size = .equilateral n → whole? args = some n.toInt := by
  unfold triangle at h
  split at h
  · obtain ⟨⟨ta, tb, tc⟩, -, h⟩ := bind_eq_ok h
    obtain ⟨a, ha, h⟩ := bind_eq_ok h
    obtain ⟨b, hb, h⟩ := bind_eq_ok h
    obtain ⟨c, hc, h⟩ := bind_eq_ok h
    split at h
    · rename_i htri
      cases h
      refine ⟨⟨side_eq_ok ha, side_eq_ok hb, side_eq_ok hc, htri⟩, fun n hn => ?_⟩
      cases hn
    · cases h
  · obtain ⟨n, hn, h⟩ := bind_eq_ok h
    cases h
    obtain ⟨hwhole, hpos⟩ := positive_eq_ok hn
    refine ⟨hpos, fun m hm => ?_⟩
    cases hm
    exact hwhole

namespace Action

/-- The sizes, distances and widths of an action are in range. -/
def InRange : Action → Prop
  | move n => n ≠ 0 ∧ n ≠ Int64.minValue
  | penWidth w => w ≠ 0
  | square n | star n | hexagon n | circle n => 0 < n
  | triangle size => size.InRange
  | _ => True

/-- The whole number in an action, if it has just one. -/
def number? : Action → Option Int
  | turn n | move n | square n | star n | hexagon n | circle n | triangle (.equilateral n) =>
    some n.toInt
  | penWidth w => some w.toNat
  | _ => none

end Action

/-- The sign that a word gives to the number behind it. -/
def Keyword.sign : Keyword → Int
  | left | reverse => -1
  | _ => 1

open Arguments in
/-- The whole numbers in an action are exactly those in the text of the line, in the sign that its
word asks for. -/
structure Action.Exact (l : Line) (a : Action) : Prop where
  number : ∀ k, a.number? = some k → ∃ n, whole? l.arguments = some n ∧ k = l.keyword.sign * n
  channels : ∀ c, a = .colour c → l.keyword = .penColour → listed l.arguments =
    [some (c.red.toNat : Int), some (c.green.toNat : Int), some (c.blue.toNat : Int)]

namespace Action.Exact

variable {name : Keyword} {args typed : Option String} {a : Action}

/-- An action without a number, of another word than the one that lists channels. -/
theorem of_none (ha : a.number? = none) (hn : name ≠ .penColour) : Exact ⟨name, args, typed⟩ a := by
  refine ⟨fun k hk => ?_, fun c _ h => absurd h hn⟩
  rw [ha] at hk
  cases hk

/-- An action with the number in the text. -/
theorem of_number {n k : Int} (ha : a.number? = some k) (hw : Arguments.whole? args = some n)
    (hk : k = name.sign * n) (hn : name ≠ .penColour) : Exact ⟨name, args, typed⟩ a := by
  refine ⟨fun k' hk' => ⟨n, hw, ?_⟩, fun c _ h => absurd h hn⟩
  rw [ha] at hk'
  cases hk'
  exact hk

end Action.Exact

namespace Command

open Arguments

/-- A line that gives an action gives one in range, with the numbers in its text. -/
theorem ofLine_validated {l : Line} {a : Action} (h : ofLine l = .ok (.act a)) :
    a.Exact l ∧ a.InRange := by
  obtain ⟨name, args, typed⟩ := l
  cases name
  case save | load =>
    obtain ⟨x, -, hx⟩ := bind_eq_ok h
    cases hx
  case left =>
    obtain ⟨n, hn, hx⟩ := bind_eq_ok h
    cases hx
    obtain ⟨hw, hmin⟩ := negatable_eq_ok hn
    refine ⟨.of_number rfl hw ?_ (by decide), trivial⟩
    rw [toInt_neg_of_ne hmin]
    simp [Keyword.sign]
  case reverse =>
    obtain ⟨n, hn, hx⟩ := bind_eq_ok h
    cases hx
    obtain ⟨hw, hpos⟩ := positive_eq_ok hn
    have hneg := toInt_neg_of_pos hpos
    have hn0 := toInt_pos hpos
    refine ⟨.of_number rfl hw ?_ (by decide), ?_, ?_⟩
    · rw [hneg]
      simp [Keyword.sign]
    · intro h0
      rw [h0, Int64.toInt_zero] at hneg
      omega
    · intro hmin
      have hhi := Int64.toInt_lt n
      rw [hmin, Int64.toInt_minValue] at hneg
      omega
  case right =>
    obtain ⟨n, hn, hx⟩ := bind_eq_ok h
    cases hx
    exact ⟨.of_number rfl (integer_eq_ok hn) (by simp [Keyword.sign]) (by decide), trivial⟩
  case move =>
    obtain ⟨n, hn, hx⟩ := bind_eq_ok h
    cases hx
    obtain ⟨hw, hpos⟩ := positive_eq_ok hn
    refine ⟨.of_number rfl hw (by simp [Keyword.sign]) (by decide), ?_, ?_⟩
    · rintro rfl
      exact absurd hpos (by decide)
    · rintro rfl
      exact absurd hpos (by decide)
  case square | star | hexagon | circle =>
    obtain ⟨n, hn, hx⟩ := bind_eq_ok h
    cases hx
    obtain ⟨hw, hpos⟩ := positive_eq_ok hn
    exact ⟨.of_number rfl hw (by simp [Keyword.sign]) (by decide), hpos⟩
  case penWidth =>
    obtain ⟨w, hw, hx⟩ := bind_eq_ok h
    cases hx
    obtain ⟨hwhole, hne⟩ := width_eq_ok hw
    exact ⟨.of_number rfl hwhole (by simp [Keyword.sign]) (by decide), hne⟩
  case triangle =>
    obtain ⟨size, hs, hx⟩ := bind_eq_ok h
    cases hx
    obtain ⟨hrange, hwhole⟩ := triangle_eq_ok hs
    refine ⟨?_, hrange⟩
    cases size with
    | equilateral n =>
      exact .of_number rfl (hwhole n rfl) (by simp [Keyword.sign]) (by decide)
    | sides x y z => exact .of_none rfl (by decide)
  case penColour =>
    obtain ⟨c, hc, hx⟩ := bind_eq_ok h
    cases hx
    refine ⟨⟨fun k hk => ?_, fun c' hc' _ => ?_⟩, trivial⟩
    · cases hk
    · cases hc'
      exact colour_eq_ok hc
  -- what is left takes no parameters
  all_goals
    obtain ⟨x, hx, he⟩ := bind_eq_ok h
    cases absent_eq_ok hx
    cases he
    exact ⟨.of_none rfl (by decide), trivial⟩

end Command

/-! ## Outcomes -/

/-- An action in range is carried out unless it would reach a point outside its fence. -/
theorem Action.execute_of_inRange {a : Action} (ha : a.InRange) (config : Config) (d : Drawing) :
    (a.execute config d).1 = .ok a.message ∨
      ∃ p, (a.execute config d).1 = .error (.leavesCanvas p) ∧
        ¬ Turtle.Within (config.fence d.canvas.bounds) p := by
  have hw : a ≠ .penWidth 0 := by
    rintro rfl
    exact ha rfl
  have hf := execute_leaves config hw d
  cases hx : (a.execute config d).1 with
  | ok message =>
    rw [execute_eq] at hx
    obtain ⟨u, -, hm⟩ := map_eq_ok hx
    exact .inl (by rw [hm])
  | error e =>
    have he := hf e hx
    cases e with
    | leavesCanvas p => exact .inr ⟨p, rfl, he⟩
    | _ => exact he.elim

/-- The action of a line that is understood has the numbers of the line, and they are in range. It
is carried out, or refused because it would leave the canvas; where the turtle may wander off it is
always carried out. -/
theorem validated_outcome {text : String} {a : Action}
    (h : Command.ofText text = .ok (some (.act a))) :
    (∃ l, Line.read text = .ok (some l) ∧ a.Exact l) ∧ a.InRange ∧
      ∀ (config : Config) (d : Drawing),
        ((a.execute config d).1 = .ok a.message ∨
          ∃ p, (a.execute config d).1 = .error (.leavesCanvas p)) ∧
        (config.edgeRule = .ignore → (a.execute config d).1 = .ok a.message) := by
  obtain ⟨l, hl, hc⟩ := Command.ofText_eq_ok h
  obtain ⟨hexact, hrange⟩ := Command.ofLine_validated hc
  refine ⟨⟨l, hl, hexact⟩, hrange, fun config d => ?_⟩
  rcases Action.execute_of_inRange hrange config d with hok | ⟨p, hp, hout⟩
  · exact ⟨.inl hok, fun _ => hok⟩
  · refine ⟨.inr ⟨p, hp⟩, fun hrule => ?_⟩
    -- without a fence there is no point outside it
    have hfence : config.fence d.canvas.bounds = none := by simp only [Config.fence, hrule]
    rw [hfence] at hout
    exact absurd (by simp [Turtle.Within]) hout

theorem validated_outcome_sample :
    let a := Action.move (-9223372036854775807)
    Command.ofText "reverse 9223372036854775807" = .ok (some (.act a)) ∧ a.InRange ∧
      ∀ d, (a.execute .standard d).1 = .ok a.message ∨
        ∃ p, (a.execute .standard d).1 = .error (.leavesCanvas p) := by
  intro a
  have hc : Command.ofText "reverse 9223372036854775807" = .ok (some (.act a)) := rfl
  obtain ⟨-, hrange, hout⟩ := validated_outcome hc
  exact ⟨hc, hrange, fun d => (hout .standard d).1⟩

/-- The one number of 64 bits that has no negative is rejected with the line. -/
example : Command.ofText "left -9223372036854775808" =
    .error (.outOfRange .left "-9223372036854775808") := rfl

end TurtleGraphics
