import TurtleGraphics.Proofs.Command.Grammar
import TurtleGraphics.Proofs.Command.Validation
import TurtleGraphics.Proofs.Scalar.Zeros

/-!
# The language of arguments

A line gives a command exactly if the grammar accepts its arguments, and it is rejected exactly with
the error that the grammar rejects them with (`Command.ofLine_language`). What the grammar says is
what the line comes to (`ofLine_of_accepts`, `ofLine_of_rejects`), and the grammar says something of
all arguments (`Grammar.decided`). Lists are read part by part, so the first part that fails decides
(`inTurn_error`); the lengths of sides are decimals within the range of floats (`isSide_iff`).
-/

set_option autoImplicit false

namespace TurtleGraphics

open Text Grammar

/-! ## Whole numbers -/

namespace Arguments

variable {name : Keyword} {args : Option String}

theorem tokens_some (text : String) : tokens (some text) = words text.toList := by
  simp only [Option.elim, tokens, words_eq_filter]
  congr 1
  funext w
  cases w <;> rfl

theorem single_of_tokens (name : Keyword) {token : List Char} (ht : tokens args = [token]) :
    ∃ text, single name args = .ok text ∧ trimBoth text.toList = token := by
  cases args with
  | none => cases ht
  | some text =>
    rw [tokens_some] at ht
    exact ⟨text, by simp [single, ht], trimBoth_of_words ht⟩

theorem single_of_count (ht : (tokens args).length ≠ 1) :
    single name args = .error (.wrongArity name .one (tokens args).length) := by
  cases args with
  | none => rfl
  | some text =>
    rw [tokens_some] at ht ⊢
    simp [single, ht]

theorem readInteger_of_spells {text : String} {cs : List Char} {v : Int64}
    (ht : trimBoth text.toList = cs) (hv : Spells cs v) : readInteger name text = .ok v := by
  unfold readInteger
  simp only [ht, readInt64?_eq_some_iff.2 hv]

theorem readInteger_of_not_spells {text : String} {cs : List Char}
    (ht : trimBoth text.toList = cs) (hv : ∀ v, ¬ Spells cs v) :
    readInteger name text = .error (.notANumber name (String.ofList cs)) := by
  have hnone : readInt64? cs = none := by
    cases h : readInt64? cs with
    | none => rfl
    | some v => exact absurd (readInt64?_eq_some_iff.1 h) (hv v)
  unfold readInteger
  simp only [ht, hnone]

theorem integer_of_spells {token : List Char} {v : Int64} (ht : tokens args = [token])
    (hv : Spells token v) : integer name args = .ok v := by
  obtain ⟨text, hs, htrim⟩ := single_of_tokens name ht
  rw [integer, hs]
  exact readInteger_of_spells htrim hv

theorem integer_of_not_spells {token : List Char} (ht : tokens args = [token])
    (hv : ∀ v, ¬ Spells token v) :
    integer name args = .error (.notANumber name (String.ofList token)) := by
  obtain ⟨text, hs, htrim⟩ := single_of_tokens name ht
  rw [integer, hs]
  exact readInteger_of_not_spells htrim hv

theorem integer_of_count (ht : (tokens args).length ≠ 1) :
    integer name args = .error (.wrongArity name .one (tokens args).length) := by
  rw [integer, single_of_count ht]
  rfl

theorem pos_iff (v : Int64) : 0 < v ↔ 0 < v.toInt := by
  rw [Int64.lt_iff_toInt_lt, Int64.toInt_zero]

theorem positive_of_pos {v : Int64} (h : integer name args = .ok v) (hv : 0 < v.toInt) :
    positive name args = .ok v := by
  rw [positive, h]
  exact if_pos ((pos_iff v).2 hv)

theorem positive_of_nonpos {v : Int64} (h : integer name args = .ok v) (hv : v.toInt ≤ 0) :
    positive name args = .error (.notPositive name (toString v.toInt)) := by
  rw [positive, h]
  exact if_neg (mt (pos_iff v).1 (not_lt.2 hv))

theorem hasComma_iff (args : Option String) :
    (args.any fun text => text.toList.contains ',') = true ↔ HasComma args := by
  cases args with
  | none => simp [HasComma]
  | some text => simp [HasComma]

end Arguments

namespace Command

open Arguments

variable {name : Keyword} {args typed : Option String} {v : Int64}

theorem ofLine_of_integer_error (hn : TakesNumber name args) {e : Error}
    (h : integer name args = .error e) : ofLine ⟨name, args, typed⟩ = .error e := by
  cases name
  case triangle =>
    have hc : ¬ (args.any fun text => text.toList.contains ',') = true :=
      mt (hasComma_iff args).1 hn
    simp only [ofLine, Arguments.triangle, if_neg hc, positive, h]
    rfl
  case left | right | move | reverse | penWidth | square | star | hexagon | circle =>
    simp only [ofLine, negatable, positive, width, h]
    rfl
  all_goals exact hn.elim

/-- A number in range makes the command that carries it. -/
theorem ofLine_of_integer (hn : TakesNumber name args) (h : integer name args = .ok v)
    (hp : name.signed = false → 0 < v.toInt) {a : Action} (ha : Carries v.toInt name a) :
    ofLine ⟨name, args, typed⟩ = .ok (.act a) := by
  have hpositive := fun hs => positive_of_pos h (hp hs)
  cases ha with
  | @left u hu =>
    have hmin : v ≠ Int64.minValue := by
      rintro rfl
      have := u.toInt_lt
      rw [Int64.toInt_minValue] at hu
      omega
    obtain rfl : u = -v := Int64.toInt_inj.1 (by rw [hu, toInt_neg_of_ne hmin])
    simp only [ofLine, negatable, h]
    show (if v = Int64.minValue then _ else _ : Except Error Int64) >>= _ = _
    rw [if_neg hmin]
    rfl
  | @reverse u hu =>
    have hpos : 0 < v := (pos_iff v).2 (hp rfl)
    obtain rfl : u = -v := Int64.toInt_inj.1 (by rw [hu, toInt_neg_of_pos hpos])
    simp only [ofLine, hpositive rfl]
    rfl
  | @penWidth w hw =>
    have hlt : v.toInt < UInt32.size := by
      have := w.toNat_lt
      rw [← hw]
      exact_mod_cast this
    obtain rfl : w = UInt32.ofNat v.toInt.toNat := by
      rw [← hw, Int.toNat_natCast, UInt32.ofNat_toNat]
    simp only [ofLine, width, hpositive rfl]
    show (if v.toInt < UInt32.size then _ else _ : Except Error UInt32) >>= _ = _
    rw [if_pos hlt]
    rfl
  | @right u hu =>
    obtain rfl := Int64.toInt_inj.1 hu
    simp only [ofLine, h]
    rfl
  | @triangle u hu =>
    obtain rfl := Int64.toInt_inj.1 hu
    have hc : ¬ (args.any fun text => text.toList.contains ',') = true :=
      mt (hasComma_iff args).1 hn
    simp only [ofLine, Arguments.triangle, if_neg hc, hpositive rfl]
    rfl
  | @move u hu | @square u hu | @star u hu | @hexagon u hu | @circle u hu =>
    obtain rfl := Int64.toInt_inj.1 hu
    simp only [ofLine, hpositive rfl]
    rfl

/-- A number out of range is reported. -/
theorem ofLine_of_rejected (hn : TakesNumber name args) (h : integer name args = .ok v)
    {e : Error} (he : RejectsNumber v.toInt name e) : ofLine ⟨name, args, typed⟩ = .error e := by
  cases he with
  | notPositive hs hv =>
    have hpositive := positive_of_nonpos h hv
    cases name
    case triangle =>
      have hc : ¬ (args.any fun text => text.toList.contains ',') = true :=
        mt (hasComma_iff args).1 hn
      simp only [ofLine, Arguments.triangle, if_neg hc, hpositive]
      rfl
    case left | right => cases hs
    case move | reverse | penWidth | square | star | hexagon | circle =>
      simp only [ofLine, width, hpositive]
      rfl
    all_goals exact hn.elim
  | noNegative hv =>
    obtain rfl : v = Int64.minValue :=
      Int64.toInt_inj.1 (by rw [hv, Int64.toInt_minValue]; norm_num)
    simp only [ofLine, negatable, h]
    rfl
  | tooWide hv =>
    have hsize : ¬ v.toInt < UInt32.size := by
      show ¬ v.toInt < (4294967296 : Int)
      omega
    simp only [ofLine, width, positive_of_pos h (by omega)]
    show (if v.toInt < UInt32.size then _ else _ : Except Error UInt32) >>= _ = _
    rw [if_neg hsize]
    rfl

/-- A number is in range, or it is out of range in one of the ways that are reported. -/
theorem number_total (hn : TakesNumber name args) (v : Int64) :
    (∃ a, (name.signed = false → 0 < v.toInt) ∧ Carries v.toInt name a) ∨
      ∃ e, RejectsNumber v.toInt name e := by
  by_cases hp : name.signed = false ∧ v.toInt ≤ 0
  · exact .inr ⟨_, .notPositive hp.1 hp.2⟩
  have hpos : name.signed = false → 0 < v.toInt := fun hs => not_le.1 fun h => hp ⟨hs, h⟩
  cases name
  case left =>
    by_cases hmin : v = Int64.minValue
    · exact .inr ⟨_, .noNegative (by rw [hmin, Int64.toInt_minValue]; norm_num)⟩
    · exact .inl ⟨_, hpos, .left (toInt_neg_of_ne hmin)⟩
  case reverse => exact .inl ⟨_, hpos, .reverse (toInt_neg_of_pos ((pos_iff v).2 (hpos rfl)))⟩
  case penWidth =>
    by_cases hw : v.toInt ≤ 4294967295
    · have hv := hpos rfl
      have hnat : (UInt32.ofNat v.toInt.toNat).toNat = v.toInt.toNat :=
        UInt32.toNat_ofNat_of_lt' (by show v.toInt.toNat < 4294967296; omega)
      exact .inl ⟨_, hpos, .penWidth (w := UInt32.ofNat v.toInt.toNat) (by omega)⟩
    · exact .inr ⟨_, .tooWide (by omega)⟩
  case right => exact .inl ⟨_, hpos, .right rfl⟩
  case move => exact .inl ⟨_, hpos, .move rfl⟩
  case square => exact .inl ⟨_, hpos, .square rfl⟩
  case star => exact .inl ⟨_, hpos, .star rfl⟩
  case hexagon => exact .inl ⟨_, hpos, .hexagon rfl⟩
  case circle => exact .inl ⟨_, hpos, .circle rfl⟩
  case triangle => exact .inl ⟨_, hpos, .triangle rfl⟩
  all_goals exact hn.elim

end Command

/-! ## Lists -/

/-- A list either has the property throughout, or a first member without it. -/
theorem all_or_first {τ : Type} (P : τ → Prop) (l : List τ) :
    (∀ t ∈ l, P t) ∨
      ∃ front part behind, l = front ++ part :: behind ∧ (∀ t ∈ front, P t) ∧ ¬ P part := by
  classical
  cases h : l.find? fun t => ¬ P t with
  | none => exact .inl fun t ht => by simpa using List.find?_eq_none.1 h t ht
  | some part =>
    obtain ⟨hpart, front, behind, hl, hfront⟩ := List.find?_eq_some_iff_append.1 h
    exact .inr ⟨front, part, behind, hl, fun t ht => by simpa using hfront t ht,
      by simpa using hpart⟩

/-- Of three things that are read in turn, the first that fails decides. -/
theorem inTurn_error {τ ε β γ : Type} {f : τ → Except ε β} {g : β → β → β → Except ε γ}
    {a b c part : τ} {front behind : List τ} {e : ε} (h : [a, b, c] = front ++ part :: behind)
    (hf : ∀ t ∈ front, ∃ x, f t = .ok x) (he : f part = .error e) :
    (do let x ← f a; let y ← f b; let z ← f c; g x y z) = .error e := by
  match front, h with
  | [], h =>
    obtain ⟨rfl, -⟩ : a = part ∧ [b, c] = behind := by simpa using h
    rw [he]
    rfl
  | [t], h =>
    obtain ⟨rfl, rfl, -⟩ : a = t ∧ b = part ∧ [c] = behind := by simpa using h
    obtain ⟨x, hx⟩ := hf a (by simp)
    rw [hx, he]
    rfl
  | [t, u], h =>
    obtain ⟨rfl, rfl, rfl, -⟩ : a = t ∧ b = u ∧ c = part ∧ [] = behind := by simpa using h
    obtain ⟨x, hx⟩ := hf a (by simp)
    obtain ⟨y, hy⟩ := hf b (by simp)
    rw [hx, hy, he]
    rfl
  | t :: u :: w :: front, h => simp at h

namespace Arguments

variable {name : Keyword} {args : Option String}

theorem trimBoth_of_mem_parts {part : List Char} (h : part ∈ parts args) :
    trimBoth part = part := by
  cases args with
  | none => cases h
  | some text =>
    obtain ⟨piece, -, rfl⟩ := List.mem_map.1 h
    exact trimBoth_trimBoth piece

theorem triple_eq (name : Keyword) (args : Option String) :
    triple name args = match (parts args).map String.ofList with
      | [a, b, c] => .ok (a, b, c)
      | l => .error (.wrongArity name .threeListed l.length) := by
  cases args with
  | none => rfl
  | some text =>
    have hsplit : (parts (some text)).map String.ofList =
        (pieces (· = ',') text.toList).map fun p => String.ofList (trimBoth p) := by
      simp only [parts, Option.elim, List.map_map, pieces_eq_splitOnP]
      rfl
    rw [hsplit]
    unfold triple
    dsimp only
    generalize (pieces (· = ',') text.toList).map (fun p => String.ofList (trimBoth p)) = l
    rcases l with _ | ⟨a, _ | ⟨b, _ | ⟨c, _ | ⟨d, l⟩⟩⟩⟩ <;> rfl

theorem triple_of_parts {a b c : List Char} (hp : parts args = [a, b, c]) :
    triple name args = .ok (String.ofList a, String.ofList b, String.ofList c) := by
  rw [triple_eq, hp]
  rfl

theorem triple_of_count (hp : (parts args).length ≠ 3) :
    triple name args = .error (.wrongArity name .threeListed (parts args).length) := by
  have hlength : ((parts args).map String.ofList).length = (parts args).length :=
    List.length_map ..
  rw [triple_eq, ← hlength]
  split
  · rename_i h
    rw [← hlength, h] at hp
    exact absurd rfl hp
  · rfl

end Arguments

/-! ## Colours -/

namespace Colour

theorem byteOf_of_isByte {v : Int64} (hv : IsByte v) (channel : Channel) :
    byteOf channel v = .ok (UInt8.ofNat v.toInt.toNat) ∧
      v.toInt = (UInt8.ofNat v.toInt.toNat).toNat := by
  obtain ⟨hlo, hhi⟩ := hv
  have hcond : 0 ≤ v ∧ v ≤ 255 :=
    ⟨Int64.le_iff_toInt_le.2 (by simpa using hlo), Int64.le_iff_toInt_le.2 hhi⟩
  refine ⟨if_pos hcond, ?_⟩
  rw [UInt8.toNat_ofNat_of_lt' (by show v.toInt.toNat < 256; omega)]
  omega

theorem byteOf_of_not_isByte {v : Int64} (hv : ¬ IsByte v) (channel : Channel) :
    byteOf channel v = .error ⟨channel, v⟩ := by
  refine if_neg fun ⟨hlo, hhi⟩ => hv ⟨?_, Int64.le_iff_toInt_le.1 hhi⟩
  simpa using Int64.le_iff_toInt_le.1 hlo

theorem byteOf_of_toInt_eq {v : Int64} {byte : UInt8} (hv : v.toInt = byte.toNat)
    (channel : Channel) : byteOf channel v = .ok byte := by
  have hbyte : IsByte v := ⟨by omega, by have := byte.toNat_lt; omega⟩
  rw [(byteOf_of_isByte hbyte channel).1, hv, Int.toNat_natCast, UInt8.ofNat_toNat]

end Colour

namespace Arguments

variable {name : Keyword} {args : Option String}

theorem readInteger_of_part {part : List Char} (h : part ∈ parts args) {v : Int64}
    (hv : Spells part v) : readInteger name (String.ofList part) = .ok v :=
  readInteger_of_spells (by rw [String.toList_ofList, trimBoth_of_mem_parts h]) hv

theorem colour_of_parts {r g b : List Char} (hp : parts args = [r, g, b]) :
    colour name args = (do
      let red ← readInteger name (String.ofList r)
      let green ← readInteger name (String.ofList g)
      let blue ← readInteger name (String.ofList b)
      (Colour.ofChannels red green blue).mapError .badChannel) := by
  rw [colour, triple_of_parts hp]
  rfl

/-- Three whole numbers are put together as the channels of a colour. -/
theorem colour_of_spells {r g b : List Char} {red green blue : Int64} (hp : parts args = [r, g, b])
    (hr : Spells r red) (hg : Spells g green) (hb : Spells b blue) :
    colour name args = (Colour.ofChannels red green blue).mapError .badChannel := by
  have hr' : r ∈ parts args := by simp [hp]
  have hg' : g ∈ parts args := by simp [hp]
  have hb' : b ∈ parts args := by simp [hp]
  rw [colour_of_parts hp, readInteger_of_part hr' hr, readInteger_of_part hg' hg,
    readInteger_of_part hb' hb]
  rfl

/-- The first part that is no whole number is reported. -/
theorem colour_of_not_spells {front behind : List (List Char)} {part : List Char}
    (h3 : (parts args).length = 3) (hp : parts args = front ++ part :: behind)
    (hf : ∀ t ∈ front, ∃ v, Spells t v) (hv : ∀ v, ¬ Spells part v) :
    colour name args = .error (.notANumber name (String.ofList part)) := by
  obtain ⟨r, g, b, hrgb⟩ := List.length_eq_three.1 h3
  have hpart : part ∈ parts args := by simp [hp]
  have htrim : trimBoth (String.ofList part).toList = part := by
    rw [String.toList_ofList, trimBoth_of_mem_parts hpart]
  rw [colour_of_parts hrgb]
  refine inTurn_error (f := fun t => readInteger name (String.ofList t)) (hrgb.symm.trans hp)
    (fun t ht => ?_) (readInteger_of_not_spells htrim hv)
  obtain ⟨v, hv⟩ := hf t ht
  have ht' : t ∈ parts args := by simp [hp, ht]
  exact ⟨v, readInteger_of_part ht' hv⟩

/-- The first channel out of range is reported. -/
theorem ofChannels_error {red green blue : Int64} {front behind : List BadChannel}
    {bad : BadChannel}
    (hc : [⟨.red, red⟩, ⟨.green, green⟩, ⟨.blue, blue⟩] = front ++ bad :: behind)
    (hf : ∀ c ∈ front, IsByte c.value) (hv : ¬ IsByte bad.value) :
    Colour.ofChannels red green blue = .error bad := by
  have hturn := inTurn_error (f := fun c : BadChannel => Colour.byteOf c.channel c.value)
    (g := fun r g b => Except.ok (Colour.mk r g b)) hc
    (fun c h => ⟨_, (Colour.byteOf_of_isByte (hf c h) c.channel).1⟩)
    (Colour.byteOf_of_not_isByte hv bad.channel)
  exact hturn

theorem ofChannels_ok {red green blue : Int64} {c : Colour} (hr : red.toInt = c.red.toNat)
    (hg : green.toInt = c.green.toNat) (hb : blue.toInt = c.blue.toNat) :
    Colour.ofChannels red green blue = .ok c := by
  rw [Colour.ofChannels, Colour.byteOf_of_toInt_eq hr, Colour.byteOf_of_toInt_eq hg,
    Colour.byteOf_of_toInt_eq hb]
  rfl

/-! ## Sides -/

theorem side_pos_iff {x : Float} (hx : x.isFinite) : 0 < x ↔ ¬ x ≤ 0 := by
  have h0 : (0 : Float).isFinite := rfl
  rw [Binary64.lt_iff h0 hx, Binary64.le_iff hx h0, not_le]

theorem side_of_isSide {part : List Char} {x : Float} (h : IsSide part x) :
    side name (String.ofList part) = .ok x := by
  have hpos := (side_pos_iff h.isFinite).1 h.pos
  simp [side, Decimal.read?_eq_some_iff.2 h.spelled, h.isFinite, hpos]

theorem side_of_rejects {part : List Char} {e : Error} (h : RejectsSide part e) :
    side .triangle (String.ofList part) = .error e := by
  cases h with
  | notANumber h =>
    cases hr : Decimal.read? part with
    | none => simp [side, hr]
    | some x => simp [side, hr, h x (Decimal.read?_eq_some_iff.1 hr)]
  | notPositive h hx h0 => simp [side, Decimal.read?_eq_some_iff.2 h, hx, h0]

/-- A part spells a side, or something is wrong with it. -/
theorem side_total {part : List Char} (h : ¬ ∃ x, IsSide part x) : ∃ e, RejectsSide part e := by
  by_cases hr : ∃ x, Decimal.Spelled part x ∧ x.isFinite
  · obtain ⟨x, hr, hx⟩ := hr
    refine ⟨_, .notPositive hr hx ?_⟩
    by_contra h0
    exact h ⟨x, hr, hx, (side_pos_iff hx).2 h0⟩
  · exact ⟨_, .notANumber fun x hx hfin => hr ⟨x, hx, hfin⟩⟩

/-- A part spells the length of a side exactly if it is a decimal in the range of floats, without a
sign or with a plus. The length is the float nearest to it (`Decimal.ofDecimal_isFloatOf`). -/
theorem isSide_iff {part : List Char} {x : Float} :
    IsSide part x ↔ ∃ m e, (Decimal.IsDecimal part m e ∨
        ∃ rest, part = '+' :: rest ∧ Decimal.IsDecimal rest m e) ∧
      Decimal.InFloatRange (m * 10 ^ e) ∧ x = Decimal.ofDecimal m e := by
  have hpos : ∀ {x : Float}, x.isFinite → (0 < x ↔ 0 < Binary64.value x) :=
    fun hx => Binary64.lt_iff (x := 0) rfl hx
  constructor
  · rintro ⟨hspelled, hx, h0⟩
    have h0 := (hpos hx).1 h0
    cases hspelled with
    | plain h =>
      obtain ⟨m, e, hd, hrange⟩ := Decimal.unsigned_pos_iff.1 ⟨h, hx, h0⟩
      exact ⟨m, e, .inl hd, hrange⟩
    | plus h =>
      obtain ⟨m, e, hd, hrange⟩ := Decimal.unsigned_pos_iff.1 ⟨h, hx, h0⟩
      exact ⟨m, e, .inr ⟨_, rfl, hd⟩, hrange⟩
    | @minus _ y h =>
      have hy := isFinite_of_neg hx
      have := h.value_nonneg hy
      rw [value_neg hy] at h0
      linarith
  · rintro ⟨m, e, htext, hrange⟩
    rcases htext with h | ⟨rest, rfl, h⟩
    · obtain ⟨h, hx, h0⟩ := Decimal.unsigned_pos_iff.2 ⟨m, e, h, hrange⟩
      exact ⟨.plain h, hx, (hpos hx).2 h0⟩
    · obtain ⟨h, hx, h0⟩ := Decimal.unsigned_pos_iff.2 ⟨m, e, h, hrange⟩
      exact ⟨.plus h, hx, (hpos hx).2 h0⟩

theorem triangle_of_parts {a b c : List Char} (hc : HasComma args) (hp : parts args = [a, b, c]) :
    triangle name args = (do
      let x ← side name (String.ofList a)
      let y ← side name (String.ofList b)
      let z ← side name (String.ofList c)
      if IsTriangle x y z then return .sides x y z else .error (.noTriangle x y z)) := by
  rw [triangle, if_pos ((hasComma_iff args).2 hc), triple_of_parts hp]
  rfl

theorem triangle_of_count (hc : HasComma args) (hp : (parts args).length ≠ 3) :
    triangle name args = .error (.wrongArity name .threeListed (parts args).length) := by
  rw [triangle, if_pos ((hasComma_iff args).2 hc), triple_of_count hp]
  rfl

theorem triangle_of_sides {a b c : List Char} {x y z : Float} (hc : HasComma args)
    (hp : parts args = [a, b, c]) (hx : IsSide a x) (hy : IsSide b y) (hz : IsSide c z) :
    triangle name args =
      if IsTriangle x y z then .ok (.sides x y z) else .error (.noTriangle x y z) := by
  rw [triangle_of_parts hc hp, side_of_isSide hx, side_of_isSide hy, side_of_isSide hz]
  rfl

/-- The first part that is no side is reported. -/
theorem triangle_of_rejects {front behind : List (List Char)} {part : List Char} {e : Error}
    (hc : HasComma args) (h3 : (parts args).length = 3) (hp : parts args = front ++ part :: behind)
    (hf : ∀ t ∈ front, ∃ x, IsSide t x) (he : RejectsSide part e) :
    triangle .triangle args = .error e := by
  obtain ⟨a, b, c, habc⟩ := List.length_eq_three.1 h3
  rw [triangle_of_parts hc habc]
  refine inTurn_error (f := fun t => side .triangle (String.ofList t)) (habc.symm.trans hp)
    (fun t ht => ?_) (side_of_rejects he)
  obtain ⟨x, hx⟩ := hf t ht
  exact ⟨x, side_of_isSide hx⟩

/-! ## Files -/

theorem kindOfWord?_eq_some_iff {word : List Char} {kind : FileKind} :
    kindOfWord? word = some kind ↔ lower (String.ofList word) = kindWord kind := by
  unfold kindOfWord?
  constructor
  · intro h
    split at h <;> cases h <;> assumption
  · intro h
    rw [h]
    cases kind <;> rfl

theorem splitFirst_of_startsWith {text : String} {token behind : List Char}
    (h : StartsWith text token behind) : splitFirst text.toList = (token, behind) := by
  rw [h.append, splitFirst_eq h.token h.behind]

theorem startsWith_splitFirst (text : String) :
    StartsWith text (splitFirst text.toList).1 (splitFirst text.toList).2 :=
  ⟨(splitFirst_append _).symm, (splitFirst_spec _).1, (splitFirst_spec _).2⟩

theorem file_of_kind {text : String} {token behind : List Char} {kind : FileKind}
    (hs : StartsWith text token behind) (hk : lower (String.ofList token) = kindWord kind) :
    file name (some text) = .ok (kind, pathOf behind) := by
  simp only [file, Option.getD_some, splitFirst_of_startsWith hs, Option.bind_some,
    kindOfWord?_eq_some_iff.2 hk, List.isEmpty_iff, pathOf]

theorem file_of_no_kind {text : String} {token behind : List Char}
    (hs : StartsWith text token behind)
    (hk : ∀ kind, lower (String.ofList token) ≠ kindWord kind) :
    file name (some text) = .error (.noFileKind name (String.ofList token)) := by
  have hnone : kindOfWord? token = none := by
    cases h : kindOfWord? token with
    | none => rfl
    | some kind => exact absurd (kindOfWord?_eq_some_iff.1 h) (hk kind)
  simp only [file, Option.getD_some, splitFirst_of_startsWith hs, Option.bind_some, hnone]

end Arguments

/-! ## Lines -/

namespace Command

open Arguments

variable {name : Keyword} {args typed : Option String}

theorem ofLine_bare {a : Action} (h : bareAction? name = some a) :
    ofLine ⟨name, args, typed⟩ = (absent name args a).map .act := by
  cases name <;> cases h <;> cases args <;> rfl

/-- What the grammar accepts is the command of the line. -/
theorem ofLine_of_accepts {c : Command} (h : Accepts name args c) :
    ofLine ⟨name, args, typed⟩ = .ok c := by
  cases h with
  | bare h => rw [ofLine_bare h]; rfl
  | number hn ht hv hp ha => exact ofLine_of_integer hn (integer_of_spells ht hv) hp ha
  | colour hp hr hg hb hc =>
    simp only [ofLine, colour_of_spells hp hr hg hb, ofChannels_ok hc.1 hc.2.1 hc.2.2]
    rfl
  | sides hc hp hx hy hz ht =>
    simp only [ofLine, triangle_of_sides hc hp hx hy hz, if_pos ht]
    rfl
  | file hs hk hc =>
    cases hc <;>
    · simp only [ofLine, file_of_kind hs hk]
      rfl

/-- What the grammar rejects is rejected with that error. -/
theorem ofLine_of_rejects {e : Error} (h : Rejects name args e) :
    ofLine ⟨name, args, typed⟩ = .error e := by
  cases h with
  | spare h =>
    rw [ofLine_bare h, tokens_some]
    rfl
  | tokenCount hn ht => exact ofLine_of_integer_error hn (integer_of_count ht)
  | notANumber hn ht hv => exact ofLine_of_integer_error hn (integer_of_not_spells ht hv)
  | number hn ht hv he => exact ofLine_of_rejected hn (integer_of_spells ht hv) he
  | partCount hl hp =>
    obtain rfl | ⟨rfl, hc⟩ := hl
    · simp only [ofLine, Arguments.colour, triple_of_count hp]
      rfl
    · simp only [ofLine, triangle_of_count hc hp]
      rfl
  | channelText h3 hp hf hv =>
    simp only [ofLine, colour_of_not_spells h3 hp hf hv]
    rfl
  | channel hp hr hg hb hc hf hv =>
    simp only [ofLine, colour_of_spells hp hr hg hb, ofChannels_error hc hf hv]
    rfl
  | side hc h3 hp hf he =>
    simp only [ofLine, triangle_of_rejects hc h3 hp hf he]
    rfl
  | noTriangle hc hp hx hy hz ht =>
    simp only [ofLine, triangle_of_sides hc hp hx hy hz, if_neg ht]
    rfl
  | noFile hn => obtain rfl | rfl := hn <;> rfl
  | noFileKind hn hs hk =>
    obtain rfl | rfl := hn <;>
    · simp only [ofLine, file_of_no_kind hs hk]
      rfl

end Command

namespace Grammar

variable {name : Keyword} {args : Option String}

theorem number_decided (hn : TakesNumber name args) :
    (∃ c, Accepts name args c) ∨ ∃ e, Rejects name args e := by
  by_cases h1 : (tokens args).length = 1
  · obtain ⟨token, ht⟩ := List.length_eq_one_iff.1 h1
    by_cases hv : ∃ v, Spells token v
    · obtain ⟨v, hv⟩ := hv
      obtain ⟨a, hp, ha⟩ | ⟨e, he⟩ := Command.number_total hn v
      · exact .inl ⟨_, .number hn ht hv hp ha⟩
      · exact .inr ⟨e, .number hn ht hv he⟩
    · exact .inr ⟨_, .notANumber hn ht (not_exists.1 hv)⟩
  · exact .inr ⟨_, .tokenCount hn h1⟩

theorem colour_decided (args : Option String) :
    (∃ c, Accepts .penColour args c) ∨ ∃ e, Rejects .penColour args e := by
  by_cases h3 : (parts args).length = 3
  · obtain hall | ⟨front, part, behind, hp, hf, hv⟩ :=
      all_or_first (fun t => ∃ v, Spells t v) (parts args)
    · obtain ⟨r, g, b, hrgb⟩ := List.length_eq_three.1 h3
      obtain ⟨red, hr⟩ := hall r (by simp [hrgb])
      obtain ⟨green, hg⟩ := hall g (by simp [hrgb])
      obtain ⟨blue, hb⟩ := hall b (by simp [hrgb])
      obtain hbytes | ⟨front, bad, behind, hc, hf, hv⟩ := all_or_first (fun c => IsByte c.value)
        ([⟨.red, red⟩, ⟨.green, green⟩, ⟨.blue, blue⟩] : List BadChannel)
      · have hbyte (c : BadChannel)
            (h : c ∈ ([⟨.red, red⟩, ⟨.green, green⟩, ⟨.blue, blue⟩] : List BadChannel)) :=
          (Colour.byteOf_of_isByte (hbytes c h) c.channel).2
        exact .inl ⟨_, .colour (c := ⟨_, _, _⟩) hrgb hr hg hb
          ⟨hbyte ⟨.red, red⟩ (by simp), hbyte ⟨.green, green⟩ (by simp),
            hbyte ⟨.blue, blue⟩ (by simp)⟩⟩
      · exact .inr ⟨_, .channel hrgb hr hg hb hc hf hv⟩
    · exact .inr ⟨_, .channelText h3 hp hf (not_exists.1 hv)⟩
  · exact .inr ⟨_, .partCount (.inl rfl) h3⟩

theorem sides_decided (hc : HasComma args) :
    (∃ c, Accepts .triangle args c) ∨ ∃ e, Rejects .triangle args e := by
  by_cases h3 : (parts args).length = 3
  · obtain hall | ⟨front, part, behind, hp, hf, hv⟩ :=
      all_or_first (fun t => ∃ x, IsSide t x) (parts args)
    · obtain ⟨a, b, c, habc⟩ := List.length_eq_three.1 h3
      obtain ⟨x, hx⟩ := hall a (by simp [habc])
      obtain ⟨y, hy⟩ := hall b (by simp [habc])
      obtain ⟨z, hz⟩ := hall c (by simp [habc])
      by_cases ht : IsTriangle x y z
      · exact .inl ⟨_, .sides hc habc hx hy hz ht⟩
      · exact .inr ⟨_, .noTriangle hc habc hx hy hz ht⟩
    · obtain ⟨e, he⟩ := Arguments.side_total hv
      exact .inr ⟨e, .side hc h3 hp hf he⟩
  · exact .inr ⟨_, .partCount (.inr ⟨rfl, hc⟩) h3⟩

theorem file_decided (hn : name = .save ∨ name = .load) :
    (∃ c, Accepts name args c) ∨ ∃ e, Rejects name args e := by
  cases args with
  | none => exact .inr ⟨_, .noFile hn⟩
  | some text =>
    have hs := Arguments.startsWith_splitFirst text
    by_cases hk : ∃ kind, lower (String.ofList (splitFirst text.toList).1) = kindWord kind
    · obtain ⟨kind, hk⟩ := hk
      obtain rfl | rfl := hn
      · exact .inl ⟨_, .file hs hk .save⟩
      · exact .inl ⟨_, .file hs hk .load⟩
    · exact .inr ⟨_, .noFileKind hn hs (not_exists.1 hk)⟩

theorem bare_decided {a : Action} (h : bareAction? name = some a) (args : Option String) :
    (∃ c, Accepts name args c) ∨ ∃ e, Rejects name args e := by
  cases args with
  | none => exact .inl ⟨_, .bare h⟩
  | some text => exact .inr ⟨_, .spare h⟩

/-- All arguments are accepted or rejected. -/
theorem decided (name : Keyword) (args : Option String) :
    (∃ c, Accepts name args c) ∨ ∃ e, Rejects name args e := by
  cases name
  case save => exact file_decided (.inl rfl)
  case load => exact file_decided (.inr rfl)
  case penColour => exact colour_decided args
  case triangle =>
    by_cases hc : HasComma args
    · exact sides_decided hc
    · exact number_decided hc
  case left | right | move | reverse | penWidth | square | star | hexagon | circle =>
    exact number_decided trivial
  all_goals exact bare_decided rfl args

end Grammar

/-- A line gives a command exactly if the grammar accepts its arguments for that command, and an
error exactly if the grammar rejects them with it. -/
theorem Command.ofLine_language (l : Line) :
    (∀ c, ofLine l = .ok c ↔ Accepts l.keyword l.arguments c) ∧
      ∀ e, ofLine l = .error e ↔ Rejects l.keyword l.arguments e := by
  obtain ⟨name, args, typed⟩ := l
  refine ⟨fun c => ⟨fun h => ?_, ofLine_of_accepts⟩, fun e => ⟨fun h => ?_, ofLine_of_rejects⟩⟩
  · obtain ⟨c', hc⟩ | ⟨e, he⟩ := decided name args
    · obtain rfl : c' = c := Except.ok.inj ((ofLine_of_accepts hc).symm.trans h)
      exact hc
    · cases (ofLine_of_rejects he).symm.trans h
  · obtain ⟨c, hc⟩ | ⟨e', he⟩ := decided name args
    · cases (ofLine_of_accepts hc).symm.trans h
    · obtain rfl : e' = e := Except.error.inj ((ofLine_of_rejects he).symm.trans h)
      exact he

end TurtleGraphics
