import TurtleGraphics.Proofs.Text.Cutting

/-!
# UTF-8

The texts that are read from bytes are those that are written with these bytes
(`fromUTF8?_eq_some_iff`). The byte of a line feed is in no other character, so a text can be cut
into lines before or after it is written (`pieces_utf8`), and texts can be joined by line feeds
before or after (`intercalate_utf8`).
-/

set_option autoImplicit false

namespace TurtleGraphics.Text

/-- The bytes of a text. -/
def utf8 (cs : List Char) : List UInt8 := cs.flatMap String.utf8EncodeChar

theorem utf8_append (cs ds : List Char) : utf8 (cs ++ ds) = utf8 cs ++ utf8 ds :=
  List.flatMap_append

theorem fromUTF8?_toUTF8 (s : String) : String.fromUTF8? s.toUTF8 = some s := by
  rw [String.fromUTF8?, String.toUTF8_eq_toByteArray, dif_pos s.isValidUTF8]
  rfl

theorem toUTF8_of_fromUTF8? {bytes : ByteArray} {text : String}
    (h : String.fromUTF8? bytes = some text) : text.toUTF8 = bytes := by
  unfold String.fromUTF8? at h
  split at h
  · cases h
    rfl
  · cases h

theorem utf8_toList (text : String) : utf8 text.toList = text.toUTF8.data.toList := by
  rw [String.toUTF8_eq_toByteArray, ← String.utf8Encode_toList, List.utf8Encode,
    List.data_toByteArray]
  rfl

theorem fromUTF8?_eq_some_iff {bytes : ByteArray} {text : String} :
    String.fromUTF8? bytes = some text ↔ bytes.data.toList = utf8 text.toList := by
  rw [utf8_toList]
  constructor
  · intro h
    rw [toUTF8_of_fromUTF8? h]
  · intro h
    have hb : bytes = text.toUTF8 := ByteArray.ext (Array.toList_inj.1 h)
    rw [hb, fromUTF8?_toUTF8]

/-! ## Line feeds -/

/-- A byte of ASCII is in no character but the one that it stands for. -/
theorem toNat_eq_of_mem_utf8EncodeChar {b : UInt8} (hb : b.toNat < 128) {c : Char}
    (h : b ∈ String.utf8EncodeChar c) : c.toNat = b.toNat := by
  -- each byte of a longer character is some bits and a mark that is no ASCII
  have hmark : ∀ bits mark : Nat, 128 ≤ mark → bits + mark < 256 →
      b ≠ UInt8.ofNat (bits + mark) := by
    rintro bits mark hmark hlt rfl
    rw [UInt8.toNat_ofNat'] at hb
    omega
  dsimp only [String.utf8EncodeChar] at h
  split at h
  · obtain rfl := List.mem_singleton.1 h
    rw [UInt8.toNat_ofNat', Nat.mod_eq_of_lt (by omega)]
    rfl
  · exfalso
    split at h
    · obtain h | h := List.mem_pair.1 h
      all_goals exact hmark _ _ (by decide) (by omega) h
    · split at h
      all_goals simp only [List.mem_cons, List.not_mem_nil, or_false] at h
      · obtain h | h | h := h
        all_goals exact hmark _ _ (by decide) (by omega) h
      · obtain h | h | h | h := h
        all_goals exact hmark _ _ (by decide) (by omega) h

theorem utf8EncodeChar_lineFeed : String.utf8EncodeChar '\n' = [10] := by decide

/-- A text is cut into lines before or after it is encoded. -/
theorem pieces_utf8 (cs : List Char) :
    pieces (· = 10) (utf8 cs) = (pieces (· = '\n') cs).map utf8 := by
  apply pieces_flatMap
  · intro c hc
    obtain rfl := of_decide_eq_true hc
    exact ⟨10, rfl, utf8EncodeChar_lineFeed⟩
  · intro c hc b hb
    rw [decide_eq_false_iff_not] at hc ⊢
    rintro rfl
    exact hc (Char.toNat_inj.1 (toNat_eq_of_mem_utf8EncodeChar (by decide) hb))

/-- Texts that are joined by line feeds are a text. -/
theorem intercalate_utf8 (texts : List (List Char)) :
    [10].intercalate (texts.map utf8) = utf8 (['\n'].intercalate texts) := by
  induction texts with
  | nil => rfl
  | cons cs rest ih =>
    cases rest with
    | nil =>
      rw [List.map_cons, List.map_nil, List.intercalate_singleton, List.intercalate_singleton]
    | cons ds rest =>
      rw [List.map_cons, List.map_cons, List.intercalate_cons_cons, ← List.map_cons, ih,
        List.intercalate_cons_cons, utf8_append, utf8_append]
      rfl

end TurtleGraphics.Text
