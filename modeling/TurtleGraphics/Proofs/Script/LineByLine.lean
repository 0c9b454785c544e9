import TurtleGraphics.Proofs.Console.TypedLines
import TurtleGraphics.Proofs.Script.Codec

/-!
# Scripts are read and written line by line

A script is read line by line, up to the first line that is no text (`readLines`), and written line
by line (`writeLines`). This comes to what `decode?` and `encode` do with the text of a whole file
(`readLines_rawLines`, `writeLines_eq`). Cutting a file into lines does not depend on decoding it
first (`Text.pieces_utf8`), and a file is a text exactly if its lines are. A carriage return at the
end of a line is cut off or trimmed off, which is the same (`keep?_carriageReturn`), and an empty
last line adds nothing.

Reading takes any text apart at its line feeds, and what is written without line feeds in its lines
is read back (`codec_roundTrip`).
-/

set_option autoImplicit false

namespace TurtleGraphics.Script

open Text (utf8 utf8_append fromUTF8?_eq_some_iff)

/-! ## One line -/

/-- What the bytes of a line add to a script; `none` if they are no text. -/
def keep? (line : List UInt8) : Option (List String) :=
  (String.fromUTF8? ⟨line.toArray⟩).map fun text => trimmed [text.toList]

theorem trimmed_cons (line : String) (rest : List (List Char)) :
    trimmed (line.toList :: rest) =
      if Text.trim line = "" then trimmed rest else Text.trim line :: trimmed rest := by
  simp [trimmed, Text.trim, List.filter_cons]

theorem keep?_utf8 (cs : List Char) : keep? (utf8 cs) = some (trimmed [cs]) := by
  have h : String.fromUTF8? ⟨(utf8 cs).toArray⟩ = some (String.ofList cs) := by
    rw [fromUTF8?_eq_some_iff, String.toList_ofList]
  rw [keep?, h, Option.map_some, String.toList_ofList]

theorem exists_utf8_of_keep? {line : List UInt8} {kept : List String}
    (h : keep? line = some kept) : ∃ cs, line = utf8 cs := by
  obtain ⟨text, htext, -⟩ := Option.map_eq_some_iff.1 h
  exact ⟨text.toList, fromUTF8?_eq_some_iff.1 htext⟩

theorem keep?_eq_none {line : List UInt8} (h : ¬ ∃ cs, line = utf8 cs) : keep? line = none := by
  by_contra hne
  obtain ⟨kept, hk⟩ := Option.ne_none_iff_exists'.1 hne
  exact h (exists_utf8_of_keep? hk)

/-- If a text ends with the byte of a carriage return, then what is in front of it is a text. -/
theorem eq_utf8_of_carriageReturn {cs : List Char} {line : List UInt8}
    (h : utf8 cs = line ++ [13]) : ∃ front, line = utf8 front := by
  rcases List.eq_nil_or_concat cs with rfl | ⟨front, c, rfl⟩
  · simp [utf8] at h
  · rw [List.concat_eq_append, utf8_append] at h
    have hlast : (utf8 [c]).getLast? = some 13 := by
      have hl := congrArg List.getLast? h
      rw [List.getLast?_append, List.getLast?_concat] at hl
      cases hc : (utf8 [c]).getLast? with
      | none => simp [utf8] at hc
      | some b => simpa [hc] using hl
    have hmem : 13 ∈ String.utf8EncodeChar c := by
      simpa [utf8] using List.mem_of_getLast? hlast
    obtain rfl : c = '\r' :=
      Char.toNat_inj.1 (Text.toNat_eq_of_mem_utf8EncodeChar (by decide) hmem)
    exact ⟨front, (List.append_inj_left' h rfl).symm⟩

/-- A carriage return behind a line makes no difference. -/
theorem keep?_carriageReturn (line : List UInt8) : keep? (line ++ [13]) = keep? line := by
  by_cases h : ∃ cs, line = utf8 cs
  · obtain ⟨cs, rfl⟩ := h
    have hcr : utf8 cs ++ [13] = utf8 (cs ++ ['\r']) := (utf8_append cs ['\r']).symm
    rw [hcr, keep?_utf8, keep?_utf8]
    simp only [trimmed, List.map_cons, List.map_nil, Text.trimBoth_concat (c := '\r') rfl]
  · have hcr : ¬ ∃ cs, line ++ [13] = utf8 cs := by
      rintro ⟨cs, hcs⟩
      exact h (eq_utf8_of_carriageReturn hcs.symm)
    rw [keep?_eq_none hcr, keep?_eq_none h]

/-! ## Reading -/

/-- The loop of a reader over the lines of a file, with the lines of the script so far. -/
def readLines : List (List UInt8) → List String → Option Script
  | [], kept => some ⟨kept⟩
  | l :: rest, kept =>
    match String.fromUTF8? ⟨l.toArray⟩ with
    | none => none
    | some line =>
      let text := Text.trim line
      readLines rest (if text = "" then kept else kept ++ [text])

theorem readLines_cons (l : List UInt8) (rest : List (List UInt8)) (kept : List String) :
    readLines (l :: rest) kept = (keep? l).bind fun new => readLines rest (kept ++ new) := by
  rw [readLines, keep?]
  cases String.fromUTF8? ⟨l.toArray⟩ with
  | none => rfl
  | some line =>
    simp only [Option.map_some, Option.bind_some, trimmed_cons]
    split
    · have hnone : kept ++ trimmed [] = kept := List.append_nil kept
      rw [hnone]
    · rfl

theorem readLines_append (ls ms : List (List UInt8)) (kept : List String) :
    readLines (ls ++ ms) kept =
      (readLines ls kept).bind fun script => readLines ms script.lines := by
  induction ls generalizing kept with
  | nil => rfl
  | cons l rest ih =>
    rw [List.cons_append, readLines_cons, readLines_cons, Option.bind_assoc]
    simp only [ih]

/-- The lines of a text are read as the text is. -/
theorem readLines_map_utf8 (lines : List (List Char)) (kept : List String) :
    readLines (lines.map utf8) kept = some ⟨kept ++ trimmed lines⟩ := by
  induction lines generalizing kept with
  | nil => simp [readLines, trimmed]
  | cons cs rest ih =>
    rw [List.map_cons, readLines_cons, keep?_utf8, Option.bind_some, ih, List.append_assoc,
      ← trimmed_append, List.singleton_append]

/-- If the reader comes to the end, then all lines are texts. -/
theorem exists_utf8_of_readLines {ls : List (List UInt8)} {kept : List String} {script : Script}
    (h : readLines ls kept = some script) : ∃ texts : List (List Char), ls = texts.map utf8 := by
  induction ls generalizing kept with
  | nil => exact ⟨[], rfl⟩
  | cons l rest ih =>
    rw [readLines_cons] at h
    obtain ⟨new, hl, hrest⟩ := Option.bind_eq_some_iff.1 h
    obtain ⟨cs, rfl⟩ := exists_utf8_of_keep? hl
    obtain ⟨texts, rfl⟩ := ih hrest
    exact ⟨cs :: texts, rfl⟩

theorem readLines_map {strip : List UInt8 → List UInt8} (h : ∀ l, keep? (strip l) = keep? l)
    (ls : List (List UInt8)) (kept : List String) :
    readLines (ls.map strip) kept = readLines ls kept := by
  induction ls generalizing kept with
  | nil => rfl
  | cons l rest ih =>
    rw [List.map_cons, readLines_cons, readLines_cons, h]
    simp only [ih]

/-- It makes no difference how the lines end, and whether an empty one comes last. -/
theorem readLines_rawLines_eq_pieces (input : List UInt8) (kept : List String) :
    readLines (Terminal.rawLines input) kept = readLines (Text.pieces (· = 10) input) kept := by
  rcases List.eq_nil_or_concat (Text.pieces (· = 10) input) with hnil | ⟨ended, last, hp⟩
  · exact absurd hnil (Text.pieces_ne_nil _ _)
  · have hstrip : ∀ l : List UInt8,
        keep? (if l.getLast? = some 13 then l.dropLast else l) = keep? l := by
      intro l
      split
      · rename_i hl
        rw [← keep?_carriageReturn, List.dropLast_append_getLast? 13 hl]
      · rfl
    rw [List.concat_eq_append] at hp
    unfold Terminal.rawLines
    simp only [hp, List.dropLast_concat, List.getLast?_concat]
    cases last with
    | nil =>
      have hend : ∀ script : Script, readLines [[]] script.lines = some script := by
        intro script
        refine (readLines_map_utf8 [[]] script.lines).trans ?_
        rw [trimmed_empty, List.append_nil]
      simp only [readLines_append, readLines_map hstrip, hend, Option.bind_fun_some]
    | cons b rest => simp only [readLines_append, readLines_map hstrip]

/-- A file is read line by line as its text is. -/
theorem readLines_rawLines (bytes : ByteArray) :
    readLines (Terminal.rawLines bytes.data.toList) [] = decode? bytes := by
  rw [readLines_rawLines_eq_pieces, decode?]
  cases hd : String.fromUTF8? bytes with
  | some text =>
    rw [fromUTF8?_eq_some_iff.1 hd, Text.pieces_utf8, readLines_map_utf8]
    rfl
  | none =>
    -- if all lines were texts, then so would be the file
    cases hr : readLines (Text.pieces (· = 10) bytes.data.toList) [] with
    | none => rfl
    | some script =>
      obtain ⟨texts, ht⟩ := exists_utf8_of_readLines hr
      have hjoin :
          [10].intercalate (Text.pieces (· = 10) bytes.data.toList) = bytes.data.toList := by
        rw [Text.pieces_eq_splitOnP]
        exact List.intercalate_splitOn 10
      rw [ht, Text.intercalate_utf8] at hjoin
      have hsome : String.fromUTF8? bytes = some (String.ofList (['\n'].intercalate texts)) := by
        rw [fromUTF8?_eq_some_iff, String.toList_ofList, hjoin]
      rw [hd] at hsome
      cases hsome

/-! ## Writing -/

/-- The loop of a writer over some lines, with the bytes written so far. -/
def writeLines : List String → ByteArray → ByteArray
  | [], out => out
  | l :: rest, out =>
    let text := Text.trim l
    writeLines rest (if text = "" then out else out ++ text.toUTF8 ++ "\n".toUTF8)

theorem encode_cons (l : String) (rest : List String) : encode (l :: rest) =
    if Text.trim l = "" then encode rest
      else (Text.trim l).toUTF8 ++ "\n".toUTF8 ++ encode rest := by
  rw [encode, textOf, List.map_cons, trimmed_cons]
  split
  · rfl
  · simp only [List.map_cons, String.join_cons, String.toUTF8_eq_toByteArray,
      String.toByteArray_append, encode, textOf]

theorem writeLines_eq (lines : List String) (out : ByteArray) :
    writeLines lines out = out ++ encode lines := by
  induction lines generalizing out with
  | nil => exact ByteArray.append_empty.symm
  | cons l rest ih =>
    rw [writeLines, ih, encode_cons]
    split
    · rfl
    · simp only [ByteArray.append_assoc]

/-! ## Reading back -/

/-- Some lines trimmed, without the blank ones. -/
def tidy (lines : List String) : List String := (lines.map Text.trim).filter (· ≠ "")

theorem tidy_eq_trimmed (lines : List String) : tidy lines = trimmed (lines.map String.toList) := by
  rw [tidy, trimmed, List.map_map]
  rfl

theorem trim_of_mem_tidy {lines : List String} : ∀ l ∈ tidy lines, Text.trim l = l := by
  intro l hl
  obtain ⟨l', -, rfl⟩ := List.mem_map.1 (List.mem_of_mem_filter hl)
  exact Text.trim_trim l'

theorem ne_empty_of_mem_tidy {lines : List String} : ∀ l ∈ tidy lines, l ≠ "" := by
  intro l hl
  simpa using List.of_mem_filter hl

/-- Lines are written as they are once they are tidied. -/
theorem encode_tidy (lines : List String) : encode (tidy lines) = encode lines := by
  rw [encode, encode, textOf, textOf, trimmed_toList trim_of_mem_tidy ne_empty_of_mem_tidy,
    tidy_eq_trimmed]

/-- Lines are tidied by writing and reading them, if no line feed is left inside a trimmed line. -/
theorem decode?_encode_tidy {lines : List String} (h : ∀ l ∈ lines, '\n' ∉ (Text.trim l).toList) :
    decode? (encode lines) = some ⟨tidy lines⟩ := by
  rw [← encode_tidy]
  apply decode?_encode
  intro l hl
  obtain ⟨l', hl', rfl⟩ := List.mem_map.1 (List.mem_of_mem_filter hl)
  exact ⟨trim_of_mem_tidy _ hl, ne_empty_of_mem_tidy _ hl, h l' hl'⟩

/-- What was read is written and read back. -/
theorem decode?_encode_lines {bytes : ByteArray} {script : Script}
    (h : decode? bytes = some script) : decode? (encode script.lines) = some script :=
  decode?_encode fun _ hl => isLine_of_decode? h hl

theorem ofText_eq_tidy (text : String) :
    ofText text = ⟨tidy ((text.toList.splitOn '\n').map String.ofList)⟩ := by
  have hp : Text.pieces (· = '\n') text.toList = text.toList.splitOn '\n' := by
    rw [Text.pieces_eq_splitOnP]
    rfl
  rw [ofText, hp, tidy_eq_trimmed, List.map_map]
  simp only [Function.comp_def, String.toList_ofList, List.map_id']

theorem isSome_decode?_iff (bytes : ByteArray) : (decode? bytes).isSome ↔ bytes.IsValidUTF8 := by
  rw [decode?, Option.isSome_map, String.fromUTF8?]
  split <;> simp [*]

/-- The line by line reader and writer are `decode?` and `encode`. Files of UTF-8, and no others,
are read, as the tidied lines of their texts. What is written without line feeds in its trimmed
lines is read as the tidied lines; so what was read stays what it is when it is written and read
again, and is then written with the same bytes. -/
theorem codec_roundTrip :
    (∀ bytes : ByteArray, readLines (Terminal.rawLines bytes.data.toList) [] = decode? bytes) ∧
    (∀ lines : List String, writeLines lines ByteArray.empty = encode lines) ∧
    (∀ bytes : ByteArray, (decode? bytes).isSome ↔ bytes.IsValidUTF8) ∧
    (∀ (bytes : ByteArray) (script : Script), decode? bytes = some script ↔
      ∃ text : String, text.toUTF8 = bytes ∧
        script = ⟨tidy ((text.toList.splitOn '\n').map String.ofList)⟩) ∧
    (∀ lines : List String, (∀ l ∈ lines, '\n' ∉ (Text.trim l).toList) →
      decode? (encode lines) = some ⟨tidy lines⟩) ∧
    (∀ (bytes : ByteArray) (script : Script), decode? bytes = some script →
      decode? (encode script.lines) = some script ∧
        (decode? (encode script.lines)).map (fun again => encode again.lines) =
          some (encode script.lines)) := by
  refine ⟨readLines_rawLines, fun lines => ?_, isSome_decode?_iff, fun bytes script => ?_,
    fun lines h => decode?_encode_tidy h, fun bytes script h => ?_⟩
  · rw [writeLines_eq, ByteArray.empty_append]
  · constructor
    · intro h
      obtain ⟨text, htext, rfl⟩ := Option.map_eq_some_iff.1 h
      exact ⟨text, Text.toUTF8_of_fromUTF8? htext, ofText_eq_tidy text⟩
    · rintro ⟨text, rfl, rfl⟩
      rw [decode?, Text.fromUTF8?_toUTF8, Option.map_some, ofText_eq_tidy]
  · have hagain : decode? (encode script.lines) = some script := decode?_encode_lines h
    exact ⟨hagain, by rw [hagain, Option.map_some]⟩

/-- A carriage return at the end of a line goes with the blanks, and one inside it stays. -/
example : decode? "move 10\r\n \u0085\r\npen\rup".toUTF8 = some ⟨["move 10", "pen\rup"]⟩ := by
  decide +kernel

end TurtleGraphics.Script
