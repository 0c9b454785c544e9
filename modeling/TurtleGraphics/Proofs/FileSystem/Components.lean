import TurtleGraphics.Proofs.FileSystem.ReadBack
import TurtleGraphics.Proofs.Text.Cutting

/-!
# File names and components

The extension of a path is a matter of its text, its place one of its components. Both agree on
the last component: the text of a path is what stands in front of the file name, the file name,
and a tail that is cut into empty components and `.`, which a walk passes without a step
(`components_eq`). So a path that is given an extension leads to another place than before
(`locate_ne_of_write`).
-/

set_option autoImplicit false

namespace TurtleGraphics

open FileSystem

namespace Path

/-! ## The tail of a path -/

/-- What may follow the last component of a path: slashes, with a `.` here and there. -/
def IsTail (cs : List Char) : Prop :=
  cs = [] ∨ ∃ rest, cs = '/' :: rest ∧ ∀ q ∈ Text.pieces (· = '/') rest, q = [] ∨ q = ['.']

/-- A slash and a piece that makes no step may be added to a tail. -/
theorem IsTail.append {cs q : List Char} (h : IsTail cs) (hq : q = [] ∨ q = ['.']) :
    IsTail (cs ++ '/' :: q) := by
  have hp : Text.pieces (· = '/') q = [q] := by
    rcases hq with rfl | rfl <;> rfl
  obtain rfl | ⟨rest, rfl, hr⟩ := h
  · refine .inr ⟨q, rfl, ?_⟩
    rw [hp]
    simpa using hq
  · refine .inr ⟨rest ++ '/' :: q, rfl, ?_⟩
    rw [Text.pieces_append_cons (by simp), hp]
    intro r hm
    rcases List.mem_append.1 hm with hm | hm
    · exact hr r hm
    · rw [List.mem_singleton.1 hm]
      exact hq

/-- What is dropped from the end of a path is a tail. -/
theorem exists_tail (reversed : List Char) :
    ∃ tail, IsTail tail ∧ reversed.reverse = (dropTail reversed).reverse ++ tail := by
  fun_induction dropTail reversed with
  | case1 cs ih =>
    obtain ⟨tail, ht, he⟩ := ih
    refine ⟨tail ++ ['/'], ht.append (.inl rfl), ?_⟩
    rw [List.reverse_cons, he, List.append_assoc]
  | case2 cs ih =>
    obtain ⟨tail, ht, he⟩ := ih
    refine ⟨tail ++ ['/', '.'], ht.append (.inr rfl), ?_⟩
    rw [List.reverse_cons, List.reverse_cons, he]
    simp
  | case3 cs => exact ⟨[], .inl rfl, (List.append_nil _).symm⟩

/-! ## The file name -/

section
variable (p : Path)

/-- The text of a path, cut in front of its last component and behind it. -/
theorem text_eq : ∃ tail, IsTail tail ∧
    p.text.toList = p.splitName.1 ++ (p.splitName.2 ++ tail) := by
  obtain ⟨tail, ht, he⟩ := exists_tail p.text.toList.reverse
  refine ⟨tail, ht, ?_⟩
  rw [List.reverse_reverse] at he
  rw [he, ← List.append_assoc]
  unfold splitName
  rw [← List.reverse_append, List.takeWhile_append_dropWhile]

theorem slash_not_mem_splitName : '/' ∉ p.splitName.2 := by
  unfold splitName
  intro h
  have hs := List.mem_takeWhile_imp (List.mem_reverse.1 h)
  simp at hs

/-- What stands in front of the last component is cut off as a whole. -/
theorem pieces_splitName : ∃ front, ∀ cs : List Char,
    Text.pieces (· = '/') (p.splitName.1 ++ cs) = front ++ Text.pieces (· = '/') cs := by
  have hs : p.splitName.1 = ((dropTail p.text.toList.reverse).dropWhile (· ≠ '/')).reverse := rfl
  rw [hs]
  cases h : (dropTail p.text.toList.reverse).dropWhile (· ≠ '/') with
  | nil => exact ⟨[], fun cs => rfl⟩
  | cons c rest =>
    have hc : c = '/' := by
      have hh := List.head?_dropWhile_not (· ≠ '/') (dropTail p.text.toList.reverse)
      rw [h] at hh
      simpa using hh
    refine ⟨Text.pieces (· = '/') rest.reverse, fun cs => ?_⟩
    rw [List.reverse_cons, List.append_assoc, hc, List.singleton_append]
    exact Text.pieces_append_cons (by simp) _ _

/-- The components of a path: those in front of the file name, which stay when the name is
replaced, the file name, and a tail without steps. -/
theorem components_eq : ∃ front tail, (∀ c ∈ tail, c = "" ∨ c = ".") ∧
    components p.text = front ++ String.ofList p.splitName.2 :: tail ∧
    ∀ name : List Char, '/' ∉ name →
      components (String.ofList (p.splitName.1 ++ name)) = front ++ [String.ofList name] := by
  obtain ⟨tail, ht, htext⟩ := p.text_eq
  obtain ⟨front, hf⟩ := p.pieces_splitName
  have hone : ∀ name : List Char, '/' ∉ name → Text.pieces (· = '/') name = [name] := by
    intro name hn
    refine Text.pieces_eq_singleton fun c hc => ?_
    simpa using ne_of_mem_of_not_mem hc hn
  have hname := hone _ p.slash_not_mem_splitName
  have hpieces : ∃ rest, (∀ q ∈ rest, q = [] ∨ q = ['.']) ∧
      Text.pieces (· = '/') (p.splitName.2 ++ tail) = p.splitName.2 :: rest := by
    obtain rfl | ⟨rest, rfl, hr⟩ := ht
    · exact ⟨[], by simp, by rw [List.append_nil, hname]⟩
    · exact ⟨_, hr, by rw [Text.pieces_append_cons (by simp), hname]; rfl⟩
  obtain ⟨rest, hr, hp⟩ := hpieces
  refine ⟨front.map String.ofList, rest.map String.ofList, ?_, ?_, fun name hn => ?_⟩
  · intro c hc
    obtain ⟨q, hq, rfl⟩ := List.mem_map.1 hc
    rcases hr q hq with rfl | rfl
    · exact .inl rfl
    · exact .inr rfl
  · simp only [components, htext, hf, hp, List.map_append, List.map_cons]
  · simp only [components, String.toList_ofList, hf, hone name hn, List.map_append,
      List.map_cons, List.map_nil]

end

/-! ## Extensions -/

/-- Without an extension a file name is all stem. -/
theorem splitExtension_of_none {name : List Char} (h : (splitExtension name).2 = none) :
    (splitExtension name).1 = name := by
  unfold splitExtension at h ⊢
  split at h
  · split at h
    · rename_i hs
      rw [if_pos hs]
    · cases h
  · rfl

theorem fileName?_eq_some {p : Path} {name : List Char} (h : p.fileName? = some name) :
    p.splitName.2 = name ∧ name ≠ [] ∧ name ≠ ['.'] ∧ name ≠ ['.', '.'] := by
  simp only [fileName?, Option.ite_none_left_eq_some, not_or, Option.some.injEq] at h
  obtain ⟨⟨hne, hdot, hdots⟩, rfl⟩ := h
  exact ⟨rfl, hne, hdot, hdots⟩

/-- An extension is added behind the file name, and ends the path. -/
theorem ensureExtension_of_none {p : Path} {name : List Char} {ext : String}
    (hf : p.fileName? = some name) (he : p.extension? = none) (hext : ext ≠ "") :
    p.ensureExtension ext = ⟨String.ofList (p.splitName.1 ++ (name ++ '.' :: ext.toList))⟩ := by
  have hs : (splitExtension name).2 = none := by simpa [extension?, hf] using he
  have hempty : ext.isEmpty = false := by simpa using hext
  simp only [ensureExtension, he, Option.isSome_none, Bool.false_eq_true, if_false,
    replaceExtension, hf, splitExtension_of_none hs, hempty, List.append_assoc]

end Path

/-! ## Places -/

namespace FileSystem

/-- Components without steps are walked on the spot. -/
theorem walk_eq_of_stays {fs : FileSystem} {cs : List String} (hcs : ∀ c ∈ cs, c = "" ∨ c = ".")
    {place stop : Place} (h : fs.walk place cs = .ok stop) : stop = place := by
  induction cs generalizing place with
  | nil =>
    cases h
    rfl
  | cons c rest ih =>
    obtain ⟨p, -, hp, hr⟩ := walk_cons h
    rw [neighbour, if_pos (hcs c (by simp))] at hp
    cases hp
    exact ih (fun d hd => hcs d (by simp [hd])) hr

/-- A step to a name leads below the folder. -/
theorem neighbour_eq_ok {folder place : Place} {name : String} (hne : name ≠ "") (hdot : name ≠ ".")
    (hdots : name ≠ "..") (h : neighbour folder name = .ok place) : place = folder ++ [name] := by
  rw [neighbour, if_neg (by simp [hne, hdot]), if_neg hdots] at h
  split at h
  · cases h
  · cases h
    rfl

theorem ne_of_neighbour {folder : Place} {name : String}
    (h : neighbour folder name = .ok (folder ++ [name])) :
    name ≠ "" ∧ name ≠ "." ∧ name ≠ ".." := by
  unfold neighbour at h
  split at h
  · simp at h
  · rename_i hn
    split at h
    · have hl := congrArg List.length (Except.ok.inj h)
      simp only [List.length_dropLast, List.length_append, List.length_cons, List.length_nil] at hl
      omega
    · rename_i hdots
      rw [not_or] at hn
      exact ⟨hn.1, hn.2, hdots⟩

/-- A path that can be written to has a file name. -/
theorem fileName?_of_target {fs : FileSystem} {p : Path} {place : Place}
    (h : fs.target p = .ok place) : ∃ name, p.fileName? = some name := by
  obtain ⟨front, name, folder, -, hcs, -, -, hnb, rfl, -⟩ := target_eq_ok h
  obtain ⟨hne, hdot, hdots⟩ := ne_of_neighbour hnb
  obtain ⟨front', tail, ht, hcs', -⟩ := p.components_eq
  -- a tail would end in a component without a step
  have hlast : name = String.ofList p.splitName.2 := by
    rw [hcs'] at hcs
    obtain rfl | ⟨init, c, rfl⟩ := List.eq_nil_or_concat tail
    · have hl := congrArg List.getLast? hcs
      simpa using hl.symm
    · rw [List.concat_eq_append, ← List.cons_append, ← List.append_assoc] at hcs
      have hc : c = name := by simpa using (List.append_inj' hcs rfl).2
      have hstay := ht c (by simp)
      rw [hc] at hstay
      exact absurd hstay (by simp [hne, hdot])
  rw [hlast] at hne hdot hdots
  refine ⟨p.splitName.2, if_neg ?_⟩
  rintro (hn | hn | hn)
  · exact hne (by rw [hn])
  · exact hdot (by rw [hn])
  · exact hdots (by rw [hn])

/-- The file name decides where a walk starts only if it is all there is. -/
theorem origin_eq (fs : FileSystem) {p : Path} {name : List Char} (hf : p.fileName? = some name)
    (rest : List Char) :
    fs.origin (String.ofList (p.splitName.1 ++ (name ++ rest))) = fs.origin p.text := by
  obtain ⟨hname, hne, -⟩ := Path.fileName?_eq_some hf
  obtain ⟨tail, -, htext⟩ := p.text_eq
  rw [hname] at htext
  unfold origin
  rw [htext, String.toList_ofList]
  obtain ⟨c, cs, rfl⟩ := List.exists_cons_of_ne_nil hne
  simp [List.head?_append]

/-- A path leads to its file name in the folder in front of it. -/
theorem place_of_locate {fs : FileSystem} {p : Path} {name : List Char}
    (hf : p.fileName? = some name) {front tail : List String}
    (ht : ∀ c ∈ tail, c = "" ∨ c = ".")
    (hcs : components p.text = front ++ String.ofList name :: tail) {folder place : Place}
    (hw : fs.walk (fs.origin p.text) front = .ok folder) {e : Entry}
    (h : fs.locate p = .ok (place, e)) : place = folder ++ [String.ofList name] := by
  obtain ⟨-, hne, hdot, hdots⟩ := Path.fileName?_eq_some hf
  have hchars : ∀ cs : List Char, name ≠ cs → String.ofList name ≠ String.ofList cs :=
    fun cs hn he => hn (String.ofList_injective he)
  obtain ⟨-, hwalk, -⟩ := locate_eq_ok.1 h
  rw [hcs, walk_append _ hw] at hwalk
  obtain ⟨q, -, hq, hrest⟩ := walk_cons hwalk
  have hqe := neighbour_eq_ok (hchars [] hne) (hchars ['.'] hdot) (hchars ['.', '.'] hdots) hq
  exact (walk_eq_of_stays ht hrest).trans hqe

/-- A file that was written under a path with an extension added to it is not where the path
leads. -/
theorem locate_ne_of_write {fs fs' : FileSystem} {p : Path} {ext : String} {bytes : ByteArray}
    (he : p.extension? = none) (hext : ext ≠ "") (hslash : '/' ∉ ext.toList)
    (h : fs.write (p.ensureExtension ext) bytes = (.ok (), fs')) {place : Place}
    (ht : fs.target (p.ensureExtension ext) = .ok place) (e : Entry) :
    fs'.locate p ≠ .ok (place, e) := by
  have hkeeps := KeepsFolders.of_write h
  cases hf : p.fileName? with
  | none =>
    -- such a path stays as it is, and cannot be written to
    have hself : p.ensureExtension ext = p := by
      simp [Path.ensureExtension, he, Path.replaceExtension, hf]
    rw [hself] at ht
    obtain ⟨name, hn⟩ := fileName?_of_target ht
    rw [hf] at hn
    cases hn
  | some name =>
    have hname := (Path.fileName?_eq_some hf).1
    obtain ⟨front, tail, htail, hcs, hreplace⟩ := p.components_eq
    have hs := p.slash_not_mem_splitName
    rw [hname] at hcs hs
    have hlong := hreplace (name ++ '.' :: ext.toList) (by simp [hs, hslash])
    rw [Path.ensureExtension_of_none hf he hext] at ht
    obtain ⟨front', long, folder, -, hcs', hw, -, -, rfl, -⟩ := target_eq_ok ht
    obtain ⟨rfl, hl⟩ := List.append_inj' (hlong.symm.trans hcs') rfl
    rw [origin_eq fs hf] at hw
    intro hloc
    rw [← hkeeps.origin] at hw
    have hplace := place_of_locate hf htail hcs (hkeeps.walk hw) hloc
    -- the names differ in the extension
    have hnames : String.ofList (name ++ '.' :: ext.toList) = String.ofList name := by
      simpa using hl.trans (List.append_cancel_left hplace)
    simpa using String.ofList_injective hnames

end FileSystem

end TurtleGraphics
