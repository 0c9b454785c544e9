import TurtleGraphics.FileSystem
import TurtleGraphics.Proofs.Except

/-!
# Reading a file back

A file that was written is read back under the same path (`read_of_write`), with no other file
changed. Looking a path up walks all its components, while writing walks to the folder of the
last one. Steps lead through folders only, and a write puts a file where no folder is, so it
disturbs no walk (`KeepsFolders.walk`). A write that fails has changed nothing or the same file,
which then holds an initial part of what was to be written (`write_cases`).
-/

set_option autoImplicit false

namespace TurtleGraphics.FileSystem

/-! ## Walks -/

theorem walk_cons {fs : FileSystem} {place stop : Place} {c : String} {rest : List String}
    (h : fs.walk place (c :: rest) = .ok stop) :
    ∃ p, fs.requireFolder place = .ok () ∧ neighbour place c = .ok p ∧
      fs.walk p rest = .ok stop := by
  rw [walk] at h
  obtain ⟨⟨⟩, hf, h⟩ := bind_eq_ok h
  obtain ⟨p, hp, h⟩ := bind_eq_ok h
  exact ⟨p, hf, hp, h⟩

theorem walk_cons_of {fs : FileSystem} {place p : Place} {c : String} (rest : List String)
    (hf : fs.requireFolder place = .ok ()) (hp : neighbour place c = .ok p) :
    fs.walk place (c :: rest) = fs.walk p rest := by
  rw [walk, hf, hp]; rfl

theorem walk_append {fs : FileSystem} {cs : List String} (ds : List String) {place mid : Place}
    (h : fs.walk place cs = .ok mid) : fs.walk place (cs ++ ds) = fs.walk mid ds := by
  induction cs generalizing place with
  | nil => cases h; rfl
  | cons c rest ih =>
    obtain ⟨p, hf, hp, hr⟩ := walk_cons h
    rw [List.cons_append, walk_cons_of _ hf hp, ih hr]

theorem requireFolder_eq_ok {fs : FileSystem} {place : Place} :
    fs.requireFolder place = .ok () ↔ fs.entryAt? place = some .folder := by
  unfold requireFolder
  split <;> simp_all

/-- What a path leads to: the end of the walk along its components. -/
theorem locate_eq_ok {fs : FileSystem} {path : Path} {place : Place} {e : Entry} :
    fs.locate path = .ok (place, e) ↔ checkText path.text = .ok () ∧
      fs.walk (fs.origin path.text) (components path.text) = .ok place ∧
      fs.entryAt? place = some e := by
  constructor
  · intro h
    unfold locate at h
    obtain ⟨⟨⟩, hc, h⟩ := bind_eq_ok h
    obtain ⟨stop, hw, h⟩ := bind_eq_ok h
    split at h
    · rename_i hs
      cases h
      exact ⟨hc, hw, hs⟩
    · cases h
  · rintro ⟨hc, hw, he⟩
    unfold locate
    rw [hc, hw]
    simp only [bind, Except.bind, he]
    rfl

/-- Every folder stays a folder. -/
structure KeepsFolders (fs fs' : FileSystem) : Prop where
  workingFolder : fs'.workingFolder = fs.workingFolder
  folders : ∀ place, fs.entryAt? place = some .folder → fs'.entryAt? place = some .folder

namespace KeepsFolders

theorem refl (fs : FileSystem) : fs.KeepsFolders fs := ⟨rfl, fun _ h => h⟩

variable {fs fs' fs'' : FileSystem}

theorem trans (h : fs.KeepsFolders fs') (h' : fs'.KeepsFolders fs'') : fs.KeepsFolders fs'' :=
  ⟨h'.workingFolder.trans h.workingFolder, fun p hp => h'.folders p (h.folders p hp)⟩

/-- What befalls the writes to come is no matter of folders. -/
theorem withBreaks (fs : FileSystem) (breaks : List (Option Break)) :
    fs.KeepsFolders { fs with breaks } :=
  ⟨rfl, fun _ h => h⟩

/-- A file put where no folder is leaves the folders as they are. -/
theorem putFile {place : Place} (bytes : ByteArray) (hn : fs.entryAt? place ≠ some .folder) :
    fs.KeepsFolders (fs.putFile place bytes) := by
  refine ⟨rfl, fun p hp => ?_⟩
  have hne : p ≠ place := by
    rintro rfl
    exact hn hp
  rw [entryAt?_putFile_of_ne fs bytes hne, hp]

theorem requireFolder (h : fs.KeepsFolders fs') {place : Place}
    (hf : fs.requireFolder place = .ok ()) : fs'.requireFolder place = .ok () := by
  rw [requireFolder_eq_ok] at hf ⊢
  exact h.folders place hf

/-- What can be walked can still be walked. -/
theorem walk (h : fs.KeepsFolders fs') {cs : List String} {p stop : Place}
    (hw : fs.walk p cs = .ok stop) : fs'.walk p cs = .ok stop := by
  induction cs generalizing p with
  | nil => exact hw
  | cons c rest ih =>
    obtain ⟨q, hf, hp, hr⟩ := walk_cons hw
    rw [walk_cons_of _ (h.requireFolder hf) hp]
    exact ih hr

theorem origin (h : fs.KeepsFolders fs') (text : String) : fs'.origin text = fs.origin text := by
  unfold FileSystem.origin
  rw [h.workingFolder]

/-- A path leads to the same place, whatever is there by now. -/
theorem locate (h : fs.KeepsFolders fs') {path : Path} {place : Place} {e e' : Entry}
    (hl : fs.locate path = .ok (place, e)) (he : fs'.entryAt? place = some e') :
    fs'.locate path = .ok (place, e') := by
  obtain ⟨hc, hw, -⟩ := locate_eq_ok.1 hl
  refine locate_eq_ok.2 ⟨hc, ?_, he⟩
  rw [h.origin]
  exact h.walk hw

end KeepsFolders

/-! ## Targets -/

/-- Where the last component of a path stands if no slash follows it. -/
theorem splitLast_eq {cs front : List String} {name : String}
    (h : splitLast cs = (front, some name, false)) : cs = front ++ [name] ∧ name ≠ "" := by
  unfold splitLast at h
  split at h
  · simp at h
  · rename_i c rev hd
    simp only [Prod.mk.injEq, Option.some.injEq, decide_eq_false_iff_not] at h
    obtain ⟨rfl, rfl, hl⟩ := h
    rw [← List.head?_reverse] at hl
    cases hr : cs.reverse with
    | nil => simp [hr] at hd
    | cons a as =>
      rw [hr] at hd hl
      have ha : a ≠ "" := by simpa using hl
      simp only [List.dropWhile_cons, ha, decide_false, Bool.false_eq_true, if_false,
        List.cons.injEq] at hd
      obtain ⟨rfl, rfl⟩ := hd
      refine ⟨?_, ha⟩
      rw [← List.reverse_reverse cs, hr, List.reverse_cons]

/-- What makes a path writable: a folder to write in, and a name in it that no folder has. -/
theorem target_eq_ok {fs : FileSystem} {path : Path} {place : Place}
    (h : fs.target path = .ok place) :
    ∃ front name folder, checkText path.text = .ok () ∧
      components path.text = front ++ [name] ∧ fs.walk (fs.origin path.text) front = .ok folder ∧
      fs.requireFolder folder = .ok () ∧ neighbour folder name = .ok place ∧
      place = folder ++ [name] ∧ fs.entryAt? place ≠ some .folder := by
  unfold target at h
  obtain ⟨_, hc, h1⟩ := bind_eq_ok h
  clear h
  split at h1
  · cases h1
  · rename_i front name slashed hs
    obtain ⟨folder, hw, h2⟩ := bind_eq_ok h1
    obtain ⟨_, hf, h3⟩ := bind_eq_ok h2
    clear h1 h2
    split at h3
    · cases h3
    · rename_i hn
      simp only [not_or, Bool.not_eq_true] at hn
      obtain ⟨rfl, hdot, hdots⟩ := hn
      obtain ⟨hcs, hne⟩ := splitLast_eq hs
      split at h3
      · cases h3
      · rename_i hlen
        have hnb : neighbour folder name = .ok (folder ++ [name]) := by
          rw [neighbour, if_neg (by simp [hne, hdot]), if_neg hdots, if_neg hlen]
        split at h3
        · cases h3
        · rename_i hfolder
          cases h3
          exact ⟨front, name, folder, hc, hcs, hw, hf, hnb, rfl, hfolder⟩

/-! ## Writes -/

/-- What is left in a file by a write of `bytes` that came out as `outcome`: an initial part of
them, and all of them if the write went through. -/
structure LeftBy (outcome : Except Fault Unit) (bytes left : ByteArray) : Prop where
  initial : ∃ kept, left = bytes.extract 0 kept
  whole : outcome = .ok () → left = bytes

/-- A write that is refused changes nothing. Any other one changes the file at the place that its
path leads to, also if it breaks off. -/
theorem write_cases (fs : FileSystem) (path : Path) (bytes : ByteArray) :
    (∃ fault, fs.target path = .error fault ∧ fs.write path bytes = (.error fault, fs)) ∨
      ∃ place outcome left breaks, fs.target path = .ok place ∧ LeftBy outcome bytes left ∧
        fs.write path bytes = (outcome, { fs with breaks }.putFile place left) := by
  unfold write
  cases fs.target path with
  | error fault => exact .inl ⟨fault, rfl, rfl⟩
  | ok place =>
    dsimp only
    cases fs.breaks.head?.join with
    | none =>
      have hwhole : LeftBy (.ok ()) bytes bytes :=
        ⟨⟨bytes.size, ByteArray.extract_zero_size.symm⟩, fun _ => rfl⟩
      exact .inr ⟨place, _, bytes, _, rfl, hwhole, rfl⟩
    | some b =>
      have hpart : LeftBy (.error b.fault) bytes (bytes.extract 0 b.kept) :=
        ⟨⟨b.kept, rfl⟩, fun h => by cases h⟩
      exact .inr ⟨place, _, _, _, rfl, hpart, rfl⟩

section
variable {fs fs' : FileSystem} {path : Path} {bytes : ByteArray} {outcome : Except Fault Unit}

/-- After a write the path leads to the file that was written. -/
theorem locate_of_write (h : fs.write path bytes = (.ok (), fs')) :
    ∃ place, fs.target path = .ok place ∧ fs'.locate path = .ok (place, .file bytes) ∧
      fs'.entryAt? place = some (.file bytes) := by
  obtain ⟨fault, -, hw⟩ | ⟨place, outcome, left, breaks, ht, hleft, hw⟩ := write_cases fs path bytes
  all_goals rw [hw] at h; cases h
  obtain rfl := hleft.whole rfl
  obtain ⟨front, name, folder, hc, hcs, hw, hf, hnb, hplace, hn⟩ := target_eq_ok ht
  have hkeeps : fs.KeepsFolders ({ fs with breaks }.putFile place left) :=
    (KeepsFolders.withBreaks fs breaks).trans (.putFile left hn)
  have hwalk : ({ fs with breaks }.putFile place left).walk (fs.origin path.text)
      (components path.text) = .ok place := by
    rw [hcs, walk_append _ (hkeeps.walk hw), walk_cons_of _ (hkeeps.requireFolder hf) hnb]
    rfl
  have hentry : ({ fs with breaks }.putFile place left).entryAt? place = some (.file left) :=
    entryAt?_putFile_self _ left (by simp [hplace])
  exact ⟨place, ht, locate_eq_ok.2 ⟨hc, hwalk, hentry⟩, hentry⟩

/-- A file that was written is read back under its path. -/
theorem read_of_write (h : fs.write path bytes = (.ok (), fs')) : fs'.read path = .ok bytes := by
  obtain ⟨place, -, hl, -⟩ := locate_of_write h
  rw [read, hl]
  rfl

theorem KeepsFolders.of_write (h : fs.write path bytes = (outcome, fs')) :
    fs.KeepsFolders fs' := by
  obtain ⟨fault, -, hw⟩ | ⟨place, outcome', left, breaks, ht, -, hw⟩ := write_cases fs path bytes
  all_goals rw [hw] at h; cases h
  · exact .refl fs
  · obtain ⟨front, name, folder, -, -, -, -, -, -, hn⟩ := target_eq_ok ht
    exact (KeepsFolders.withBreaks fs breaks).trans (.putFile left hn)

/-- A write changes the place that its path leads to, and no other. -/
theorem target_of_write (h : fs.write path bytes = (outcome, fs')) {place : Place}
    (hne : fs'.entryAt? place ≠ fs.entryAt? place) :
    fs.target path = .ok place ∧
      ∃ left, LeftBy outcome bytes left ∧ fs'.entryAt? place = some (.file left) := by
  obtain ⟨fault, -, hw⟩ | ⟨written, outcome', left, breaks, ht, hleft, hw⟩ :=
    write_cases fs path bytes
  all_goals rw [hw] at h; cases h
  · exact absurd rfl hne
  · obtain ⟨front, name, folder, -, -, -, -, -, hplace, -⟩ := target_eq_ok ht
    have heq : place = written :=
      Decidable.byContradiction fun hother => hne (entryAt?_putFile_of_ne _ left hother)
    subst heq
    exact ⟨ht, left, hleft, entryAt?_putFile_self _ left (by simp [hplace])⟩

end

end TurtleGraphics.FileSystem
