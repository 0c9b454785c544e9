import TurtleGraphics.Json.Session
import TurtleGraphics.Proofs.History.TakingBack

/-!
# Reloading a history

The JSON form of a history does not hold the marks that its records keep (`reload_eq`). All else
comes back, so a history that is reloaded on the way has the same lines as one that is not, and
gives the same records back (`Reloaded`). Its own mark is the same too until a record is taken back
that was made when the history was dirty, and has been reloaded since (`Forgets`); this leaves it
clean where the other one is dirty (`undergo_observed`, `reload_loses_mark`).
-/

set_option autoImplicit false

namespace TurtleGraphics

/-! ## The JSON form -/

theorem ofJson?_record (r : Record) :
    JsonForm.ofJson? (JsonForm.toJson r) = some { r with wasDirty := false } := by
  obtain ⟨line, purpose, wasDirty⟩ := r
  cases purpose <;> rfl

theorem ofJson?_records (records : List Record) :
    JsonForm.ofJson? (JsonForm.toJson records) =
      some (records.map fun r => { r with wasDirty := false }) := by
  show (records.map JsonForm.toJson).mapM JsonForm.ofJson? = _
  induction records with
  | nil => rfl
  | cons r rest ih =>
    rw [List.map_cons, List.mapM_cons, ih, ofJson?_record]
    rfl

namespace History

/-- The history without the marks of its records. -/
def unmarked (h : History) : History :=
  { h with records := h.records.map fun r => { r with wasDirty := false } }

/-- The history comes back, but no record knows of a mark before it. -/
theorem reload_eq (h : History) : h.reload = some h.unmarked := by
  show (do
    let records ← JsonForm.ofJson? (JsonForm.toJson h.records)
    let dirty ← JsonForm.ofJson? (JsonForm.toJson h.dirty)
    let replaying ← JsonForm.ofJson? (JsonForm.toJson h.replaying)
    return (⟨records, dirty, replaying⟩ : History)) = _
  rw [ofJson?_records]
  rfl

/-! ## Marks -/

theorem markAt_unmarked (h : History) (n : Nat) :
    h.unmarked.markAt n = (h.markAt n && decide (h.records.length ≤ n)) := by
  rcases Nat.lt_or_ge n h.records.length with hlt | hge
  · simp [markAt, unmarked, hlt]
  · simp [markAt, unmarked, hge]

theorem markAt_markSaved (h : History) (n : Nat) :
    h.markSaved.markAt n = (h.markAt n && decide (n < h.records.length)) := by
  rcases Nat.lt_or_ge n h.records.length with hlt | hge
  · simp [markAt, markSaved, hlt]
  · simp [markAt, markSaved, hge]

theorem markAt_clear (h : History) (n : Nat) : h.clear.markAt n = false := by
  simp [markAt, clear]

theorem markAt_added (h : History) (line : String) (purpose : Purpose) {n : Nat}
    (hn : n = h.records.length + 1) :
    (h.add line purpose).markAt n = (h.markAt h.records.length || purpose == .replay) := by
  rw [markAt_length, hn]
  simp [markAt, add]

theorem entries_undo (h : History) : h.undo.2.entries = h.entries.dropLast := by
  rw [entries, records_undo, List.map_dropLast, entries]

theorem undo_entry (h : History) :
    h.undo.1.map (fun r => (r.line, r.purpose)) = h.entries.getLast? := by
  obtain hr | ⟨front, r, hr⟩ := h.records_cases
  · simp [undo_of_nil hr, entries, hr]
  · simp [undo_of_concat hr, entries, hr]

/-! ## Reloads among operations -/

/-- An operation, or the history is written in its JSON form and read back. -/
inductive Stage where
  | operation (op : Operation)
  | reload

/-- The history after some stages, if it can be read each time. -/
def undergo (h : History) : List Stage → Option History
  | [] => some h
  | .operation op :: rest => (h.operate op).undergo rest
  | .reload :: rest => h.reload.bind (·.undergo rest)

/-- The operations among some stages. -/
def operations (stages : List Stage) : List Operation :=
  stages.filterMap fun
    | .operation op => some op
    | .reload => none

/-- How many records have been reloaded and are still there, if so far the first `n` of `h` have
been. -/
def loaded (h : History) (n : Nat) : List Stage → Nat
  | [] => n
  | .operation op :: rest => (h.operate op).loaded (min n (h.operate op).records.length) rest
  | .reload :: rest => h.loaded h.records.length rest

/-- All `n` records have been reloaded, and the last of them was made when the history was dirty. -/
def Forgets (h : History) (n : Nat) : Prop :=
  h.records.length = n ∧ ∃ r ∈ h.records.getLast?, r.wasDirty = true

/-- The history `k` is `h` but for marks that were lost when the first `n` records were reloaded. -/
structure Reloaded (n : Nat) (h k : History) : Prop where
  bound : n ≤ h.records.length
  entries : k.entries = h.entries
  replaying : k.replaying = h.replaying
  lost : ∀ i ≤ h.records.length, k.markAt i = true → h.markAt i = true
  loaded : ∀ i < n, k.markAt i = false

/-- No mark has been lost but those of the first `n` records. -/
def Faithful (n : Nat) (h k : History) : Prop :=
  ∀ i, n ≤ i → i ≤ h.records.length → k.markAt i = h.markAt i

namespace Reloaded

variable {n : Nat} {h k : History}

theorem length (hr : Reloaded n h k) : k.records.length = h.records.length := by
  simpa [History.entries] using congrArg List.length hr.entries

theorem reload (hr : Reloaded n h k) : Reloaded h.records.length h k.unmarked where
  bound := le_rfl
  entries := by rw [← hr.entries]; simp [History.entries, unmarked, Function.comp_def]
  replaying := hr.replaying
  lost i hi hm := by
    rw [markAt_unmarked, Bool.and_eq_true] at hm
    exact hr.lost i hi hm.1
  loaded i hi := by
    rw [markAt_unmarked, hr.length, decide_eq_false (by omega), Bool.and_false]

theorem add (hr : Reloaded n h k) (line : String) (purpose : Purpose) :
    Reloaded n (h.add line purpose) (k.add line purpose) := by
  have hlen : (h.add line purpose).records.length = h.records.length + 1 := by simp [History.add]
  refine ⟨?_, ?_, hr.replaying, fun i hi hm => ?_, fun i hi => ?_⟩
  · exact hlen ▸ Nat.le_succ_of_le hr.bound
  · rw [entries_add, entries_add, hr.entries]
  · rcases Nat.lt_or_eq_of_le (hlen ▸ hi) with hlt | rfl
    · have hle := Nat.le_of_lt_succ hlt
      rw [markAt_add k line purpose (hr.length ▸ hle)] at hm
      rw [markAt_add h line purpose hle]
      exact hr.lost i hle hm
    · rw [markAt_added k line purpose (by rw [hr.length]), hr.length, Bool.or_eq_true] at hm
      rw [markAt_added h line purpose rfl, Bool.or_eq_true]
      exact hm.imp_left (hr.lost _ le_rfl)
  · have hle : i ≤ k.records.length := by have := hr.bound; rw [hr.length]; omega
    rw [markAt_add k line purpose hle, hr.loaded i hi]

theorem undo (hr : Reloaded n h k) :
    Reloaded (min n h.undo.2.records.length) h.undo.2 k.undo.2 := by
  have hlen : k.undo.2.records.length = h.undo.2.records.length := by
    rw [records_undo, records_undo, List.length_dropLast, List.length_dropLast, hr.length]
  have hle : h.undo.2.records.length ≤ h.records.length := by simp [records_undo]
  refine ⟨Nat.min_le_right _ _, ?_, ?_, fun i hi hm => ?_, fun i hi => ?_⟩
  · rw [entries_undo, entries_undo, hr.entries]
  · exact (operate_replaying k .undo).trans (hr.replaying.trans (operate_replaying h .undo).symm)
  · rw [markAt_undo k (hlen ▸ hi)] at hm
    rw [markAt_undo h hi]
    exact hr.lost i (hi.trans hle) hm
  · obtain ⟨hn, hi⟩ := Nat.lt_min.1 hi
    rw [markAt_undo k (hlen ▸ hi.le), hr.loaded i hn]

theorem markSaved (hr : Reloaded n h k) : Reloaded n h.markSaved k.markSaved := by
  refine ⟨hr.bound, hr.entries, hr.replaying, fun i hi hm => ?_, fun i hi => ?_⟩
  · rw [markAt_markSaved, Bool.and_eq_true, hr.length] at hm
    rw [markAt_markSaved, Bool.and_eq_true]
    exact hm.imp_left (hr.lost i hi)
  · rw [markAt_markSaved, hr.loaded i hi, Bool.false_and]

theorem clear (hr : Reloaded n h k) : Reloaded 0 h.clear k.clear := by
  refine ⟨le_rfl, rfl, hr.replaying, fun i _ hm => ?_, fun i _ => markAt_clear k i⟩
  rw [markAt_clear] at hm
  cases hm

theorem operate (hr : Reloaded n h k) (op : Operation) :
    Reloaded (min n (h.operate op).records.length) (h.operate op) (k.operate op) := by
  cases op with
  | add line purpose =>
    have hadd : Reloaded n (h.operate (.add line purpose)) (k.operate (.add line purpose)) :=
      hr.add line purpose
    rwa [Nat.min_eq_left hadd.bound]
  | undo => exact hr.undo
  | clear =>
    have hclear : Reloaded 0 (h.operate .clear) (k.operate .clear) := hr.clear
    rwa [show (h.operate .clear).records.length = 0 from rfl, Nat.min_zero]
  | markSaved =>
    have hsaved : Reloaded n (h.operate .markSaved) (k.operate .markSaved) := hr.markSaved
    rwa [Nat.min_eq_left hsaved.bound]

/-- The mark of a record that was reloaded does not come back. -/
theorem forgets (hr : Reloaded n h k) (hf : h.Forgets n) :
    h.undo.2.dirty = true ∧ k.undo.2.dirty = false := by
  obtain ⟨rfl, r, hlast, hd⟩ := hf
  obtain ⟨front, hfront⟩ := List.getLast?_eq_some_iff.1 hlast
  have hlen : h.records.length = front.length + 1 := by simp [hfront]
  have hundo : k.undo.2.records.length = front.length := by
    rw [records_undo, List.length_dropLast, hr.length, hlen, Nat.add_sub_cancel]
  refine ⟨by rw [undo_of_concat hfront]; exact hd, ?_⟩
  rw [← markAt_length, markAt_undo k le_rfl, hundo]
  exact hr.loaded front.length (by omega)

end Reloaded

/-! ## Marks that are not lost -/

namespace Faithful

variable {n : Nat} {h k : History}

theorem dirty (hf : Faithful n h k) (hr : Reloaded n h k) : k.dirty = h.dirty := by
  have := hf _ hr.bound le_rfl
  rwa [markAt_length, ← hr.length, markAt_length] at this

theorem reload (hf : Faithful n h k) (hr : Reloaded n h k) :
    Faithful h.records.length h k.unmarked := by
  intro i hlo hhi
  rw [markAt_unmarked, hr.length, decide_eq_true hlo, Bool.and_true]
  exact hf i (hr.bound.trans hlo) hhi

/-- An operation loses no mark, but for an undo that brings back a record's mark that is lost. -/
theorem operate (hf : Faithful n h k) (hr : Reloaded n h k) {op : Operation}
    (hno : op = .undo → ¬ h.Forgets n) :
    Faithful (min n (h.operate op).records.length) (h.operate op) (k.operate op) := by
  intro i hlo hhi
  cases op with
  | add line purpose =>
    have hlen : (h.operate (.add line purpose)).records.length = h.records.length + 1 := by
      simp [History.operate, add]
    rw [hlen] at hlo hhi
    have hn : n ≤ i := by have := hr.bound; omega
    rcases Nat.lt_or_eq_of_le hhi with hlt | rfl
    · have hle := Nat.le_of_lt_succ hlt
      rw [History.operate, History.operate, markAt_add k line purpose (hr.length ▸ hle),
        markAt_add h line purpose hle]
      exact hf i hn hle
    · rw [History.operate, History.operate, markAt_added k line purpose (by rw [hr.length]),
        markAt_added h line purpose rfl, hr.length, hf _ hr.bound le_rfl]
  | undo =>
    have hlen : h.undo.2.records.length = h.records.length - 1 := by simp [records_undo]
    have hklen : k.undo.2.records.length = h.records.length - 1 := by
      simp [records_undo, hr.length]
    rw [History.operate, hlen] at hlo hhi
    rw [History.operate, History.operate, markAt_undo k (hklen ▸ hhi), markAt_undo h (hlen ▸ hhi)]
    rcases Nat.lt_or_ge i n with hlt | hge
    · -- the record that is taken back has been reloaded
      rw [hr.loaded i hlt, eq_comm, Bool.eq_false_iff]
      have := hr.bound
      obtain hnil | ⟨front, r, hfront⟩ := h.records_cases
      · rw [hnil] at this
        exact absurd (hlt.trans_le this) (Nat.not_lt_zero i)
      · have hcount : h.records.length = front.length + 1 := by simp [hfront]
        obtain rfl : i = front.length := by omega
        intro hd
        refine hno rfl ⟨by omega, r, by simp [hfront], ?_⟩
        simpa [markAt, hfront] using hd
    · exact hf i hge (by omega)
  | clear => rw [History.operate, History.operate, markAt_clear, markAt_clear]
  | markSaved =>
    have hbound : n ≤ (h.operate .markSaved).records.length := hr.bound
    have hn : n ≤ i := by rwa [Nat.min_eq_left hbound] at hlo
    rw [History.operate, History.operate, markAt_markSaved, markAt_markSaved, hr.length,
      hf i hn hhi]

end Faithful

/-! ## Runs -/

theorem Reloaded.undergo {n : Nat} {h k : History} (hr : Reloaded n h k) (stages : List Stage) :
    ∃ k', k.undergo stages = some k' ∧
      Reloaded (h.loaded n stages) (h.perform (operations stages)) k' := by
  induction stages generalizing n h k with
  | nil => exact ⟨k, rfl, hr⟩
  | cons stage rest ih =>
    cases stage with
    | operation op => exact ih (hr.operate op)
    | reload =>
      obtain ⟨k', hk, hr'⟩ := ih hr.reload
      exact ⟨k', by rw [History.undergo, reload_eq]; exact hk, hr'⟩

/-- The marks stay the same until an undo brings back one that was lost. -/
theorem Faithful.undergo {n : Nat} {h k k' : History} (hf : Faithful n h k) (hr : Reloaded n h k)
    {stages : List Stage} (hk : k.undergo stages = some k')
    (hno : ∀ before after, stages = before ++ .operation .undo :: after →
      ¬ (h.perform (operations before)).Forgets (h.loaded n before)) :
    Faithful (h.loaded n stages) (h.perform (operations stages)) k' := by
  induction stages generalizing n h k with
  | nil =>
    cases hk
    exact hf
  | cons stage rest ih =>
    have hrest : ∀ before after, rest = before ++ .operation .undo :: after →
        ¬ (h.perform (operations (stage :: before))).Forgets (h.loaded n (stage :: before)) :=
      fun before after he => hno (stage :: before) after (by rw [he]; rfl)
    cases stage with
    | operation op =>
      have hop : op = .undo → ¬ h.Forgets n := by
        rintro rfl
        exact hno [] rest rfl
      exact ih (hf.operate hr hop) (hr.operate op) hk hrest
    | reload =>
      rw [History.undergo, reload_eq] at hk
      exact ih (hf.reload hr) hr.reload hk hrest

/-- A new history that is reloaded on the way has the same lines as one that is not, and gives the
same ones back. If it is dirty the other one is. Their marks are the same, unless an undo has taken
back a record that was made when the history was dirty and has been reloaded since; such an undo
leaves one of them dirty and the other one clean. -/
theorem undergo_observed (stages : List Stage) :
    let h := empty.perform (operations stages)
    ∃ k, empty.undergo stages = some k ∧
      k.entries = h.entries ∧ k.replaying = h.replaying ∧
      (k.undo.1.map fun r => (r.line, r.purpose)) = (h.undo.1.map fun r => (r.line, r.purpose)) ∧
      (k.dirty = true → h.dirty = true) ∧
      (k.dirty = h.dirty ∨ ∃ before after, stages = before ++ .operation .undo :: after ∧
        (empty.perform (operations before)).Forgets (empty.loaded 0 before)) ∧
      (h.Forgets (empty.loaded 0 stages) → h.undo.2.dirty = true ∧ k.undo.2.dirty = false) := by
  intro h
  have hnew : Reloaded 0 empty empty := ⟨le_rfl, rfl, rfl, fun _ _ hm => hm, fun _ _ => rfl⟩
  obtain ⟨k, hk, hr⟩ := hnew.undergo stages
  refine ⟨k, hk, hr.entries, hr.replaying, ?_, ?_, ?_, hr.forgets⟩
  · rw [undo_entry, undo_entry, hr.entries]
  · have hlost := hr.lost _ le_rfl
    rwa [markAt_length, ← hr.length, markAt_length] at hlost
  · rw [or_iff_not_imp_right]
    intro hno
    have hf : Faithful 0 empty empty := fun _ _ _ => rfl
    exact (hf.undergo hnew hk fun before after he hforgets =>
      hno ⟨before, after, he, hforgets⟩).dirty hr

/-- Two lines nobody has saved: one of them is taken back, and the other one is unsaved still; but
not if the history was reloaded in between. -/
theorem reload_loses_mark :
    let stages : List Stage := [.operation (.add "penup" .replay),
      .operation (.add "pendown" .replay), .reload, .operation .undo]
    (empty.perform (operations stages)).dirty = true ∧
      empty.undergo stages = some ⟨[⟨"penup", .replay, false⟩], false, false⟩ := by
  intro stages
  refine ⟨by decide, ?_⟩
  simp only [stages, undergo, reload_eq]
  rfl

end History

end TurtleGraphics
