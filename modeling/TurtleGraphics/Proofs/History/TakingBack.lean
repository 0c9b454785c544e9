import Mathlib.Data.List.DropRight
import TurtleGraphics.History

/-!
# Taking records back

A record keeps the mark from before it, so taking it back brings back the very history that it was
added to (`exists_add`). Between two snapshots, where records are only added and taken back, a
history is what is left of the snapshot and the records added to that, and its mark is the one that
the snapshot had with just these records, or set by those added (`GrownFrom`). So a clean history
has the lines of its last snapshot exactly if no line to replay of the snapshot was taken back
(`clean_iff_lastSnapshot`). Otherwise the mark is about an older snapshot, and taking back a line
that has been saved leaves a clean history that differs from what was saved
(`savedLine_takenBack_clean`).
-/

set_option autoImplicit false

namespace TurtleGraphics.History

/-! ## Operations -/

/-- What is done to a history between replays. -/
inductive Operation where
  | add (line : String) (purpose : Purpose)
  | undo
  | clear
  | markSaved
  deriving DecidableEq

/-- The operation makes a snapshot: nothing is unsaved after it. -/
def Operation.settles : Operation → Bool
  | clear | markSaved => true
  | add _ _ | undo => false

def operate (h : History) : Operation → History
  | .add line purpose => h.add line purpose
  | .undo => h.undo.2
  | .clear => h.clear
  | .markSaved => h.markSaved

/-- The history after some operations. -/
def perform (h : History) (ops : List Operation) : History := ops.foldl operate h

@[simp] theorem perform_nil (h : History) : h.perform [] = h := rfl

@[simp] theorem perform_cons (h : History) (op : Operation) (ops : List Operation) :
    h.perform (op :: ops) = (h.operate op).perform ops := rfl

@[simp] theorem perform_append (h : History) (ops ops' : List Operation) :
    h.perform (ops ++ ops') = (h.perform ops).perform ops' := List.foldl_append

theorem undo_of_nil {h : History} (hr : h.records = []) : h.undo = (none, h) := by
  simp [undo, hr]

theorem undo_of_concat {h : History} {front : List Record} {r : Record}
    (hr : h.records = front ++ [r]) :
    h.undo = (some r, { h with records := front, dirty := r.wasDirty }) := by
  simp [undo, hr]

/-- A history without records, or with a last one. -/
theorem records_cases (h : History) :
    h.records = [] ∨ ∃ front r, h.records = front ++ [r] :=
  h.records.eq_nil_or_concat'

theorem records_undo (h : History) : h.undo.2.records = h.records.dropLast := by
  obtain hr | ⟨front, r, hr⟩ := h.records_cases
  · simp [undo_of_nil hr, hr]
  · simp [undo_of_concat hr, hr]

theorem operate_replaying (h : History) (op : Operation) :
    (h.operate op).replaying = h.replaying := by
  cases op with
  | add line purpose => rfl
  | clear => rfl
  | markSaved => rfl
  | undo =>
    obtain hr | ⟨front, r, hr⟩ := h.records_cases
    · simp only [operate, undo_of_nil hr]
    · simp only [operate, undo_of_concat hr]

theorem perform_replaying (h : History) (ops : List Operation) :
    (h.perform ops).replaying = h.replaying := by
  induction ops generalizing h with
  | nil => rfl
  | cons op rest ih => rw [perform_cons, ih, operate_replaying]

theorem operate_settled {op : Operation} (hs : op.settles = true) (h : History) :
    (h.operate op).dirty = false := by
  cases op with
  | clear | markSaved => rfl
  | add _ _ | undo => cases hs

/-! ## Between snapshots -/

/-- The mark that a history had when it had `n` of its records. -/
def markAt (h : History) (n : Nat) : Bool :=
  match h.records[n]? with
  | some r => r.wasDirty
  | none => h.dirty

theorem markAt_length (h : History) : h.markAt h.records.length = h.dirty := by
  simp [markAt]

/-- With the records that were there before, a history had the mark that it had then. -/
theorem markAt_add (h : History) (line : String) (purpose : Purpose) {n : Nat}
    (hn : n ≤ h.records.length) : (h.add line purpose).markAt n = h.markAt n := by
  rcases Nat.lt_or_eq_of_le hn with hlt | rfl
  · simp only [markAt, add, List.getElem?_append_left hlt, List.getElem?_eq_getElem hlt]
  · rw [markAt_length]
    simp [markAt, add]

/-- Taking the last record back brings its mark back. -/
theorem markAt_undo (h : History) {n : Nat} (hn : n ≤ h.undo.2.records.length) :
    h.undo.2.markAt n = h.markAt n := by
  obtain hr | ⟨front, r, hr⟩ := h.records_cases
  · rw [undo_of_nil hr]
  rw [undo_of_concat hr] at hn ⊢
  rcases Nat.lt_or_eq_of_le hn with hlt | rfl
  · simp only [markAt, hr, List.getElem?_append_left hlt, List.getElem?_eq_getElem hlt]
  · simp [markAt, hr]

/-- The fewest records that there are while some operations are done. -/
def fewest (h : History) : List Operation → Nat
  | [] => h.records.length
  | op :: rest => min h.records.length ((h.operate op).fewest rest)

theorem fewest_le (h : History) (ops : List Operation) : h.fewest ops ≤ h.records.length := by
  cases ops with
  | nil => exact le_rfl
  | cons op rest => exact Nat.min_le_left _ _

/-- The records of a history that some of the operations have taken back. -/
def takenBack (h : History) (ops : List Operation) : List Record := h.records.drop (h.fewest ops)

/-- The history `k` has the first `n` records of `h` and others behind them. Its mark is the one
that `h` had with these `n`, or set by the others. -/
def GrownFrom (h : History) (n : Nat) (k : History) : Prop :=
  ∃ added, k.records = h.records.take n ++ added ∧
    k.dirty = (h.markAt n || added.any (·.purpose == .replay))

namespace GrownFrom

variable {h k : History} {n : Nat}

theorem refl (h : History) : h.GrownFrom h.records.length h :=
  ⟨[], by simp, by simp [markAt_length]⟩

/-- What has grown from a history with one more record has grown from the one without it. -/
theorem of_add {line : String} {purpose : Purpose} (hn : n ≤ (h.add line purpose).records.length)
    (hg : (h.add line purpose).GrownFrom n k) : h.GrownFrom (min h.records.length n) k := by
  obtain ⟨added, hr, hd⟩ := hg
  have hlen : (h.add line purpose).records.length = h.records.length + 1 := by simp [add]
  rcases Nat.lt_or_ge h.records.length n with hlt | hle
  · -- the record is still there
    obtain rfl : n = (h.add line purpose).records.length := by omega
    rw [markAt_length] at hd
    rw [List.take_length] at hr
    rw [Nat.min_eq_left hlt.le]
    refine ⟨⟨line, purpose, h.dirty⟩ :: added, ?_, ?_⟩
    · rw [hr]
      simp [add]
    · rw [hd, markAt_length]
      simp [add, Bool.or_assoc]
  · rw [Nat.min_eq_right hle]
    refine ⟨added, ?_, by rw [hd, markAt_add h line purpose hle]⟩
    rw [hr]
    simp [add, List.take_append_of_le_length hle]

theorem of_undo (hn : n ≤ h.undo.2.records.length) (hg : h.undo.2.GrownFrom n k) :
    h.GrownFrom (min h.records.length n) k := by
  obtain ⟨added, hk, hd⟩ := hg
  rw [markAt_undo h hn] at hd
  rw [records_undo] at hn hk
  have hle : n ≤ h.records.length - 1 := by simpa using hn
  rw [Nat.min_eq_right (by omega)]
  refine ⟨added, ?_, hd⟩
  rw [hk, List.dropLast_eq_take, List.take_take, Nat.min_eq_left hle]

/-- A clean history has the lines that are left. -/
theorem scriptLines_eq (hg : h.GrownFrom n k) (hd : k.dirty = false) :
    k.scriptLines = ((h.records.take n).filter (·.purpose == .replay)).map (·.line) := by
  obtain ⟨added, hr, hk⟩ := hg
  have hadded : added.filter (·.purpose == .replay) = [] := by
    rw [hd, eq_comm, Bool.or_eq_false_iff] at hk
    simpa using hk.2
  rw [scriptLines, hr, List.filter_append, hadded, List.append_nil]

/-- These are the lines that there were exactly if no line to replay was taken back. -/
theorem scriptLines_eq_iff (hg : h.GrownFrom n k) (hd : k.dirty = false) :
    k.scriptLines = h.scriptLines ↔ ∀ r ∈ h.records.drop n, r.purpose = .audit := by
  have hall : h.scriptLines = k.scriptLines ++
      ((h.records.drop n).filter (·.purpose == .replay)).map (·.line) := by
    rw [hg.scriptLines_eq hd, scriptLines, ← List.map_append, ← List.filter_append,
      List.take_append_drop]
  rw [hall, List.self_eq_append_right, List.map_eq_nil_iff, List.filter_eq_nil_iff]
  refine forall₂_congr fun r _ => ?_
  cases r.purpose <;> decide

end GrownFrom

/-- Without a snapshot a history only grows from what is left of it. -/
theorem perform_grownFrom {ops : List Operation} (hs : ∀ op ∈ ops, op.settles = false)
    (h : History) : h.GrownFrom (h.fewest ops) (h.perform ops) := by
  induction ops generalizing h with
  | nil => exact .refl h
  | cons op rest ih =>
    have hrest := ih (fun op' hm => hs op' (by simp [hm])) (h.operate op)
    have hle := fewest_le (h.operate op) rest
    cases op with
    | add line purpose => exact .of_add hle hrest
    | undo => exact .of_undo hle hrest
    | clear => exact absurd (hs .clear (by simp)) (by decide)
    | markSaved => exact absurd (hs .markSaved (by simp)) (by decide)

/-! ## Earlier histories -/

/-- When a record was added the history was as it is after everything behind the record, and the
record itself, have been taken back. -/
theorem exists_add (ops : List Operation) {i : Nat} {r : Record}
    (hr : (empty.perform ops).records[i]? = some r) :
    ∃ before after, ops = before ++ .add r.line r.purpose :: after ∧
      empty.perform before = ⟨(empty.perform ops).records.take i, r.wasDirty, false⟩ := by
  induction ops using List.reverseRecOn with
  | nil => simp [empty] at hr
  | append_singleton ops op ih =>
    simp only [perform_append, perform_cons, perform_nil] at hr ⊢
    -- the history is the one after `ops`, but for its end
    have hkeep : ∀ {records : List Record}, (empty.perform ops).records[i]? = some r →
        records.take i = (empty.perform ops).records.take i →
        ∃ before after, ops ++ [op] = before ++ .add r.line r.purpose :: after ∧
          empty.perform before = ⟨records.take i, r.wasDirty, false⟩ := by
      intro records hi htake
      obtain ⟨before, after, hops, hbefore⟩ := ih hi
      exact ⟨before, after ++ [op], by rw [hops]; simp, by rw [hbefore, htake]⟩
    cases op with
    | add line purpose =>
      have hrec : ((empty.perform ops).operate (.add line purpose)).records =
          (empty.perform ops).records ++ [⟨line, purpose, (empty.perform ops).dirty⟩] := rfl
      rcases Nat.lt_or_ge i (empty.perform ops).records.length with hlt | hge
      · rw [hrec, List.getElem?_append_left hlt] at hr
        exact hkeep hr (by rw [hrec, List.take_append_of_le_length hlt.le])
      · -- the record is the one added last
        rw [hrec, List.getElem?_append_right hge] at hr
        obtain ⟨h0, rfl⟩ : i - (empty.perform ops).records.length = 0 ∧
            ⟨line, purpose, (empty.perform ops).dirty⟩ = r := by
          cases hj : i - (empty.perform ops).records.length with
          | zero => rw [hj] at hr; exact ⟨rfl, by simpa using hr⟩
          | succ j => rw [hj] at hr; simp at hr
        obtain rfl : i = (empty.perform ops).records.length := by omega
        refine ⟨ops, [], rfl, ?_⟩
        have hrep : (empty.perform ops).replaying = false := perform_replaying _ _
        rw [hrec, List.take_left, ← hrep]
    | undo =>
      obtain hnil | ⟨front, last, hfront⟩ := (empty.perform ops).records_cases
      · simp only [operate, undo_of_nil hnil] at hr ⊢
        exact hkeep hr rfl
      · simp only [operate, undo_of_concat hfront] at hr ⊢
        have hlt : i < front.length := (List.getElem?_eq_some_iff.1 hr).1
        refine hkeep ?_ ?_
        · rwa [hfront, List.getElem?_append_left hlt]
        · rw [hfront, List.take_append_of_le_length hlt.le]
    | clear => simp [operate, clear] at hr
    | markSaved => exact hkeep hr rfl

/-- The operations end with a snapshot; so does a history that is new. -/
def Settled (ops : List Operation) : Prop := ∀ op ∈ ops.getLast?, op.settles = true

theorem Settled.dirty {ops : List Operation} (hs : Settled ops) :
    (empty.perform ops).dirty = false := by
  obtain rfl | ⟨front, op, rfl⟩ := ops.eq_nil_or_concat'
  · rfl
  · rw [perform_append]
    exact operate_settled (hs op (by simp)) _

/-- The operations up to the last snapshot. -/
theorem settled_rdropWhile (ops : List Operation) : Settled (ops.rdropWhile (!·.settles)) := by
  intro op hm
  obtain ⟨hne, rfl⟩ := List.mem_getLast?_eq_getLast hm
  simpa using List.rdropWhile_last_not _ _ hne

/-- A clean history has the lines of a snapshot that was made on the way. -/
theorem exists_settled (ops : List Operation) (hd : (empty.perform ops).dirty = false) :
    ∃ before, before <+: ops ∧ Settled before ∧
      (empty.perform ops).scriptLines = (empty.perform before).scriptLines := by
  induction hn : ops.length using Nat.strong_induction_on generalizing ops with
  | _ n ih =>
  subst hn
  obtain rfl | ⟨front, op, rfl⟩ := ops.eq_nil_or_concat'
  · exact ⟨[], List.prefix_rfl, by simp [Settled], rfl⟩
  -- a history that was there before, with the same lines
  have hearlier : ∀ earlier, earlier <+: front → (empty.perform earlier).dirty = false →
      (empty.perform (front ++ [op])).scriptLines = (empty.perform earlier).scriptLines →
      ∃ before, before <+: front ++ [op] ∧ Settled before ∧
        (empty.perform (front ++ [op])).scriptLines = (empty.perform before).scriptLines := by
    intro earlier hp hclean hlines
    have hlt : earlier.length < (front ++ [op]).length := by
      have := hp.length_le
      simp only [List.length_append, List.length_singleton]
      omega
    obtain ⟨before, hb, hs, he⟩ := ih _ hlt earlier hclean rfl
    exact ⟨before, (hb.trans hp).trans (List.prefix_append _ _), hs, hlines.trans he⟩
  have hstep : empty.perform (front ++ [op]) = (empty.perform front).operate op := by simp
  cases op with
  | clear => exact ⟨_, List.prefix_rfl, by simp [Settled, Operation.settles], rfl⟩
  | markSaved => exact ⟨_, List.prefix_rfl, by simp [Settled, Operation.settles], rfl⟩
  | add line purpose =>
    rw [hstep] at hd
    obtain ⟨hclean, hp⟩ : (empty.perform front).dirty = false ∧ purpose ≠ .replay := by
      simpa [operate, add] using hd
    refine hearlier front List.prefix_rfl hclean ?_
    rw [hstep, operate, scriptLines_add, if_neg hp, List.append_nil]
  | undo =>
    obtain hnil | ⟨records, r, hr⟩ := (empty.perform front).records_cases
    · rw [hstep, operate, undo_of_nil hnil] at hd
      exact hearlier front List.prefix_rfl hd (by rw [hstep, operate, undo_of_nil hnil])
    · -- the record that is taken back was added to a history like the one that is left
      rw [hstep, operate, undo_of_concat hr] at hd
      have hget : (empty.perform front).records[records.length]? = some r := by simp [hr]
      obtain ⟨before, after, hfront, hbefore⟩ := exists_add front hget
      rw [hr, List.take_left] at hbefore
      refine hearlier before ⟨_, hfront.symm⟩ (by rw [hbefore]; exact hd) ?_
      rw [hstep, operate, undo_of_concat hr, hbefore]
      rfl

/-! ## The last snapshot -/

/-- Whatever was done to a new history, consider its last snapshot and what was done since. As long
as no record of the snapshot has been taken back, the history is dirty exactly if it has got a line
to replay since. A clean history has the lines of the snapshot exactly if no line to replay was
among the records taken back; in any case it has the lines of some snapshot. -/
theorem clean_iff_lastSnapshot (ops : List Operation) :
    let last := empty.perform (ops.rdropWhile (!·.settles))
    let since := ops.rtakeWhile (!·.settles)
    let h := empty.perform ops
    last.dirty = false ∧
      (last.takenBack since = [] →
        (h.dirty = true ↔ ∃ r ∈ h.records.drop last.records.length, r.purpose = .replay)) ∧
      (h.dirty = false →
        (h.scriptLines = last.scriptLines ↔ ∀ r ∈ last.takenBack since, r.purpose = .audit) ∧
        ∃ before, before <+: ops ∧ Settled before ∧
          h.scriptLines = (empty.perform before).scriptLines) := by
  intro last since h
  have hsplit : h = last.perform since := by
    rw [← perform_append, List.rdropWhile_append_rtakeWhile]
  have hsince : ∀ op ∈ since, op.settles = false := by
    intro op hm
    simpa using List.mem_rtakeWhile_imp hm
  have hgrown : last.GrownFrom (last.fewest since) h := hsplit ▸ perform_grownFrom hsince last
  have hclean : last.dirty = false := (settled_rdropWhile ops).dirty
  refine ⟨hclean, fun hnone => ?_, fun hd => ⟨hgrown.scriptLines_eq_iff hd, exists_settled ops hd⟩⟩
  have hall : last.fewest since = last.records.length :=
    le_antisymm (fewest_le last since) (List.drop_eq_nil_iff.1 hnone)
  obtain ⟨added, hr, hd⟩ := hall ▸ hgrown
  rw [hr, List.take_length, List.drop_left, hd, markAt_length, hclean]
  simp

/-- Taking back a line that has been saved. -/
theorem savedLine_takenBack_clean :
    let saved := empty.perform [.add "penup" .replay, .markSaved]
    let h := saved.perform [.undo]
    h.dirty = false ∧ saved.scriptLines = ["penup"] ∧ h.scriptLines = [] := by
  decide

end TurtleGraphics.History
