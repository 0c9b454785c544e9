import Mathlib.Data.List.Basic
import TurtleGraphics.Script.Replay

/-!
# Every line of a replay is accounted for

A replay shows its progress to the target before each line, and then makes one call for the line: a
notice if the line loads, and otherwise the line is carried out (`Deals`). `ReplayTarget.logged`
writes the calls down. A replay deals with the first lines of its script up to the first state,
between two lines, in which a stop is requested, and its tally counts what these lines came to
(`replay_accounts`). This follows from what one line does (`feed_deals`) by induction on the lines
left (`feedAll_accounts`).
-/

set_option autoImplicit false

namespace TurtleGraphics.ReplayTarget

variable {σ : Type}

/-! ## Calls -/

/-- One call of a replay on its target. -/
inductive Call where
  | progress (i n : Nat)
  | notify (text : String)
  | carryOut (line : String) (accepted : Bool)
  deriving DecidableEq

namespace Call

def isApplied : Call → Bool
  | carryOut _ accepted => accepted
  | _ => false

def isFailed : Call → Bool
  | carryOut _ accepted => !accepted
  | _ => false

def isSkipped : Call → Bool
  | notify _ => true
  | _ => false

end Call

/-- The call that deals with a line. -/
inductive Deals : String → Call → Prop
  | notify {line : String} (h : Line.isLoad line = true) : Deals line (.notify (skipNotice line))
  | carryOut {line : String} {accepted : Bool} (h : Line.isLoad line = false) :
      Deals line (.carryOut line accepted)

/-- Each line is accepted, or not, or skipped. -/
theorem countP_of_deals {lines : List String} {dealt : List Call}
    (h : List.Forall₂ Deals lines dealt) :
    dealt.countP Call.isApplied + dealt.countP Call.isFailed + dealt.countP Call.isSkipped =
      dealt.length := by
  induction h with
  | nil => rfl
  | cons hd _ ih =>
    rw [List.length_cons, ← ih]
    cases hd with
    | notify _ =>
      simp only [List.countP_cons, Call.isApplied, Call.isFailed, Call.isSkipped]
      simp [Nat.add_assoc]
    | @carryOut accepted _ =>
      simp only [List.countP_cons, Call.isApplied, Call.isFailed, Call.isSkipped]
      cases accepted <;> simp <;> omega

/-- The calls of a replay of `n` lines from number `i` on, given those that deal with the lines. -/
def calls (n i : Nat) (dealt : List Call) : List Call :=
  (dealt.zipIdx i).flatMap fun (c, j) => [.progress j n, c]

theorem calls_cons (n i : Nat) (c : Call) (dealt : List Call) :
    calls n i (c :: dealt) = .progress i n :: c :: calls n (i + 1) dealt := by
  simp [calls]

variable (target : ReplayTarget σ)

/-- What a call makes of the target's state. -/
def make : Call → σ → σ
  | .progress i n, s => target.showProgress i n s
  | .notify text, s => target.notify text s
  | .carryOut line _, s => (target.carryOut line s).2

def makeAll (made : List Call) (s : σ) : σ := made.foldl (fun s c => target.make c s) s

/-- The target with a log of all calls, oldest first. -/
def logged : ReplayTarget (σ × List Call) where
  carryOut line u :=
    let (accepted, s) := target.carryOut line u.1
    (accepted, s, u.2 ++ [.carryOut line accepted])
  notify text u := (target.notify text u.1, u.2 ++ [.notify text])
  showProgress i n u := (target.showProgress i n u.1, u.2 ++ [.progress i n])
  stopRequested u := target.stopRequested u.1

/-! ## One line -/

/-- A line is dealt with by one call, which is counted. -/
theorem feed_deals (line : String) (sum : Tally) (s : σ) :
    ∃ c, Deals line c ∧ (target.feed line sum s).2 = target.make c s ∧
      (target.feed line sum s).1 = { sum with
        applied := sum.applied + [c].countP Call.isApplied
        failed := sum.failed + [c].countP Call.isFailed
        skipped := sum.skipped + [c].countP Call.isSkipped } ∧
      ∀ log, target.logged.feed line sum (s, log) =
        ((target.feed line sum s).1, (target.feed line sum s).2, log ++ [c]) := by
  unfold feed
  cases hl : Line.isLoad line with
  | true => exact ⟨.notify (skipNotice line), .notify hl, rfl, rfl, fun log => rfl⟩
  | false =>
    simp only [Bool.false_eq_true, if_false]
    cases hc : target.carryOut line s with
    | mk accepted s' =>
      have hmake : s' = target.make (.carryOut line accepted) s := (congrArg Prod.snd hc).symm
      have hlog : ∀ log, target.logged.carryOut line (s, log) =
          (accepted, s', log ++ [.carryOut line accepted]) := fun log => by simp [logged, hc]
      refine ⟨.carryOut line accepted, .carryOut hl, ?_⟩
      simp only [hlog]
      cases accepted with
      | true => exact ⟨hmake, rfl, fun _ => rfl⟩
      | false => exact ⟨hmake, rfl, fun _ => rfl⟩

/-! ## All lines -/

theorem feedAll_cons (line : String) (rest : List String) (i : Nat) (sum : Tally) (s : σ) :
    target.feedAll (line :: rest) i sum s =
      if target.stopRequested s then ({ sum with cancelled := true }, s)
      else
        let fed := target.feed line sum (target.showProgress i sum.total s)
        target.feedAll rest (i + 1) fed.1 fed.2 := rfl

/-- The calls of `dealt` have dealt with the first of the lines from number `i` on, and no other
calls were made but for the progress; all states in front of these lines let the replay go on, and
if lines are left, the one behind them does not. -/
structure Accounts (lines : List String) (i : Nat) (sum : Tally) (s : σ) (dealt : List Call)
    (r : Tally × σ) : Prop where
  le : dealt.length ≤ lines.length
  deals : List.Forall₂ Deals (lines.take dealt.length) dealt
  logged : ∀ log, target.logged.feedAll lines i sum (s, log) =
    (r.1, r.2, log ++ calls sum.total i dealt)
  state : r.2 = target.makeAll (calls sum.total i dealt) s
  going : ∀ j < dealt.length,
    target.stopRequested (target.makeAll (calls sum.total i (dealt.take j)) s) = false
  stopped : dealt.length < lines.length → target.stopRequested r.2 = true
  tally : r.1 = { sum with
    applied := sum.applied + dealt.countP Call.isApplied
    failed := sum.failed + dealt.countP Call.isFailed
    skipped := sum.skipped + dealt.countP Call.isSkipped
    cancelled := decide (dealt.length < lines.length) }

theorem feedAll_accounts (lines : List String) (i : Nat) (sum : Tally) (s : σ)
    (hc : sum.cancelled = false) :
    ∃ dealt, target.Accounts lines i sum s dealt (target.feedAll lines i sum s) := by
  induction lines generalizing i sum s with
  | nil =>
    refine ⟨[], Nat.le_refl 0, .nil, fun log => ?_, rfl, by simp, by simp, ?_⟩
    · simp [feedAll, calls]
    · simp [feedAll, ← hc]
  | cons line rest ih =>
    rw [feedAll_cons]
    cases hs : target.stopRequested s with
    | true =>
      refine ⟨[], Nat.zero_le _, .nil, fun log => ?_, rfl, by simp, fun _ => hs, by simp⟩
      have hs' : target.logged.stopRequested (s, log) = true := hs
      simp [feedAll_cons, hs', calls]
    | false =>
      obtain ⟨c, hdeals, hstate, htally, hlog⟩ :=
        target.feed_deals line sum (target.showProgress i sum.total s)
      simp only [Bool.false_eq_true, if_false]
      generalize target.feed line sum (target.showProgress i sum.total s) = fed at *
      obtain ⟨sum', s'⟩ := fed
      dsimp only at hstate htally hlog ⊢
      have htotal : sum'.total = sum.total := by rw [htally]
      obtain ⟨dealt, h⟩ := ih (i + 1) sum' s' (by rw [htally]; exact hc)
      -- the calls for this line lead to the state in which the induction starts
      have hcalls : ∀ dealt' : List Call, target.makeAll (calls sum.total i (c :: dealt')) s =
          target.makeAll (calls sum'.total (i + 1) dealt') s' := fun dealt' => by
        rw [calls_cons, hstate, htotal]
        rfl
      have hcount : ∀ p : Call → Bool, (c :: dealt).countP p = [c].countP p + dealt.countP p :=
        fun p => by rw [← List.singleton_append, List.countP_append]
      refine ⟨c :: dealt, by simpa using h.le, by simpa using ⟨hdeals, h.deals⟩, fun log => ?_,
        h.state.trans (hcalls dealt).symm, fun j hj => ?_,
        fun hlt => h.stopped (by simpa using hlt), ?_⟩
      · have hs' : target.logged.stopRequested (s, log) = false := hs
        have hshow : target.logged.showProgress i sum.total (s, log) =
            (target.showProgress i sum.total s, log ++ [.progress i sum.total]) := rfl
        simp only [feedAll_cons, hs', Bool.false_eq_true, if_false, hshow, hlog, h.logged, htotal,
          calls_cons, List.append_assoc, List.cons_append, List.nil_append]
      · cases j with
        | zero => exact hs
        | succ j =>
          rw [List.take_succ_cons, hcalls]
          exact h.going j (by simpa using hj)
      · rw [h.tally, htally]
        simp only [hcount, Nat.add_assoc, List.length_cons, Nat.add_lt_add_iff_right]

/-- A replay deals with the first `k` lines, where `k` is the number of lines behind which a stop
was first found requested with a line left, or that of all lines. For each of these, in order, it
shows the progress and then makes the one call that deals with the line, and it makes no other call.
The tally counts the lines that were accepted, the lines that were not and the notices. The replay
is cancelled exactly if lines are left, so a stop requested during the last line comes too late. -/
theorem replay_accounts (script : Script) (s : σ) :
    let n := script.lines.length
    let r := target.replay script s
    ∃ dealt : List Call,
      let k := dealt.length
      let behind := fun j => target.makeAll (calls n 1 (dealt.take j)) s
      k ≤ n ∧ List.Forall₂ Deals (script.lines.take k) dealt ∧
        target.logged.replay script (s, []) = (r.1, r.2, calls n 1 dealt) ∧
        r.2 = behind k ∧ (∀ j < k, target.stopRequested (behind j) = false) ∧
        (k < n → target.stopRequested (behind k) = true) ∧
        r.1.total = n ∧ r.1.applied = dealt.countP Call.isApplied ∧
        r.1.failed = dealt.countP Call.isFailed ∧ r.1.skipped = dealt.countP Call.isSkipped ∧
        r.1.applied + r.1.failed + r.1.skipped = k ∧ (r.1.cancelled = true ↔ k < n) ∧
        ((∀ j < n, target.stopRequested (behind j) = false) → r.1.cancelled = false) := by
  intro n r
  obtain ⟨dealt, h⟩ := target.feedAll_accounts script.lines 1 (.start n) s rfl
  refine ⟨dealt, ?_⟩
  intro k behind
  have htally : r.1 = ⟨n, dealt.countP Call.isApplied, dealt.countP Call.isFailed,
      dealt.countP Call.isSkipped, decide (k < n)⟩ := by
    refine h.tally.trans ?_
    simp only [Tally.start, Nat.zero_add]
    rfl
  have hstate : r.2 = behind k := by
    simp only [behind, k, List.take_length]
    exact h.state
  have hstopped : k < n → target.stopRequested (behind k) = true := by
    rw [← hstate]
    exact h.stopped
  have hgoing : (∀ j < n, target.stopRequested (behind j) = false) → ¬ k < n := fun hall hlt => by
    simp [hall k hlt] at hstopped
    exact absurd hlt (Nat.not_lt.2 hstopped)
  refine ⟨h.le, h.deals, h.logged [], hstate, h.going, hstopped, ?_⟩
  rw [htally]
  exact ⟨rfl, rfl, rfl, rfl, countP_of_deals h.deals, by simp, fun hall => by
    simpa using hgoing hall⟩

/-- The only line requests a stop, but no line is left. -/
example : replay ⟨fun _ _ => (true, true), fun _ s => s, fun _ _ s => s, id⟩ ⟨["penup"]⟩ false =
    (⟨1, 1, 0, 0, false⟩, true) := by
  decide

end TurtleGraphics.ReplayTarget
