import Mathlib.Data.Finset.Lattice.Fold
import Mathlib.Data.Int.Order.Basic
import PhaseExecutors.Tracker

/-!
The tracker as a function of its history.

The balance of a history is by how much arrivals exceed departures. Where a departure is one too
many, the count stays at zero while the balance reaches a new low; so the count is how far the
balance has risen above its lowest point. What became of the tasks is kept all the same, also of
those that left once too often.
-/

namespace PhaseExecutors

namespace Tracker

/-- The outcome with which a task leaves, if one does. -/
def Op.outcome? : Op → Option Outcome
  | .finish o => some o
  | .enqueue | .reject => none

/-- What became of the tasks that left, in order. -/
def outcomes (ops : List Op) : List Outcome := ops.filterMap Op.outcome?

/-- Arrivals less departures. -/
def balance (ops : List Op) : ℤ := ops.count .enqueue - (outcomes ops).length

/-- The lowest balance on the way, the start among it. -/
def lowest (ops : List Op) : ℤ :=
  (Finset.range (ops.length + 1)).inf' Finset.nonempty_range_add_one fun k => balance (ops.take k)

/-- The result that a history comes to: its first fatal failure, or else what became of all. -/
def verdict (ops : List Op) : Except TaskFailure Summary :=
  match (outcomes ops).findSome? Outcome.fatal? with
  | some f => .error f
  | none => .ok {
      completed := (outcomes ops).count .completed
      recoverable := (outcomes ops).filterMap Outcome.recoverable?
      skipped := ops.count .reject + (outcomes ops).count .skipped }

variable {t : Tracker} {ops : List Op} {op : Op}

/-! ### The balance -/

lemma outcomes_snoc (ops : List Op) (op : Op) :
    outcomes (ops ++ [op]) = outcomes ops ++ op.outcome?.toList := by
  cases op <;> simp [outcomes, Op.outcome?]

lemma balance_enqueue (ops : List Op) : balance (ops ++ [.enqueue]) = balance ops + 1 := by
  simp [balance, outcomes_snoc, Op.outcome?]
  omega

lemma balance_reject (ops : List Op) : balance (ops ++ [.reject]) = balance ops := by
  simp [balance, outcomes_snoc, Op.outcome?]

lemma balance_finish (ops : List Op) (o : Outcome) :
    balance (ops ++ [.finish o]) = balance ops - 1 := by
  simp [balance, outcomes_snoc, Op.outcome?]
  omega

lemma lowest_le (ops : List Op) {k : ℕ} (hk : k ≤ ops.length) :
    lowest ops ≤ balance (ops.take k) :=
  Finset.inf'_le _ (Finset.mem_range_succ_iff.mpr hk)

lemma lowest_le_balance (ops : List Op) : lowest ops ≤ balance ops := by
  have h := lowest_le ops le_rfl
  rwa [List.take_length] at h

/-- One more operation adds its own balance to those on the way. -/
lemma lowest_snoc (ops : List Op) (op : Op) :
    lowest (ops ++ [op]) = min (lowest ops) (balance (ops ++ [op])) := by
  apply le_antisymm
  · refine le_min (Finset.le_inf' _ _ fun k hk => ?_) (lowest_le_balance _)
    have hk := Finset.mem_range_succ_iff.mp hk
    have h := lowest_le (ops ++ [op]) (k := k) (by simp; omega)
    rwa [List.take_append_of_le_length hk] at h
  · refine Finset.le_inf' _ _ fun k hk => ?_
    have hk := Finset.mem_range_succ_iff.mp hk
    rw [List.length_append, List.length_singleton] at hk
    rcases Nat.le_succ_iff.mp hk with hk | rfl
    · rw [List.take_append_of_le_length hk]
      exact (min_le_left _ _).trans (lowest_le ops hk)
    · rw [List.take_of_length_le (by simp)]
      exact min_le_right _ _

/-! ### The count -/

lemma run_snoc (t : Tracker) (ops : List Op) (op : Op) :
    run t (ops ++ [op]) = step (run t ops) op := by
  rw [run_append]
  rfl

/-- The tasks in flight are how far the balance has risen above its lowest point. -/
lemma inFlight_run (ops : List Op) :
    ((run init ops).inFlight : ℤ) = balance ops - lowest ops := by
  induction ops using List.reverseRecOn with
  | nil => rfl
  | append_singleton ops op ih =>
    have hle := lowest_le_balance ops
    rw [run_snoc, lowest_snoc]
    cases op with
    | enqueue =>
      rw [step, inFlight_enqueue, balance_enqueue]
      omega
    | reject =>
      rw [step, inFlight_reject, balance_reject]
      omega
    | finish o =>
      -- at the lowest point there is no task that could leave
      rw [step, inFlight_finish, balance_finish]
      omega

/-! ### The records -/

/-- What the tracker keeps of a history besides the count. -/
structure Keeps (t : Tracker) (ops : List Op) : Prop where
  completed : t.summary.completed = (outcomes ops).count .completed
  recoverable : t.summary.recoverable = (outcomes ops).filterMap Outcome.recoverable?
  skipped : t.summary.skipped = ops.count .reject + (outcomes ops).count .skipped
  fatal : t.fatal = (outcomes ops).findSome? Outcome.fatal?

lemma Keeps.snoc (h : Keeps t ops) (op : Op) : Keeps (t.step op) (ops ++ [op]) := by
  obtain ⟨hc, hr, hs, hf⟩ := h
  cases op with
  | enqueue => constructor <;> simpa [outcomes_snoc, Op.outcome?, step, enqueue]
  | reject =>
    constructor <;> simp [outcomes_snoc, Op.outcome?, step, reject, hc, hr, hs, hf]
    omega
  | finish o =>
    constructor <;> cases o <;> simp [outcomes_snoc, Op.outcome?, step, finish, record, reject,
      Outcome.recoverable?, Outcome.fatal?, hc, hr, hs, hf]
    omega

lemma keeps_run (ops : List Op) : Keeps (run init ops) ops := by
  induction ops using List.reverseRecOn with
  | nil => exact ⟨rfl, rfl, rfl, rfl⟩
  | append_singleton ops op ih =>
    rw [run_snoc]
    exact ih.snoc op

lemma Keeps.outcome_eq (h : Keeps t ops) : t.outcome = verdict ops := by
  have hsummary : t.summary = ⟨(outcomes ops).count .completed,
      (outcomes ops).filterMap Outcome.recoverable?,
      ops.count .reject + (outcomes ops).count .skipped⟩ := by
    rw [← h.completed, ← h.recoverable, ← h.skipped]
  unfold outcome verdict
  rw [← h.fatal]
  cases t.fatal with
  | none => exact congrArg Except.ok hsummary
  | some f => rfl

/-- All that the tracker counts. -/
def counted (t : Tracker) : ℕ :=
  t.inFlight + t.summary.completed + t.summary.recoverable.length + t.summary.skipped

lemma counted_step (t : Tracker) (op : Op) : counted (t.step op) ≤ counted t + 1 := by
  cases op with
  | enqueue => simp [counted, step, enqueue]; omega
  | reject => simp [counted, step, reject]; omega
  | finish o => cases o <;> simp [counted, step, finish, record, reject] <;> omega

lemma counted_run (ops : List Op) : counted (run init ops) ≤ ops.length := by
  induction ops using List.reverseRecOn with
  | nil => exact le_rfl
  | append_singleton ops op ih =>
    have hstep := counted_step (run init ops) op
    rw [run_snoc, List.length_append, List.length_singleton]
    omega

/-! ### The whole -/

/-- What a history makes of a tracker. -/
structure Computes (ops : List Op) (t : Tracker) : Prop where
  /-- The tasks in flight are how far the balance is above its lowest point. -/
  inFlight : (t.inFlight : ℤ) = balance ops - lowest ops
  /-- A wait blocks exactly if it is above it, -/
  blocks : t.result? = none ↔ 0 < balance ops - lowest ops
  /-- and returns what the history comes to if it is not. -/
  returns : ¬0 < balance ops - lowest ops → t.result? = some (verdict ops)
  /-- All counts together are no more than the operations, so none of them can overflow first. -/
  bounded : counted t ≤ ops.length

/-- **The tracker computes its whole history**, also one in which departures are too many. -/
theorem computes_run (ops : List Op) : Computes ops (run init ops) := by
  have hcount := inFlight_run ops
  have hblocks : (run init ops).result? = none ↔ 0 < balance ops - lowest ops := by
    rw [← hcount, result?, isQuiet]
    simp [Nat.pos_iff_ne_zero]
  refine ⟨hcount, hblocks, fun h => ?_, counted_run ops⟩
  have hquiet : (run init ops).inFlight = 0 := by omega
  exact result?_eq_some_iff.mpr ⟨hquiet, (keeps_run ops).outcome_eq⟩

/-- Of two tasks that leave when one has come, the second is one too many; the next to come is in
flight all the same. -/
example : (run init [.enqueue, .finish .completed, .finish .skipped, .enqueue]).inFlight = 1 := rfl

end Tracker

end PhaseExecutors
