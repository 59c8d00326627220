import Mathlib.Data.List.Induction
import PhaseExecutors.Tracker.Monitor

/-!
No notice is lost.

A waiter parks only while tasks are in flight, and the step that takes the last of them away
notifies all that are parked. So whenever nothing is in flight, nobody is parked without a notice,
however often tasks came again before. A wait ends only with a look at a tracker in which nothing
is in flight, and returns what that tracker holds.
-/

namespace PhaseExecutors

namespace Monitor

variable {t : Tracker} {m m' : Monitor} {e : Event} {es : List Event} {i : ℕ}
  {r : Except TaskFailure Summary}

/-! ### Looks -/

lemma look_of_quiet (h : t.inFlight = 0) : look t = .returned t.outcome := by
  have hresult := Tracker.result?_eq_some_iff.mpr ⟨h, rfl⟩
  rw [look, hresult]

lemma look_of_busy (h : t.inFlight ≠ 0) : look t = .parked := by
  have hresult : t.result? = none := by simp [Tracker.result?, Tracker.isQuiet, h]
  rw [look, hresult]

lemma of_look_eq_returned (h : look t = .returned r) : t.inFlight = 0 ∧ r = t.outcome := by
  by_cases hquiet : t.inFlight = 0
  · rw [look_of_quiet hquiet] at h
    cases h
    exact ⟨hquiet, rfl⟩
  · rw [look_of_busy hquiet] at h
    cases h

lemma eq_of_wake (hs : m.step? (.wake i) = some m') :
    m' = { m with waiters := m.waiters.set i (look m.tracker) } ∧
      ∃ w, m.waiters[i]? = some w ∧ ∀ r, w ≠ .returned r := by
  simp only [step?] at hs
  split at hs
  · next hi =>
    cases hs
    exact ⟨rfl, _, hi, nofun⟩
  · next hi =>
    cases hs
    exact ⟨rfl, _, hi, nofun⟩
  · cases hs

lemma notify_ne_parked (w : Waiter) : w.notify ≠ .parked := by
  cases w <;> simp [Waiter.notify]

lemma notify_eq_returned_iff {w : Waiter} : w.notify = .returned r ↔ w = .returned r := by
  cases w <;> simp [Waiter.notify]

/-! ### Notices -/

/-- Nobody is parked without a notice, unless tasks are in flight. -/
def Heard (m : Monitor) : Prop := m.tracker.inFlight = 0 → ∀ w ∈ m.waiters, w ≠ .parked

lemma Heard.step (h : m.Heard) (hs : m.step? e = some m') : m'.Heard := by
  intro hquiet
  cases e with
  | enqueue =>
    cases hs
    simp at hquiet
  | reject =>
    cases hs
    exact h hquiet
  | finish o =>
    cases hs
    have hnotifies : (m.tracker.finish o).isQuiet = true := by simpa [Tracker.isQuiet] using hquiet
    simp only [hnotifies, if_true, List.forall_mem_map]
    exact fun w _ => notify_ne_parked w
  | arrive =>
    cases hs
    rw [look_of_quiet hquiet]
    exact List.forall_mem_append.mpr ⟨h hquiet, by simp⟩
  | wake i =>
    obtain ⟨rfl, -⟩ := eq_of_wake hs
    intro w hw
    rw [look_of_quiet hquiet] at hw
    rcases List.mem_or_eq_of_mem_set hw with hw | rfl
    · exact h hquiet w hw
    · simp

/-! ### Returns -/

/-- A waiter returns in a step: it looks, nothing is in flight, and its result is what the tracker
holds in that step. -/
structure Returns (m : Monitor) (e : Event) (m' : Monitor) (i : ℕ)
    (r : Except TaskFailure Summary) : Prop where
  waits : ∀ r, m.waiters[i]? ≠ some (.returned r)
  looks : e = .arrive ∧ i = m.waiters.length ∨ e = .wake i
  quiet : m.tracker.inFlight = 0
  result : r = m.tracker.outcome
  tracker : m'.tracker = m.tracker

/-- A waiter that has returned after a step did so before, or in that step. -/
lemma returned_or_returns (hs : m.step? e = some m')
    (hr : m'.waiters[i]? = some (.returned r)) :
    m.waiters[i]? = some (.returned r) ∨ Returns m e m' i r := by
  cases e with
  | enqueue | reject =>
    cases hs
    exact Or.inl hr
  | finish o =>
    cases hs
    left
    dsimp only at hr
    split at hr
    · rw [List.getElem?_map, Option.map_eq_some_iff] at hr
      obtain ⟨w, hw, hnotify⟩ := hr
      rw [hw, notify_eq_returned_iff.mp hnotify]
    · exact hr
  | arrive =>
    cases hs
    dsimp only at hr
    by_cases hi : i < m.waiters.length
    · rw [List.getElem?_append_left hi] at hr
      exact Or.inl hr
    · obtain ⟨hlen, hlook⟩ : i = m.waiters.length ∧ look m.tracker = .returned r := by
        rw [List.getElem?_append_right (by omega), List.getElem?_singleton] at hr
        split at hr
        · exact ⟨by omega, Option.some.inj hr⟩
        · cases hr
      obtain ⟨hquiet, hresult⟩ := of_look_eq_returned hlook
      have hnone : m.waiters[i]? = none := List.getElem?_eq_none (by omega)
      exact Or.inr ⟨fun r => by simp [hnone], Or.inl ⟨rfl, hlen⟩, hquiet, hresult, rfl⟩
  | wake j =>
    obtain ⟨rfl, w, hw, hwaits⟩ := eq_of_wake hs
    by_cases hij : j = i
    · subst hij
      have hlt := (List.getElem?_eq_some_iff.mp hw).1
      rw [List.getElem?_set_self hlt] at hr
      obtain ⟨hquiet, hresult⟩ := of_look_eq_returned (Option.some.inj hr)
      refine Or.inr ⟨fun r hr => ?_, Or.inr rfl, hquiet, hresult, rfl⟩
      exact hwaits r (Option.some.inj (hw.symm.trans hr))
    · rw [List.getElem?_set_ne hij] at hr
      exact Or.inl hr

/-! ### Runs -/

lemma run?_append (m : Monitor) (es es' : List Event) :
    m.run? (es ++ es') = (m.run? es).bind fun m => m.run? es' := by
  induction es generalizing m with
  | nil => rfl
  | cons e es ih =>
    rw [List.cons_append, run?, run?, Option.bind_assoc]
    exact Option.bind_congr fun m _ => ih m

lemma run?_snoc_eq_some_iff {es : List Event} :
    m.run? (es ++ [e]) = some m' ↔ ∃ u, m.run? es = some u ∧ u.step? e = some m' := by
  simp [run?_append, Option.bind_eq_some_iff, run?]

/-- What holds at the start and is preserved by every step holds after every run. -/
lemma run_induction {P : List Event → Monitor → Prop} (start : P [] init)
    (step : ∀ {es u e m}, init.run? es = some u → P es u → u.step? e = some m → P (es ++ [e]) m)
    (hrun : init.run? es = some m) : P es m := by
  induction es using List.reverseRecOn generalizing m with
  | nil =>
    cases hrun
    exact start
  | append_singleton es e ih =>
    obtain ⟨u, hu, hs⟩ := run?_snoc_eq_some_iff.mp hrun
    exact step hu (ih hu) hs

/-- A waiter returned in a step of the run. -/
def ReturnedIn (es : List Event) (i : ℕ) (r : Except TaskFailure Summary) : Prop :=
  ∃ k u e u', es[k]? = some e ∧ init.run? (es.take k) = some u ∧ u.step? e = some u' ∧
    Returns u e u' i r

/-- What a run of operations and waits has come to. -/
structure Attended (es : List Event) (m : Monitor) : Prop where
  /-- If nothing is in flight, nobody is parked without a notice, -/
  heard : m.tracker.inFlight = 0 → ∀ i : ℕ, m.waiters[i]? ≠ some Waiter.parked
  /-- and whoever has one returns with the next look. -/
  wakes : m.tracker.inFlight = 0 → ∀ i : ℕ, m.waiters[i]? = some Waiter.notified →
    ∃ m', m.step? (.wake i) = some m' ∧ m'.waiters[i]? = some (.returned m.tracker.outcome)
  /-- In the next step a waiter returns only by a look while nothing is in flight, with what the
  tracker holds in that step, -/
  returns : ∀ e m', m.step? e = some m' → ∀ (i : ℕ) r, m'.waiters[i]? = some (.returned r) →
    m.waiters[i]? = some (.returned r) ∨ Returns m e m' i r
  /-- and so did all that have returned before. -/
  returned : ∀ (i : ℕ) r, m.waiters[i]? = some (.returned r) → ReturnedIn es i r

lemma heard_of_run (hrun : init.run? es = some m) : m.Heard :=
  run_induction (P := fun _ m => m.Heard) (fun _ => nofun) (fun _ h hs => h.step hs) hrun

lemma ReturnedIn.snoc (h : ReturnedIn es i r) (e : Event) : ReturnedIn (es ++ [e]) i r := by
  obtain ⟨k, u, e', u', hk, hu, hs, hreturns⟩ := h
  have hlt := (List.getElem?_eq_some_iff.mp hk).1
  refine ⟨k, u, e', u', ?_, ?_, hs, hreturns⟩
  · rwa [List.getElem?_append_left hlt]
  · rwa [List.take_append_of_le_length (Nat.le_of_lt hlt)]

lemma returnedIn_of_run (hrun : init.run? es = some m) :
    ∀ (i : ℕ) r, m.waiters[i]? = some (.returned r) → ReturnedIn es i r := by
  refine run_induction (P := fun es m => ∀ (i : ℕ) r, m.waiters[i]? = some (.returned r) →
    ReturnedIn es i r) nofun (fun {es u e m} hu ih hs i r hr => ?_) hrun
  rcases returned_or_returns hs hr with hbefore | hnow
  · exact (ih i r hbefore).snoc e
  · exact ⟨es.length, u, e, m, by simp, by simpa using hu, hs, hnow⟩

/-- **No wake-up is lost, and no wait ends too early.** -/
theorem attended_of_run (hrun : init.run? es = some m) : Attended es m where
  heard hquiet i hi := heard_of_run hrun hquiet _ (List.mem_of_getElem? hi) rfl
  wakes hquiet i hi := by
    have hlt := (List.getElem?_eq_some_iff.mp hi).1
    refine ⟨{ m with waiters := m.waiters.set i (look m.tracker) }, ?_, ?_⟩
    · simp only [step?, hi]
    · rw [List.getElem?_set_self hlt, look_of_quiet hquiet]
  returns _ _ hs _ _ := returned_or_returns hs
  returned := returnedIn_of_run hrun

/-- A waiter is notified, finds a new task in flight and parks again; a second one wakes without a
notice before the last task leaves, and has yet to look when the first one returns. -/
theorem attended_of_two_waiters : ∃ es m f,
    init.run? es = some m ∧ m.tracker.inFlight = 0 ∧
      m.waiters = [.returned (.error f), .notified] ∧ Attended es m := by
  let f : TaskFailure := ⟨"graph-evaluator", .interrupted⟩
  let es : List Event := [.enqueue, .arrive, .finish .completed, .enqueue, .wake 0, .arrive,
    .reject, .wake 1, .finish (.fatal f), .wake 0]
  exact ⟨es, _, f, rfl, rfl, rfl, attended_of_run rfl⟩

end Monitor

end PhaseExecutors
