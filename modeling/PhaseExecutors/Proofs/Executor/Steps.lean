import Mathlib.Data.List.Basic
import PhaseExecutors.Executor.Step

/-!
What one step of an executor can do, case by case.

A step names a ticket, a queued task or a job by its place. Here the list is cut at that place
instead, so what a step keeps is read off the two parts around it.
-/

namespace PhaseExecutors

/-- How a task ends on a plan, once its body runs: its error is charged to the pool of its kind. -/
def Work.outcome (plan : Plan) (classifier : Classifier) (w : Work) : Outcome :=
  match w.ending.error? with
  | none => .completed
  | some e =>
    match classifier e with
    | .recoverable => .recoverable ⟨(plan.route w.kind).name, e⟩
    | .fatal => .fatal ⟨(plan.route w.kind).name, e⟩

/-- The site of a body on the pool of its kind. -/
def Work.site (plan : Plan) (w : Work) : String × String := (w.label, (plan.route w.kind).name)

/-- Where a job stands when its body has ended. Only a fatal failure has the executor stopped. -/
def Stage.ofOutcome : Outcome → Stage
  | .fatal f => .failing f
  | o => .finishing o

namespace Executor

inductive Step (s : Executor) : Event → Executor → Prop
  | ask (w : Work) : Step s (.ask w) { s with tickets := s.tickets ++ [⟨w, !s.cancelled⟩] }
  | recordIn {pre post : List Ticket} {w : Work} (h : s.tickets = pre ++ ⟨w, true⟩ :: post) :
      Step s (.record pre.length)
        { s with
          tickets := pre ++ post, tracker := s.tracker.enqueue
          queue := s.queue ++ [s.plan.spawn w] }
  | recordOut {pre post : List Ticket} {w : Work} (h : s.tickets = pre ++ ⟨w, false⟩ :: post) :
      Step s (.record pre.length)
        { s with
          tickets := pre ++ post, tracker := s.tracker.reject, log := (s.submit w false).log }
  | dequeue {pre post : List Routed} {r : Routed} (h : s.queue = pre ++ r :: post)
      (hw : s.hasWorker r.lane) :
      Step s (.dequeue pre.length)
        { s with
          queue := pre ++ post
          jobs := s.jobs ++ [⟨r, false, if r.lane.limited then .waiting else .ready⟩] }
  | acquire {pre post : List Job} {r : Routed} {p : Bool}
      (h : s.jobs = pre ++ ⟨r, p, .waiting⟩ :: post) (hp : 0 < s.freePermits) :
      Step s (.acquire pre.length)
        { s with freePermits := s.freePermits - 1, jobs := pre ++ ⟨r, true, .called⟩ :: post }
  | giveUp {pre post : List Job} {r : Routed} {p : Bool}
      (h : s.jobs = pre ++ ⟨r, p, .waiting⟩ :: post) (hc : s.cancelled) :
      Step s (.giveUp pre.length) { s with jobs := pre ++ ⟨r, p, .called⟩ :: post }
  | giveBack {pre post : List Job} {r : Routed} (h : s.jobs = pre ++ ⟨r, true, .called⟩ :: post)
      (hc : s.cancelled) :
      Step s (.giveUp pre.length)
        { s with freePermits := s.freePermits + 1, jobs := pre ++ ⟨r, false, .called⟩ :: post }
  | resume {pre post : List Job} {r : Routed} {p : Bool}
      (h : s.jobs = pre ++ ⟨r, p, .called⟩ :: post) (hw : s.hasWorker r.lane) :
      Step s (.resume pre.length) { s with jobs := pre ++ ⟨r, p, .ready⟩ :: post }
  | skip {pre post : List Job} {r : Routed} {p : Bool}
      (h : s.jobs = pre ++ ⟨r, p, .ready⟩ :: post) (hc : s.cancelled) :
      Step s (.begin pre.length) { s with jobs := pre ++ ⟨r, p, .finishing .skipped⟩ :: post }
  | halt {pre post : List Job} {r : Routed} {p : Bool} {gate : Nat}
      (h : s.jobs = pre ++ ⟨r, p, .ready⟩ :: post) (hc : s.cancelled = false)
      (hg : r.work.gate = some gate) :
      Step s (.begin pre.length)
        { s with reached := gate :: s.reached, jobs := pre ++ ⟨r, p, .gated⟩ :: post }
  | start {pre post : List Job} {r : Routed} {p : Bool}
      (h : s.jobs = pre ++ ⟨r, p, .ready⟩ :: post) (hc : s.cancelled = false)
      (hg : r.work.gate = none) :
      Step s (.begin pre.length)
        { s with
          ran := s.ran ++ [r.site s.plan]
          jobs := pre ++ ⟨r, p, .running r.work.children none⟩ :: post }
  | pass {pre post : List Job} {r : Routed} {p : Bool} {gate : Nat}
      (h : s.jobs = pre ++ ⟨r, p, .gated⟩ :: post) (hg : r.work.gate = some gate)
      (ho : gate ∈ s.opened) :
      Step s (.pass pre.length)
        { s with
          ran := s.ran ++ [r.site s.plan]
          jobs := pre ++ ⟨r, p, .running r.work.children none⟩ :: post }
  | askChild {pre post : List Job} {r : Routed} {c : Work} {p : Bool} {todo : List Work}
      (h : s.jobs = pre ++ ⟨r, p, .running (c :: todo) none⟩ :: post) :
      Step s (.askChild pre.length)
        { s with jobs := pre ++ ⟨r, p, .running (c :: todo) (some !s.cancelled)⟩ :: post }
  | childIn {pre post : List Job} {r : Routed} {c : Work} {p : Bool} {todo : List Work}
      (h : s.jobs = pre ++ ⟨r, p, .running (c :: todo) (some true)⟩ :: post) :
      Step s (.recordChild pre.length)
        { s with
          tracker := s.tracker.enqueue
          queue := s.queue ++ [s.plan.spawn c]
          jobs := pre ++ ⟨r, p, .running todo none⟩ :: post }
  | childOut {pre post : List Job} {r : Routed} {c : Work} {p : Bool} {todo : List Work}
      (h : s.jobs = pre ++ ⟨r, p, .running (c :: todo) (some false)⟩ :: post) :
      Step s (.recordChild pre.length)
        { s with
          tracker := s.tracker.reject
          jobs := pre ++ ⟨r, p, .running todo none⟩ :: post
          log := (s.submit c false).log }
  | conclude {pre post : List Job} {r : Routed} {p : Bool}
      (h : s.jobs = pre ++ ⟨r, p, .running [] none⟩ :: post) :
      Step s (.conclude pre.length)
        { s with
          jobs := pre ++ ⟨r, p, .ofOutcome (r.work.outcome s.plan s.classifier)⟩ :: post
          log := (s.conclude pre.length ⟨r, p, .running [] none⟩).log }
  | cancel {pre post : List Job} {r : Routed} {p : Bool} {f : TaskFailure}
      (h : s.jobs = pre ++ ⟨r, p, .failing f⟩ :: post) :
      Step s (.cancel pre.length)
        { s with cancelled := true, jobs := pre ++ ⟨r, p, .finishing (.fatal f)⟩ :: post }
  | finish {pre post : List Job} {r : Routed} {p : Bool} {o : Outcome}
      (h : s.jobs = pre ++ ⟨r, p, .finishing o⟩ :: post) :
      Step s (.finish pre.length)
        { s with tracker := s.tracker.finish o, jobs := pre ++ ⟨r, p, .leaving⟩ :: post }
  | leave {pre post : List Job} {r : Routed} {p : Bool}
      (h : s.jobs = pre ++ ⟨r, p, .leaving⟩ :: post) :
      Step s (.leave pre.length)
        { s with jobs := pre ++ post, freePermits := s.freePermits + (if p then 1 else 0) }
  | open (gate : Nat) : Step s (.open gate) { s with opened := gate :: s.opened }

/-- Erasing the element at a cut. -/
lemma eraseIdx_cut {α : Type*} (pre post : List α) (x : α) :
    (pre ++ x :: post).eraseIdx pre.length = pre ++ post := by
  rw [List.eraseIdx_append_of_length_le (Nat.le_refl _)]
  simp

lemma exists_cut {α : Type*} {xs : List α} {i : ℕ} {x : α} (h : xs[i]? = some x) :
    ∃ pre post, xs = pre ++ x :: post ∧ pre.length = i := by
  obtain ⟨hi, hx⟩ := List.getElem?_eq_some_iff.mp h
  refine ⟨xs.take i, xs.drop (i + 1), ?_, List.length_take_of_le (Nat.le_of_lt hi)⟩
  rw [← hx, List.getElem_cons_drop, List.take_append_drop]

/-- What holds of a list still holds when one of its elements makes place for another one. -/
lemma forall_mem_cut {α : Type*} {P : α → Prop} {xs pre post : List α} {x y : α}
    (h : ∀ z ∈ xs, P z) (hxs : xs = pre ++ x :: post) (hy : P y) : ∀ z ∈ pre ++ y :: post, P z := by
  intro z hz
  rw [List.mem_append, List.mem_cons] at hz
  rcases hz with hz | rfl | hz
  · exact h z (by simp [hxs, hz])
  · exact hy
  · exact h z (by simp [hxs, hz])

lemma forall_mem_at {α : Type*} {P : α → Prop} {xs pre post : List α} {x : α}
    (h : ∀ z ∈ xs, P z) (hxs : xs = pre ++ x :: post) : P x :=
  h x (by simp [hxs])

lemma forall_mem_rest {α : Type*} {P : α → Prop} {xs pre post : List α} {x : α}
    (h : ∀ z ∈ xs, P z) (hxs : xs = pre ++ x :: post) : ∀ z ∈ pre ++ post, P z := by
  intro z hz
  exact h z (by rw [hxs]; simp at hz ⊢; tauto)

lemma forall_mem_snoc {α : Type*} {P : α → Prop} {xs : List α} {x : α} (h : ∀ z ∈ xs, P z)
    (hx : P x) : ∀ z ∈ xs ++ [x], P z := by
  simpa [or_imp, forall_and] using ⟨h, hx⟩

/-- An element of some kind is still there when another one leaves. -/
lemma exists_mem_rest {α : Type*} {P : α → Prop} {xs pre post : List α} {x : α}
    (h : ∃ z ∈ xs, P z) (hxs : xs = pre ++ x :: post) (hx : ¬P x) : ∃ z ∈ pre ++ post, P z := by
  obtain ⟨z, hz, hP⟩ := h
  rw [hxs, List.mem_append, List.mem_cons] at hz
  rcases hz with hz | rfl | hz
  · exact ⟨z, List.mem_append_left _ hz, hP⟩
  · exact absurd hP hx
  · exact ⟨z, List.mem_append_right _ hz, hP⟩

lemma exists_mem_cut {α : Type*} {P : α → Prop} {xs pre post : List α} {x y : α}
    (h : ∃ z ∈ xs, P z) (hxs : xs = pre ++ x :: post) (hx : ¬P x) :
    ∃ z ∈ pre ++ y :: post, P z := by
  obtain ⟨z, hz, hP⟩ := exists_mem_rest h hxs hx
  rw [List.mem_append] at hz
  exact ⟨z, by simp; tauto, hP⟩

/-- The three ways in which a body ends differ in the stage that comes next and in the log. -/
lemma conclude_eq {s : Executor} {pre post : List Job} {j : Job} (h : s.jobs = pre ++ j :: post) :
    s.conclude pre.length j =
      { s with
        jobs := pre ++ { j with stage := .ofOutcome (j.work.outcome s.plan s.classifier) } :: post
        log := (s.conclude pre.length j).log } := by
  cases he : j.work.ending.error? with
  | none => simp [conclude, Work.outcome, Stage.ofOutcome, setJob, he, h]
  | some e =>
    cases hk : s.classifier e <;>
      simp [conclude, Work.outcome, Stage.ofOutcome, setJob, note, he, hk, h]

/-- **A step does what one of the cases says.** -/
theorem Step.of_step? {s t : Executor} {e : Event} (h : s.step? e = some t) : Step s e t := by
  cases e with
  | ask w => cases h; exact .ask w
  | «open» gate => cases h; exact .open gate
  | record i =>
    rcases hi : s.tickets[i]? with _ | ⟨w, admitted⟩ <;> simp only [step?, hi] at h
    · cases h
    · obtain ⟨pre, post, hs, rfl⟩ := exists_cut hi
      cases h
      cases admitted
      · simpa [hs, submit, note, eraseIdx_cut] using Step.recordOut hs
      · simpa [hs, submit, eraseIdx_cut] using Step.recordIn hs
  | dequeue i =>
    rcases hi : s.queue[i]? with _ | r <;> simp [step?, hi] at h
    obtain ⟨pre, post, hs, rfl⟩ := exists_cut hi
    obtain ⟨hw, rfl⟩ := h
    simpa [hs, eraseIdx_cut] using Step.dequeue hs hw
  | acquire i =>
    rcases hi : s.jobs[i]? with _ | ⟨r, p, stage⟩ <;> simp [step?, hi] at h
    obtain ⟨pre, post, hs, rfl⟩ := exists_cut hi
    cases stage <;> simp at h
    obtain ⟨hp, rfl⟩ := h
    simpa [hs, setJob] using Step.acquire hs hp
  | giveUp i =>
    rcases hi : s.jobs[i]? with _ | ⟨r, p, stage⟩ <;> simp [step?, hi] at h
    obtain ⟨pre, post, hs, rfl⟩ := exists_cut hi
    obtain ⟨hc, h⟩ := h
    cases stage <;> simp at h
    · subst h
      simpa [hs, setJob] using Step.giveUp hs hc
    · obtain ⟨rfl, rfl⟩ := h
      simpa [hs, setJob] using Step.giveBack hs hc
  | resume i =>
    rcases hi : s.jobs[i]? with _ | ⟨r, p, stage⟩ <;> simp [step?, hi] at h
    obtain ⟨pre, post, hs, rfl⟩ := exists_cut hi
    cases stage <;> simp at h
    obtain ⟨hw, rfl⟩ := h
    simpa [hs, setJob] using Step.resume hs hw
  | «begin» i =>
    rcases hi : s.jobs[i]? with _ | ⟨r, p, stage⟩ <;> simp only [step?, hi] at h
    · cases h
    obtain ⟨pre, post, hs, rfl⟩ := exists_cut hi
    cases stage <;> simp only [reduceCtorEq] at h
    cases hc : s.cancelled <;> simp [hc] at h
    · cases hg : r.work.gate <;> simp [hg] at h <;> subst h
      · simpa [hs, hc, enterBody, setJob, Routed.site] using Step.start hs hc hg
      · simpa [hs, hc, setJob] using Step.halt hs hc hg
    · subst h
      simpa [hs, hc, setJob] using Step.skip hs hc
  | pass i =>
    rcases hi : s.jobs[i]? with _ | ⟨r, p, stage⟩ <;> simp only [step?, hi] at h
    · cases h
    obtain ⟨pre, post, hs, rfl⟩ := exists_cut hi
    cases stage <;> cases hg : r.work.gate <;> simp [hg] at h
    obtain ⟨ho, rfl⟩ := h
    simpa [hs, enterBody, setJob, Routed.site] using Step.pass hs hg ho
  | askChild i =>
    rcases hi : s.jobs[i]? with _ | ⟨r, p, stage⟩ <;> simp only [step?, hi] at h
    · cases h
    obtain ⟨pre, post, hs, rfl⟩ := exists_cut hi
    split at h <;> simp at h
    subst h
    simpa [hs, setJob] using Step.askChild hs
  | recordChild i =>
    rcases hi : s.jobs[i]? with _ | ⟨r, p, stage⟩ <;> simp only [step?, hi] at h
    · cases h
    obtain ⟨pre, post, hs, rfl⟩ := exists_cut hi
    split at h <;> simp at h
    rename_i admitted
    subst h
    cases admitted
    · simpa [hs, submit, note, setJob] using Step.childOut hs
    · simpa [hs, submit, setJob] using Step.childIn hs
  | conclude i =>
    rcases hi : s.jobs[i]? with _ | ⟨r, p, stage⟩ <;> simp only [step?, hi] at h
    · cases h
    obtain ⟨pre, post, hs, rfl⟩ := exists_cut hi
    split at h <;> simp at h
    subst h
    rw [conclude_eq hs]
    exact Step.conclude hs
  | cancel i =>
    rcases hi : s.jobs[i]? with _ | ⟨r, p, stage⟩ <;> simp [step?, hi] at h
    obtain ⟨pre, post, hs, rfl⟩ := exists_cut hi
    cases stage <;> simp at h
    subst h
    simpa [hs, setJob] using Step.cancel hs
  | finish i =>
    rcases hi : s.jobs[i]? with _ | ⟨r, p, stage⟩ <;> simp [step?, hi] at h
    obtain ⟨pre, post, hs, rfl⟩ := exists_cut hi
    cases stage <;> simp at h
    subst h
    simpa [hs, setJob] using Step.finish hs
  | leave i =>
    rcases hi : s.jobs[i]? with _ | ⟨r, p, stage⟩ <;> simp [step?, hi] at h
    obtain ⟨pre, post, hs, rfl⟩ := exists_cut hi
    cases stage <;> simp at h
    subst h
    simpa [hs, eraseIdx_cut] using Step.leave hs

/-- **Each of the cases is a step.** -/
theorem Step.step?_eq {s t : Executor} {e : Event} (h : Step s e t) : s.step? e = some t := by
  cases h with
  | ask | «open» => rfl
  | recordIn hs | recordOut hs => simp [step?, hs, submit, note, eraseIdx_cut]
  | dequeue hs hw => simp [step?, hs, hw, eraseIdx_cut]
  | acquire hs hp => simp [step?, hs, hp, setJob]
  | giveUp hs hc | giveBack hs hc => simp [step?, hs, hc, setJob]
  | resume hs hw => simp [step?, hs, hw, setJob]
  | skip hs hc => simp [step?, hs, hc, setJob]
  | halt hs hc hg | start hs hc hg => simp [step?, hs, hc, hg, enterBody, setJob, Routed.site]
  | pass hs hg ho => simp [step?, hs, hg, ho, enterBody, setJob, Routed.site]
  | askChild hs => simp [step?, hs, setJob]
  | childIn hs | childOut hs => simp [step?, hs, submit, note, setJob]
  | conclude hs =>
    simp only [step?, hs, List.getElem?_append_right, Nat.le_refl, Nat.sub_self,
      List.getElem?_cons_zero]
    rw [conclude_eq hs]
    rfl
  | cancel hs | finish hs => simp [step?, hs, setJob]
  | leave hs => simp [step?, hs, eraseIdx_cut]

/-- An executor that is stopped stays so. -/
lemma Step.cancelled_mono {s t : Executor} {e : Event} (h : Step s e t) (hc : s.cancelled = true) :
    t.cancelled = true := by
  cases h with
  | cancel => rfl
  | _ => exact hc

lemma Step.not_cancelled {s t : Executor} {e : Event} (h : Step s e t) (hc : t.cancelled = false) :
    s.cancelled = false := by
  rw [← Bool.not_eq_true] at hc ⊢
  exact fun hs => hc (h.cancelled_mono hs)

lemma Step.plan_eq {s t : Executor} {e : Event} (h : Step s e t) : t.plan = s.plan := by
  cases h <;> rfl

lemma Step.classifier_eq {s t : Executor} {e : Event} (h : Step s e t) :
    t.classifier = s.classifier := by
  cases h <;> rfl

/-- A run goes on with a step. -/
lemma Step.run?_cons {s t : Executor} {e : Event} (h : Step s e t) (es : List Event) :
    s.run? (e :: es) = t.run? es := by
  rw [Executor.run?_cons, h.step?_eq, Option.bind_some]

lemma run?_cons_eq_some_iff {s t : Executor} {e : Event} {es : List Event} :
    s.run? (e :: es) = some t ↔ ∃ u, Step s e u ∧ u.run? es = some t := by
  rw [Executor.run?_cons, Option.bind_eq_some_iff]
  exact exists_congr fun u => and_congr_left fun _ => ⟨Step.of_step?, Step.step?_eq⟩

lemma run?_append (s : Executor) (es es' : List Event) :
    s.run? (es ++ es') = (s.run? es).bind fun t => t.run? es' := by
  induction es generalizing s with
  | nil => rfl
  | cons e es ih =>
    rw [List.cons_append, run?_cons, run?_cons, Option.bind_assoc]
    exact congrArg _ (funext ih)

lemma run?_append_eq_some_iff {s t : Executor} {es es' : List Event} :
    s.run? (es ++ es') = some t ↔ ∃ u, s.run? es = some u ∧ u.run? es' = some t := by
  rw [run?_append, Option.bind_eq_some_iff]

/-! ### Lanes -/

/-- Every task that is queued or in a job is on the lane to which its kind is routed. -/
structure OnLanes (s : Executor) : Prop where
  queue : ∀ r ∈ s.queue, r.lane = s.plan.lane r.work.kind
  jobs : ∀ j ∈ s.jobs, j.task.lane = s.plan.lane j.work.kind

/-- The lanes were chosen at the submissions, and no step chooses another one. -/
lemma OnLanes.step {s t : Executor} {e : Event} (h : s.OnLanes) (hs : Step s e t) : t.OnLanes := by
  cases hs with
  | ask | recordOut | «open» => exact ⟨h.queue, h.jobs⟩
  | recordIn => exact ⟨forall_mem_snoc h.queue rfl, h.jobs⟩
  | dequeue hs =>
    have htask := forall_mem_at h.queue hs
    exact ⟨forall_mem_rest h.queue hs, forall_mem_snoc h.jobs htask⟩
  | childIn hs =>
    have hjob := forall_mem_at h.jobs hs
    exact ⟨forall_mem_snoc h.queue rfl, forall_mem_cut h.jobs hs hjob⟩
  | leave hs => exact ⟨h.queue, forall_mem_rest h.jobs hs⟩
  | acquire hs | giveUp hs | giveBack hs | resume hs | skip hs | halt hs | start hs | pass hs
  | askChild hs | childOut hs | conclude hs | cancel hs | finish hs =>
    have hjob := forall_mem_at h.jobs hs
    exact ⟨h.queue, forall_mem_cut h.jobs hs hjob⟩

/-- So a body runs on the pool of its kind. -/
lemma OnLanes.site_eq {s : Executor} (h : s.OnLanes) {pre post : List Job} {j : Job}
    (hs : s.jobs = pre ++ j :: post) : j.task.site s.plan = j.work.site s.plan := by
  rw [Routed.site, forall_mem_at h.jobs hs]
  rfl

/-! ### Invariants of reachable states -/

section Reachable

variable {plan : Plan} {classifier : Classifier} {s t : Executor}

lemma Reachable.of_run? {es : List Event} (hs : Reachable plan classifier s)
    (h : s.run? es = some t) : Reachable plan classifier t := by
  induction es generalizing s with
  | nil =>
    cases h
    exact hs
  | cons e es ih =>
    obtain ⟨u, hu, h⟩ := run?_cons_eq_some_iff.mp h
    exact ih (hs.step hu.step?_eq) h

theorem Reachable.invariant {P : Executor → Prop} (init : P (.init plan classifier))
    (step : ∀ {s t e}, P s → Step s e t → P t) (h : Reachable plan classifier s) : P s := by
  induction h with
  | init => exact init
  | step _ he ih => exact step ih (.of_step? he)

lemma Reachable.onLanes (h : Reachable plan classifier s) : s.OnLanes :=
  h.invariant ⟨nofun, nofun⟩ fun h hs => h.step hs

lemma Reachable.plan_eq (h : Reachable plan classifier s) :
    s.plan = plan ∧ s.classifier = classifier :=
  h.invariant (P := fun s => s.plan = plan ∧ s.classifier = classifier) ⟨rfl, rfl⟩
    fun h hs => ⟨hs.plan_eq.trans h.1, hs.classifier_eq.trans h.2⟩

end Reachable

end Executor

end PhaseExecutors
