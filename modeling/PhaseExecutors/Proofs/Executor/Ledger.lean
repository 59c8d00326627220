import Mathlib.Algebra.Order.Group.Multiset
import PhaseExecutors.Proofs.Executor.Steps

/-!
A ledger of a run: which submission became of what.

The executor itself keeps counts only. A ledger watches it step by step, gives every task that is
let in a number, and follows it from the queue to a job and out of the executor. It never has an
influence on the run.
-/

namespace PhaseExecutors

open Executor (Event Step)

/-- A task that was let in. -/
structure Entry where
  /-- How many tasks were let in before. -/
  number : ℕ
  work : Work
  /-- The number of the task whose body submitted it, unless it came from outside. -/
  parent : Option ℕ

structure Ledger where
  /-- The submissions from outside. -/
  asked : List Work
  accepted : List Entry
  /-- The submissions that were dropped. -/
  refused : List Work
  /-- The tasks of the queue, in its order. -/
  queue : List Entry
  /-- The tasks of the jobs, in their order. -/
  jobs : List Entry
  /-- The tasks whose bodies began. -/
  begun : List Entry
  /-- The tasks that were to run and did not. -/
  skipped : List Entry
  /-- The outcomes that were recorded, and for which tasks. -/
  finished : List (Entry × Outcome)
  /-- The tasks that left their jobs. -/
  left : List Entry

namespace Ledger

def empty : Ledger := ⟨[], [], [], [], [], [], [], [], []⟩

def submit (l : Ledger) (parent : Option ℕ) (w : Work) (admitted : Bool) : Ledger :=
  if admitted then
    { l with
      accepted := l.accepted ++ [⟨l.accepted.length, w, parent⟩]
      queue := l.queue ++ [⟨l.accepted.length, w, parent⟩] }
  else { l with refused := l.refused ++ [w] }

section Submit

variable (l : Ledger) (parent : Option ℕ) (w : Work) (admitted : Bool)

lemma asked_submit : (l.submit parent w admitted).asked = l.asked := by
  cases admitted <;> rfl

lemma jobs_submit : (l.submit parent w admitted).jobs = l.jobs := by
  cases admitted <;> rfl

lemma begun_submit : (l.submit parent w admitted).begun = l.begun := by
  cases admitted <;> rfl

lemma finished_submit : (l.submit parent w admitted).finished = l.finished := by
  cases admitted <;> rfl

end Submit

/-- What a step adds to the ledger, seen from the state before it. -/
def step (l : Ledger) (s : Executor) : Event → Ledger
  | .ask w => { l with asked := l.asked ++ [w] }
  | .record i =>
    match s.tickets[i]? with
    | some t => l.submit none t.work t.admitted
    | none => l
  | .dequeue i =>
    match l.queue[i]? with
    | some e => { l with queue := l.queue.eraseIdx i, jobs := l.jobs ++ [e] }
    | none => l
  | .begin i =>
    match l.jobs[i]? with
    | some e =>
      if s.cancelled then { l with skipped := l.skipped ++ [e] }
      else { l with begun := l.begun ++ [e] }
    | none => l
  | .recordChild i =>
    match l.jobs[i]?, s.jobs[i]? with
    | some e, some ⟨_, _, .running (c :: _) (some admitted)⟩ => l.submit (some e.number) c admitted
    | _, _ => l
  | .finish i =>
    match l.jobs[i]?, s.jobs[i]? with
    | some e, some ⟨_, _, .finishing o⟩ => { l with finished := l.finished ++ [(e, o)] }
    | _, _ => l
  | .leave i =>
    match l.jobs[i]? with
    | some e => { l with jobs := l.jobs.eraseIdx i, left := l.left ++ [e] }
    | none => l
  | .acquire _ | .giveUp _ | .resume _ | .pass _ | .askChild _ | .conclude _ | .cancel _
  | .open _ => l

/-- The ledger at the end of a run from `s`. -/
def run (l : Ledger) (s : Executor) : List Event → Ledger
  | [] => l
  | e :: es =>
    match s.step? e with
    | some t => (l.step s e).run t es
    | none => l

/-- The ledger of a run from the start of an executor. -/
def ofRun (plan : Plan) (classifier : Classifier) (es : List Event) : Ledger :=
  empty.run (.init plan classifier) es

/-- The outcomes that were recorded, in order. -/
def outcomes (l : Ledger) : List Outcome := l.finished.map Prod.snd

/-! ### One step, at a cut of the list that it changes -/

section Step

variable {l : Ledger} {s : Executor} {e : Entry}

lemma step_record {pre post : List Ticket} {ticket : Ticket}
    (hs : s.tickets = pre ++ ticket :: post) :
    l.step s (.record pre.length) = l.submit none ticket.work ticket.admitted := by
  simp [step, hs]

lemma step_dequeue {pre post : List Entry} (hl : l.queue = pre ++ e :: post) :
    l.step s (.dequeue pre.length) = { l with queue := pre ++ post, jobs := l.jobs ++ [e] } := by
  simp [step, hl, Executor.eraseIdx_cut]

lemma step_skip {i : ℕ} (he : l.jobs[i]? = some e) (hc : s.cancelled = true) :
    l.step s (.begin i) = { l with skipped := l.skipped ++ [e] } := by
  simp [step, he, hc]

lemma step_begin {i : ℕ} (he : l.jobs[i]? = some e) (hc : s.cancelled = false) :
    l.step s (.begin i) = { l with begun := l.begun ++ [e] } := by
  simp [step, he, hc]

lemma step_recordChild {pre post : List Job} {r : Routed} {c : Work} {p admitted : Bool}
    {todo : List Work} (he : l.jobs[pre.length]? = some e)
    (hs : s.jobs = pre ++ ⟨r, p, .running (c :: todo) (some admitted)⟩ :: post) :
    l.step s (.recordChild pre.length) = l.submit (some e.number) c admitted := by
  simp [step, he, hs]

lemma step_finish {pre post : List Job} {r : Routed} {p : Bool} {o : Outcome}
    (he : l.jobs[pre.length]? = some e) (hs : s.jobs = pre ++ ⟨r, p, .finishing o⟩ :: post) :
    l.step s (.finish pre.length) = { l with finished := l.finished ++ [(e, o)] } := by
  simp [step, he, hs]

lemma step_leave {pre post : List Entry} (hl : l.jobs = pre ++ e :: post) :
    l.step s (.leave pre.length) = { l with jobs := pre ++ post, left := l.left ++ [e] } := by
  simp [step, hl, Executor.eraseIdx_cut]

end Step

/-! ### The ledger and the state speak of the same tasks -/

structure Ties (l : Ledger) (s : Executor) : Prop where
  queue : l.queue.map Entry.work = s.queue.map Routed.work
  jobs : l.jobs.map Entry.work = s.jobs.map Job.work

variable {l : Ledger} {s t : Executor}

/-- A list of entries has a cut wherever the list of their works has one. -/
lemma exists_cut_of_map {es : List Entry} {pre post : List Work} {w : Work}
    (h : es.map Entry.work = pre ++ w :: post) :
    ∃ pre' e post', es = pre' ++ e :: post' ∧ e.work = w ∧ pre'.map Entry.work = pre ∧
      post'.map Entry.work = post ∧ pre'.length = pre.length := by
  obtain ⟨pre', rest, rfl, hpre, hrest⟩ := List.map_eq_append_iff.mp h
  obtain ⟨e, post', rfl, he, hpost⟩ := List.map_eq_cons_iff.mp hrest
  exact ⟨pre', e, post', rfl, he, hpre, hpost, by simpa using congrArg List.length hpre⟩

/-- A queued task has its entry at the same place of the ledger. -/
lemma Ties.exists_queued (h : Ties l s) {pre post : List Routed} {r : Routed}
    (hs : s.queue = pre ++ r :: post) :
    ∃ pre' e post', l.queue = pre' ++ e :: post' ∧ e.work = r.work ∧
      pre'.map Entry.work = pre.map Routed.work ∧ post'.map Entry.work = post.map Routed.work ∧
      pre'.length = pre.length := by
  have hq := h.queue
  rw [hs, List.map_append, List.map_cons] at hq
  simpa using exists_cut_of_map hq

lemma Ties.length_jobs (h : Ties l s) : l.jobs.length = s.jobs.length := by
  simpa using congrArg List.length h.jobs

/-- A job at a cut of the list has its entry at the same place of the ledger. -/
lemma Ties.exists_cut (h : Ties l s) {pre post : List Job} {j : Job}
    (hs : s.jobs = pre ++ j :: post) :
    ∃ pre' e post', l.jobs = pre' ++ e :: post' ∧ e.work = j.work ∧
      pre'.map Entry.work = pre.map Job.work ∧ post'.map Entry.work = post.map Job.work ∧
      pre'.length = pre.length := by
  have hj := h.jobs
  rw [hs, List.map_append, List.map_cons] at hj
  simpa using exists_cut_of_map hj

lemma Ties.getElem? (h : Ties l s) {pre post : List Job} {j : Job}
    (hs : s.jobs = pre ++ j :: post) :
    ∃ e, l.jobs[pre.length]? = some e ∧ e.work = j.work := by
  obtain ⟨pre', e, post', hl, he, -, -, hlen⟩ := h.exists_cut hs
  exact ⟨e, by simp [hl, ← hlen], he⟩

lemma Ties.init (plan : Plan) (classifier : Classifier) : Ties empty (.init plan classifier) :=
  ⟨rfl, rfl⟩

/-- A step that leaves the queue and the works of the jobs alone. -/
lemma Ties.of_eq (h : Ties l s) {l' : Ledger} (hq : l'.queue = l.queue) (hj : l'.jobs = l.jobs)
    (hq' : t.queue = s.queue) (hj' : t.jobs.map Job.work = s.jobs.map Job.work) : Ties l' t :=
  ⟨by rw [hq, hq', h.queue], by rw [hj, hj', h.jobs]⟩

lemma Ties.submit (h : Ties l s) (parent : Option ℕ) {w : Work}
    (hq' : t.queue = s.queue ++ [s.plan.spawn w])
    (hj' : t.jobs.map Job.work = s.jobs.map Job.work) : Ties (l.submit parent w true) t :=
  ⟨by simp [Ledger.submit, h.queue, hq'], by simp [Ledger.submit, h.jobs, hj']⟩

lemma Ties.step (h : Ties l s) {ev : Event} (hs : Step s ev t) : Ties (l.step s ev) t := by
  cases hs with
  | ask | «open» => exact h.of_eq rfl rfl rfl rfl
  | recordIn hs =>
    rw [step_record hs]
    exact h.submit none rfl rfl
  | recordOut hs =>
    rw [step_record hs]
    exact h.of_eq rfl rfl rfl rfl
  | dequeue hs =>
    obtain ⟨pre', e, post', hl, he, hpre, hpost, hlen⟩ := h.exists_queued hs
    rw [← hlen, step_dequeue hl]
    exact ⟨by simp [hpre, hpost], by simp [h.jobs, he]⟩
  | skip hs hc =>
    obtain ⟨e, he, -⟩ := h.getElem? hs
    rw [step_skip he hc]
    exact h.of_eq rfl rfl rfl (by simp [hs])
  | halt hs hc | start hs hc =>
    obtain ⟨e, he, -⟩ := h.getElem? hs
    rw [step_begin he hc]
    exact h.of_eq rfl rfl rfl (by simp [hs])
  | childIn hs =>
    obtain ⟨e, he, -⟩ := h.getElem? hs
    rw [step_recordChild he hs]
    exact h.submit _ rfl (by simp [hs])
  | childOut hs =>
    obtain ⟨e, he, -⟩ := h.getElem? hs
    rw [step_recordChild he hs]
    exact h.of_eq rfl rfl rfl (by simp [hs])
  | finish hs =>
    obtain ⟨e, he, -⟩ := h.getElem? hs
    rw [step_finish he hs]
    exact h.of_eq rfl rfl rfl (by simp [hs])
  | leave hs =>
    obtain ⟨pre', e, post', hl, he, hpre, hpost, hlen⟩ := h.exists_cut hs
    rw [← hlen, step_leave hl]
    exact ⟨h.queue, by simp [hpre, hpost]⟩
  | acquire hs | giveUp hs | giveBack hs | resume hs | pass hs | askChild hs | conclude hs
  | cancel hs =>
    exact h.of_eq rfl rfl rfl (by simp [hs])

lemma run_cons {ev : Event} {es : List Event} (hs : Step s ev t) :
    l.run s (ev :: es) = (l.step s ev).run t es := by
  simp only [run, hs.step?_eq]

/-- What every step preserves, whatever happened before, is preserved by every run. -/
theorem run_induction_from {P : List Event → Ledger → Executor → Prop} {done es : List Event}
    (step : ∀ {es l s ev t}, Ties l s → P es l s → Step s ev t → P (es ++ [ev]) (l.step s ev) t)
    (ht : Ties l s) (h : P done l s) (hrun : s.run? es = some t) :
    P (done ++ es) (l.run s es) t := by
  induction es generalizing done l s with
  | nil =>
    cases hrun
    rw [List.append_nil]
    exact h
  | cons e es ih =>
    obtain ⟨u, hs, hrun⟩ := Executor.run?_cons_eq_some_iff.mp hrun
    rw [run_cons hs, ← List.singleton_append, ← List.append_assoc]
    exact ih (ht.step hs) (step ht h hs) hrun

/-- What holds at the start and is preserved by every step, whatever happened before, holds at the
end of every run. -/
theorem run_induction {P : List Event → Ledger → Executor → Prop} {plan : Plan}
    {classifier : Classifier} (init : P [] empty (.init plan classifier))
    (step : ∀ {es l s ev t}, Ties l s → P es l s → Step s ev t → P (es ++ [ev]) (l.step s ev) t)
    {es : List Event} {s : Executor} (hrun : (Executor.init plan classifier).run? es = some s) :
    P es (ofRun plan classifier es) s :=
  run_induction_from step (.init plan classifier) init hrun

variable {plan : Plan} {classifier : Classifier} {es : List Event}

lemma run_append {es' : List Event} (h : s.run? es = some t) :
    l.run s (es ++ es') = (l.run s es).run t es' := by
  induction es generalizing l s with
  | nil =>
    cases h
    rfl
  | cons ev es ih =>
    obtain ⟨u, hs, h⟩ := Executor.run?_cons_eq_some_iff.mp h
    rw [List.cons_append, run_cons hs, run_cons hs, ih h]

lemma ofRun_append {es' : List Event} (h : (Executor.init plan classifier).run? es = some s) :
    ofRun plan classifier (es ++ es') = (ofRun plan classifier es).run s es' :=
  run_append h

/-- What is noted of the steps of a run from `s`, in their order. -/
def trace {α : Type*} (note : Ledger → Executor → Event → Option α) (l : Ledger) (s : Executor) :
    List Event → List α
  | [] => []
  | e :: es =>
    match s.step? e with
    | some t => (note l s e).toList ++ trace note (l.step s e) t es
    | none => []

section Trace

variable {α : Type*} {note : Ledger → Executor → Event → Option α}

lemma trace_cons {ev : Event} (hs : Step s ev t) :
    trace note l s (ev :: es) = (note l s ev).toList ++ trace note (l.step s ev) t es := by
  simp only [trace, hs.step?_eq]

lemma trace_append {es' : List Event} (h : s.run? es = some t) :
    trace note l s (es ++ es') = trace note l s es ++ trace note (l.run s es) t es' := by
  induction es generalizing l s with
  | nil =>
    cases h
    rfl
  | cons ev es ih =>
    obtain ⟨u, hs, h⟩ := Executor.run?_cons_eq_some_iff.mp h
    rw [List.cons_append, trace_cons hs, trace_cons hs, run_cons hs, ih h, List.append_assoc]

/-- Where every step adds what is noted of it, a run adds all that is noted. -/
theorem add_trace {f : Ledger → Executor → Multiset α}
    (step : ∀ {l s ev t}, Ties l s → Step s ev t →
      f (l.step s ev) t = f l s + ((note l s ev).toList : Multiset α))
    (ht : Ties l s) (hrun : s.run? es = some t) :
    f (l.run s es) t = f l s + (trace note l s es : Multiset α) := by
  induction es generalizing l s with
  | nil =>
    cases hrun
    exact (add_zero _).symm
  | cons ev es ih =>
    obtain ⟨u, hs, hrun⟩ := Executor.run?_cons_eq_some_iff.mp hrun
    rw [run_cons hs, trace_cons hs, ih (ht.step hs) hrun, step ht hs, ← Multiset.coe_add, add_assoc]

end Trace

lemma ties_of_run (hrun : (Executor.init plan classifier).run? es = some s) :
    Ties (ofRun plan classifier es) s :=
  run_induction (P := fun _ => Ties) (.init plan classifier) (fun h _ hs => h.step hs) hrun

/-! ### The events that a ledger has written down -/

/-- What is let in and what is recorded stays so. -/
structure Extends (l l' : Ledger) : Prop where
  accepted : l.accepted <+: l'.accepted
  finished : l.finished <+: l'.finished

lemma Extends.of_eq {l l' : Ledger} (haccepted : l'.accepted = l.accepted)
    (hfinished : l'.finished = l.finished) : Extends l l' :=
  ⟨haccepted ▸ List.prefix_rfl, hfinished ▸ List.prefix_rfl⟩

lemma extends_submit (l : Ledger) (parent : Option ℕ) (w : Work) (admitted : Bool) :
    Extends l (l.submit parent w admitted) := by
  cases admitted with
  | true => exact ⟨List.prefix_append _ _, List.prefix_rfl⟩
  | false => exact .of_eq rfl rfl

lemma extends_step (l : Ledger) (s : Executor) (ev : Event) : Extends l (l.step s ev) := by
  cases ev with
  | record i | recordChild i =>
    simp only [step]
    split
    · exact extends_submit ..
    · exact .of_eq rfl rfl
  | finish i =>
    simp only [step]
    split
    · exact ⟨List.prefix_rfl, List.prefix_append _ _⟩
    · exact .of_eq rfl rfl
  | dequeue i | leave i =>
    simp only [step]
    split <;> exact .of_eq rfl rfl
  | «begin» i =>
    simp only [step]
    split
    · split <;> exact .of_eq rfl rfl
    · exact .of_eq rfl rfl
  | ask | acquire | giveUp | resume | pass | askChild | conclude | cancel | «open» =>
    exact .of_eq rfl rfl

lemma extends_run (l : Ledger) (s : Executor) (es : List Event) : Extends l (l.run s es) := by
  induction es generalizing l s with
  | nil => exact .of_eq rfl rfl
  | cons ev es ih =>
    simp only [run]
    split
    · have h := extends_step l s ev
      exact ⟨h.accepted.trans (ih _ _).accepted, h.finished.trans (ih _ _).finished⟩
    · exact .of_eq rfl rfl

/-- Every submission is on one of the two lists. -/
lemma length_submit (l : Ledger) (parent : Option ℕ) (w : Work) (admitted : Bool) :
    (l.submit parent w admitted).accepted.length + (l.submit parent w admitted).refused.length =
      l.accepted.length + l.refused.length + 1 := by
  cases admitted <;> simp [submit] <;> omega

end Ledger

namespace Executor.Event

/-- The task that is submitted from outside. -/
def asked? : Event → Option Work
  | .ask w => some w
  | _ => none

/-- A submission is recorded. -/
def isRecord : Event → Bool
  | .record _ | .recordChild _ => true
  | _ => false

end Executor.Event

namespace Ledger

variable {l : Ledger} {s t : Executor} {plan : Plan} {classifier : Classifier} {es : List Event}

lemma step_events (ht : Ties l s) {ev : Event} (hs : Step s ev t) :
    (l.step s ev).asked = l.asked ++ ev.asked?.toList ∧
      (l.step s ev).accepted.length + (l.step s ev).refused.length =
        l.accepted.length + l.refused.length + [ev].countP Event.isRecord := by
  cases hs with
  | ask => exact ⟨rfl, rfl⟩
  | recordIn hs | recordOut hs =>
    rw [step_record hs, asked_submit, length_submit]
    exact ⟨(List.append_nil _).symm, rfl⟩
  | childIn hs | childOut hs =>
    obtain ⟨e, he, -⟩ := ht.getElem? hs
    rw [step_recordChild he hs, asked_submit, length_submit]
    exact ⟨(List.append_nil _).symm, rfl⟩
  | dequeue hs =>
    obtain ⟨pre', e, post', hl, -, -, -, hlen⟩ := ht.exists_queued hs
    rw [← hlen, step_dequeue hl]
    exact ⟨(List.append_nil _).symm, rfl⟩
  | skip hs hc =>
    obtain ⟨e, he, -⟩ := ht.getElem? hs
    rw [step_skip he hc]
    exact ⟨(List.append_nil _).symm, rfl⟩
  | halt hs hc | start hs hc =>
    obtain ⟨e, he, -⟩ := ht.getElem? hs
    rw [step_begin he hc]
    exact ⟨(List.append_nil _).symm, rfl⟩
  | finish hs =>
    obtain ⟨e, he, -⟩ := ht.getElem? hs
    rw [step_finish he hs]
    exact ⟨(List.append_nil _).symm, rfl⟩
  | leave hs =>
    obtain ⟨pre', e, post', hl, -, -, -, hlen⟩ := ht.exists_cut hs
    rw [← hlen, step_leave hl]
    exact ⟨(List.append_nil _).symm, rfl⟩
  | acquire hs | giveUp hs | giveBack hs | resume hs | pass hs | askChild hs | conclude hs
  | cancel hs | «open» =>
    exact ⟨(List.append_nil _).symm, rfl⟩

/-- The ledger knows all submissions from outside, and each that was recorded. -/
lemma events_of_run (hrun : (Executor.init plan classifier).run? es = some s) :
    (ofRun plan classifier es).asked = es.filterMap Event.asked? ∧
      (ofRun plan classifier es).accepted.length + (ofRun plan classifier es).refused.length =
        es.countP Event.isRecord := by
  refine run_induction (P := fun es l _ => l.asked = es.filterMap Event.asked? ∧
    l.accepted.length + l.refused.length = es.countP Event.isRecord) ⟨rfl, rfl⟩ ?_ hrun
  intro es l s ev t ht h hs
  obtain ⟨hasked, hrecorded⟩ := step_events ht hs
  refine ⟨?_, ?_⟩
  · rw [hasked, h.1, List.filterMap_append, List.filterMap_cons, List.filterMap_nil]
    cases ev.asked? <;> rfl
  · rw [hrecorded, h.2, List.countP_append]

end Ledger

end PhaseExecutors
