import PhaseExecutors.Factory.Calls
import PhaseExecutors.Proofs.Factory.Oversized

/-!
Which plans the builder of a factory is given.

Each request for an executor gives the builder one plan, the plan of its phase for the snapshot in
force, if there is one. The snapshot in force is a matter of the refreshes alone, also if the
builder fails. All these plans are well formed, since every snapshot keeps the cpu-heavy size within
the analysis parallelism when it prioritizes.
-/

namespace PhaseExecutors

namespace Plan

/-- Well sized, and no two pools have one name. -/
structure WellFormed (plan : Plan) : Prop extends plan.WellSized where
  distinct : (plan.pools.map PoolSpec.name).Nodup

lemma Planned.wellFormed {s : Snapshot} {phase : Phase} {plan : Plan} (h : Planned s phase plan) :
    plan.WellFormed := by
  refine ⟨h.wellSized, ?_⟩
  cases h with
  | shared | lane | execution => simp [pools]
  | apart | merged => simp [pools, generalPool, cpuHeavyPool, executionPool]

end Plan

namespace Factory

/-- The options that a call puts in force. -/
def Call.provider? : Call → Option Provider
  | .refresh p => some p
  | _ => none

/-- The phase for which a call wants an executor. -/
def Call.phase? : Call → Option Phase
  | .executorFor phase => some phase
  | .analysisExecutor => some .analysis
  | .executionExecutor => some .execution
  | .mergedExecutor => some .merged
  | _ => none

/-- The settings after some calls, of which the refreshes alone count. -/
def settingsAfter (s : Settings) (cs : List Call) : Settings :=
  (cs.filterMap Call.provider?).foldl (fun s p => (s.refresh p).1) s

/-- The plan with which a call comes to the builder. -/
def Call.plan? (c : Call) (s : Snapshot) : Option Plan :=
  c.phase?.bind fun phase => (Plan.forPhase phase s).toOption

/-- The plans with which some calls come to the builder, in order. -/
def due (s : Settings) : List Call → List Plan
  | [] => []
  | c :: cs => (c.plan? s.current).toList ++ due (settingsAfter s [c]) cs

/-- A builder that makes something of a plan or reports why it does not. -/
def reporting {α : Type} (build : List Plan → Plan → Except BuildError α) : Builder α :=
  fun past plan => (build past plan).mapError .build

/-- The reply to a call under some settings, if the builder was given the plans `past` before. -/
inductive Answered {α : Type} (build : List Plan → Plan → Except BuildError α) (s : Settings)
    (past : List Plan) : Call → Reply α → Prop
  | refreshed (p : Provider) :
      Answered build s past (.refresh p) (.snapshot (s.refresh p).1.current)
  | planned (phase : Phase) :
      Answered build s past (.planFor phase) (.plan (Plan.forPhase phase s.current))
  | refused {c : Call} {phase : Phase} {e : UnmetPrecondition} (hc : c.phase? = some phase)
      (hplan : Plan.forPhase phase s.current = .error e) :
      Answered build s past c (.executor (.error (.unmet e)))
  | failed {c : Call} {phase : Phase} {plan : Plan} {e : BuildError} (hc : c.phase? = some phase)
      (hplan : Plan.forPhase phase s.current = .ok plan) (hbuild : build past plan = .error e) :
      Answered build s past c (.executor (.error (.build e)))
  | built {c : Call} {phase : Phase} {plan : Plan} {x : α} (hc : c.phase? = some phase)
      (hplan : Plan.forPhase phase s.current = .ok plan) (hbuild : build past plan = .ok x) :
      Answered build s past c (.executor (.ok x))

lemma settingsAfter_cons (s : Settings) (c : Call) (cs : List Call) :
    settingsAfter s (c :: cs) = settingsAfter (settingsAfter s [c]) cs := by
  cases c <;> rfl

lemma due_cons (s : Settings) (c : Call) (cs : List Call) :
    due s (c :: cs) = due s [c] ++ due (settingsAfter s [c]) cs := by
  simp [due]

lemma settingsAfter_of_phase {c : Call} {phase : Phase} (hc : c.phase? = some phase)
    (s : Settings) : settingsAfter s [c] = s := by
  cases c with
  | refresh p => cases hc
  | _ => rfl

variable {α : Type} {f : Factory} {kept : Level} {build : List Plan → Plan → Except BuildError α}
  {c : Call} {phase : Phase}

lemma call_of_phase (builder : Builder α) (hc : c.phase? = some phase) :
    f.call kept builder c = (f.executorFor kept builder phase).map .executor id := by
  cases c with
  | refresh | planFor => cases hc
  | _ => cases hc; rfl

lemma settings_executorFor (builder : Builder α) :
    (f.executorFor kept builder phase).2.1.settings = f.settings := by
  unfold executorFor
  split
  · rfl
  · split <;> rfl

/-- Settings change by a refresh only, whatever becomes of the other calls. -/
lemma settings_call (f : Factory) (kept : Level) (builder : Builder α) (c : Call) :
    (f.call kept builder c).2.1.settings = settingsAfter f.settings [c] := by
  cases hc : c.phase? with
  | some phase =>
    rw [call_of_phase builder hc, settingsAfter_of_phase hc]
    exact settings_executorFor builder
  | none =>
    cases c with
    | refresh p | planFor phase => rfl
    | _ => cases hc

/-- What an executor call comes to while the threads of its plan can be counted. -/
lemma executorFor_of_countable (kept : Level) (build : List Plan → Plan → Except BuildError α)
    (h : ∀ plan, Plan.forPhase phase f.settings.current = .ok plan → plan.totalThreads?.isSome) :
    (∃ e, Plan.forPhase phase f.settings.current = .error e ∧
        f.executorFor kept (reporting build) phase =
          (.error (.unmet e), f, [refusalNote phase e])) ∨
      ∃ plan log, Plan.forPhase phase f.settings.current = .ok plan ∧
        f.executorFor kept (reporting build) phase =
          ((build f.built plan).mapError .build, { f with built := f.built ++ [plan] }, log) := by
  have hplanFor : f.planFor phase = Plan.forPhase phase f.settings.current := rfl
  cases hplan : Plan.forPhase phase f.settings.current with
  | error e =>
    refine Or.inl ⟨e, rfl, ?_⟩
    simp only [executorFor, hplanFor, hplan]
  | ok plan =>
    have hm : ¬Miscounts kept plan := by
      rintro ⟨-, hle⟩
      have hsome := h plan hplan
      rw [Plan.totalThreads?, Size.ofNat?, if_neg (Nat.not_lt.mpr hle)] at hsome
      cases hsome
    obtain ⟨log, hlog⟩ := announce_of_not_miscounts phase hm
    refine Or.inr ⟨plan, log, rfl, ?_⟩
    simp only [executorFor, hplanFor, hplan, hlog, reporting]

/-- One call. -/
lemma call_of_countable (kept : Level) (build : List Plan → Plan → Except BuildError α)
    (h : ∀ plan ∈ due f.settings [c], plan.totalThreads?.isSome) :
    Answered build f.settings f.built c (f.call kept (reporting build) c).1 ∧
      (f.call kept (reporting build) c).2.1.built = f.built ++ due f.settings [c] := by
  cases hc : c.phase? with
  | none =>
    cases c with
    | refresh p => exact ⟨.refreshed p, (List.append_nil _).symm⟩
    | planFor phase => exact ⟨.planned phase, (List.append_nil _).symm⟩
    | _ => cases hc
  | some phase =>
    have hdue : due f.settings [c] =
        (Plan.forPhase phase f.settings.current).toOption.toList := by
      simp [due, Call.plan?, hc]
    have hcount : ∀ plan, Plan.forPhase phase f.settings.current = .ok plan →
        plan.totalThreads?.isSome := by
      intro plan hplan
      exact h plan (by simp [hdue, hplan, Except.toOption])
    rw [call_of_phase _ hc, hdue]
    rcases executorFor_of_countable kept build hcount with
      ⟨e, hplan, hcall⟩ | ⟨plan, log, hplan, hcall⟩
    · rw [hcall, hplan]
      exact ⟨.refused hc hplan, (List.append_nil _).symm⟩
    · rw [hcall, hplan]
      refine ⟨?_, rfl⟩
      cases hbuild : build f.built plan with
      | error e => exact .failed hc hplan hbuild
      | ok x => exact .built hc hplan hbuild

lemma calls_cons (builder : Builder α) (cs : List Call) :
    (f.calls kept builder (c :: cs)).1 =
        (f.call kept builder c).1 :: ((f.call kept builder c).2.1.calls kept builder cs).1 ∧
      (f.calls kept builder (c :: cs)).2.1 =
        ((f.call kept builder c).2.1.calls kept builder cs).2.1 := ⟨rfl, rfl⟩

lemma settings_calls (builder : Builder α) (cs : List Call) :
    (f.calls kept builder cs).2.1.settings = settingsAfter f.settings cs := by
  induction cs generalizing f with
  | nil => rfl
  | cons c cs ih =>
    rw [(calls_cons builder cs).2, ih, settings_call, ← settingsAfter_cons]

lemma built_calls {cs : List Call} (h : ∀ plan ∈ due f.settings cs, plan.totalThreads?.isSome) :
    (f.calls kept (reporting build) cs).2.1.built = f.built ++ due f.settings cs := by
  induction cs generalizing f with
  | nil => exact (List.append_nil _).symm
  | cons c cs ih =>
    rw [due_cons, List.forall_mem_append, ← settings_call f kept (reporting build)] at h
    rw [(calls_cons _ cs).2, ih h.2, (call_of_countable kept build h.1).2, settings_call,
      due_cons _ c cs, List.append_assoc]

/-- Each reply is the one that the settings and the plans at the time of the call call for. -/
lemma replies_calls {cs : List Call} (h : ∀ plan ∈ due f.settings cs, plan.totalThreads?.isSome)
    {pre post : List Call} (hcs : cs = pre ++ c :: post) :
    ∃ reply, (f.calls kept (reporting build) cs).1[pre.length]? = some reply ∧
      Answered build (settingsAfter f.settings pre) (f.built ++ due f.settings pre) c reply := by
  induction pre generalizing f cs with
  | nil =>
    subst hcs
    rw [List.nil_append, due_cons, List.forall_mem_append] at h
    refine ⟨(f.call kept (reporting build) c).1, rfl, ?_⟩
    simpa [due, settingsAfter] using (call_of_countable kept build h.1).1
  | cons c' pre ih =>
    subst hcs
    rw [List.cons_append, due_cons, List.forall_mem_append,
      ← settings_call f kept (reporting build)] at h
    obtain ⟨reply, hreply, hanswered⟩ := ih h.2 rfl
    refine ⟨reply, by simpa [calls_cons] using hreply, ?_⟩
    rw [settings_call, (call_of_countable kept build h.1).2, ← settingsAfter_cons,
      List.append_assoc, ← due_cons] at hanswered
    exact hanswered

/-- Whatever comes to the builder is well formed. -/
lemma wellFormed_of_mem_due {s : Settings} {cs : List Call} {plan : Plan} (h : plan ∈ due s cs) :
    plan.WellFormed := by
  induction cs generalizing s with
  | nil => cases h
  | cons c cs ih =>
    rw [due, List.mem_append, Option.mem_toList] at h
    rcases h with h | h
    · obtain ⟨phase, -, hplan⟩ := Option.bind_eq_some_iff.mp h
      cases hforPhase : Plan.forPhase phase s.current with
      | error e => rw [hforPhase] at hplan; cases hplan
      | ok plan' =>
        rw [hforPhase] at hplan
        cases hplan
        exact (Plan.forPhase_eq_ok_iff.mp hforPhase).wellFormed
    · exact ih h

/-- What a sequence of calls comes to. -/
structure Traced (f : Factory) (kept : Level) (build : List Plan → Plan → Except BuildError α)
    (cs : List Call) : Prop where
  built : (f.calls kept (reporting build) cs).2.1.built = f.built ++ due f.settings cs
  /-- The replies are those to the single calls, in order. -/
  length : (f.calls kept (reporting build) cs).1.length = cs.length
  replies : ∀ pre c post, cs = pre ++ c :: post →
    ∃ reply, (f.calls kept (reporting build) cs).1[pre.length]? = some reply ∧
      Answered build (settingsAfter f.settings pre) (f.built ++ due f.settings pre) c reply
  /-- Calls other than refreshes leave no trace in the settings. -/
  settings : (f.calls kept (reporting build) cs).2.1.settings = settingsAfter f.settings cs
  wellFormed : ∀ plan ∈ due f.settings cs, plan.WellFormed

lemma length_calls (builder : Builder α) (cs : List Call) :
    (f.calls kept builder cs).1.length = cs.length := by
  induction cs generalizing f with
  | nil => rfl
  | cons c cs ih => rw [(calls_cons builder cs).1, List.length_cons, ih, List.length_cons]

/-- **The builder is given the plans of the phases asked for, and only well-formed ones.** -/
theorem traced_of_countable (f : Factory) (kept : Level)
    (build : List Plan → Plan → Except BuildError α) (cs : List Call)
    (h : ∀ plan ∈ due f.settings cs, plan.totalThreads?.isSome) : Traced f kept build cs where
  built := built_calls h
  length := length_calls _ cs
  replies _ _ _ hcs := replies_calls h hcs
  settings := settings_calls _ cs
  wellFormed _ := wellFormed_of_mem_due

/-- Refused without sizes, then failing at the first plan and not at the second. -/
theorem traced_of_failing_once :
    let options : List OptionGroup :=
      [.loadingPhaseThreads ⟨2⟩, .buildRequest ⟨3⟩, .analysis ⟨4, true⟩]
    let cs : List Call := [.mergedExecutor, .refresh (StaticOptions.ofList options).lookup,
      .analysisExecutor, .planFor .execution, .executorFor .merged]
    let build : List Plan → Plan → Except BuildError ℕ := fun past plan =>
      if past = [] then .error ⟨plan.name, .system "thread limit reached"⟩ else .ok past.length
    due (.initial .inert) cs = [.tieredPriority ⟨generalPool, 2⟩ 2,
        .multiPool ⟨generalPool, 2⟩ ⟨cpuHeavyPool, 2⟩ (some ⟨executionPool, 3⟩)] ∧
      Traced (ofSettings (.initial .inert)) .debug build cs := by
  intro options cs build
  have hdue : due (.initial .inert) cs = [.tieredPriority ⟨generalPool, 2⟩ 2,
      .multiPool ⟨generalPool, 2⟩ ⟨cpuHeavyPool, 2⟩ (some ⟨executionPool, 3⟩)] := by
    rfl
  refine ⟨hdue, traced_of_countable _ _ _ _ ?_⟩
  rw [show (ofSettings (.initial .inert)).settings = .initial .inert from rfl, hdue]
  decide

end Factory

end PhaseExecutors
