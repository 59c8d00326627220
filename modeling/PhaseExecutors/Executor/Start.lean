import PhaseExecutors.Factory

/-!
Starting the pools of a plan.

A pool starts if its size is in range. The pools of a plan start in order, and the first one that
does not start is the error; an empty heavy lane is refused before anything starts.
-/

namespace PhaseExecutors

namespace PoolSpec

/-- The size is between one and the maximum. -/
def inRange (p : PoolSpec) : Bool := 0 < p.parallelism && p.parallelism ≤ maxPoolParallelism

def start (p : PoolSpec) : Except ExecutorError Unit :=
  if !p.inRange then .error (.build ⟨p.name, .parallelism p.parallelism⟩)
  else if p.name.toList.contains '\x00' then .error (.nulInName (p.name ++ "-0"))
  else .ok ()

def startNote (p : PoolSpec) : LogLine := ⟨.debug, s!"Started pool {p.toText}"⟩

def stopNote (p : PoolSpec) : LogLine := ⟨.debug, s!"Stopped pool {p.toText}"⟩

end PoolSpec

namespace Plan

def startPools : List PoolSpec → Except ExecutorError Unit
  | [] => .ok ()
  | p :: ps => do
    p.start
    startPools ps

/-- Starts the pools; succeeds if an executor can run on the plan. -/
def start (plan : Plan) : Except ExecutorError Unit :=
  match plan with
  | .tieredPriority pool capacity => do
    if capacity = 0 then throw (.build ⟨pool.name, .emptyHeavyLane⟩)
    startPools plan.pools
    if maxPermits < capacity then throw .tooManyPermits
  | .single _ | .multiPool .. => startPools plan.pools

/-- What a successful start logs. -/
def startLog (plan : Plan) : Log :=
  plan.pools.map PoolSpec.startNote ++
    [⟨.info, s!"Started {plan.strategy} executor '{plan.name}' with " ++
      s!"{plan.threads} threads"⟩]

/-- What the end of an executor logs. -/
def stopLog (plan : Plan) : Log := plan.pools.map PoolSpec.stopNote

end Plan

end PhaseExecutors
