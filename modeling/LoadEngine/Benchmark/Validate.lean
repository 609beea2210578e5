import LoadEngine.Benchmark.Basic

/-!
Which benchmarks can be run: every phase by itself, the names of phases, and the order in which
phases start and in which they terminate, neither of which may go in a circle.
-/

namespace LoadEngine

open Decimal (render)

namespace Strategy

def isFinite (x : Float) : Bool := !x.isNaN && !x.isInf

def fault? : Strategy → Option String
  | always 0 => some "always requires at least one user"
  | sequential 0 => some "sequential requires at least one iteration"
  | strategy =>
    match strategy.rates with
    | none => none
    | some (initial, target) =>
      if !isFinite initial || !isFinite target || initial < 0 || target < 0 then
        some ("rates must be finite and non-negative, got " ++ render initial ++ " -> " ++
          render target)
      else if initial == 0 && target == 0 then some "rate is zero"
      else none

def isNoop : Strategy → Bool
  | noop => true
  | _ => false

end Strategy

namespace Phase

def limitFault? (p : Phase) : Option String :=
  if p.strategy.needsDuration ∧ p.duration = 0 then
    some (p.strategy.label ++ " requires a duration")
  else if p.maxDuration = some 0 then some "max_duration must be positive"
  else if p.maxSessions = some 0 ∧ !p.strategy.isNoop then some "max_sessions must be positive"
  else none

def slaFault? (p : Phase) (sla : Sla) : Option String :=
  match sla.validate with
  | .error reason => some reason
  | .ok () =>
    match sla.metric with
    | none => none
    | some metric =>
      if metric ∈ p.scenario.metrics then none
      else some ("sla refers to unknown metric '" ++ metric ++ "'")

def fault? (p : Phase) : Option String :=
  if p.name = "" then some "phase name is empty"
  else (p.strategy.fault?.orElse fun _ => p.limitFault?).orElse fun _ =>
    p.slas.findSome? p.slaFault?

def validate (p : Phase) : Except ConfigError Unit :=
  match p.fault? with
  | some reason => .error (.invalidPhase p.name reason)
  | none => .ok ()

end Phase

namespace Benchmark

def checkPhases (before : List String) : List Phase → Except ConfigError Unit
  | [] => .ok ()
  | p :: rest => do
    p.validate
    if p.name ∈ before then throw (.duplicatePhase p.name)
    checkPhases (p.name :: before) rest

def resolveNames (b : Benchmark) (phase : String) :
    List String → Except ConfigError (List Nat)
  | [] => .ok []
  | name :: rest =>
    match b.position? name with
    | none => .error (.unknownDependency phase name)
    | some i => do
      let positions ← b.resolveNames phase rest
      pure (i :: positions)

def resolveOrder (b : Benchmark) :
    List Phase → Except ConfigError (List (List Nat) × List (List Nat))
  | [] => .ok ([], [])
  | p :: rest => do
    let start ← b.resolveNames p.name (p.dependsOn.map Dependency.phase)
    let finish ← b.resolveNames p.name p.terminateAfter
    let (starts, terminations) ← b.resolveOrder rest
    pure (start :: starts, finish :: terminations)

def checkOrder (b : Benchmark) (order : List (List Nat)) : Except ConfigError Unit :=
  match (Graph.mk order).findCycle with
  | none => .ok ()
  | some cycle =>
    .error (.dependencyCycle (cycle.map fun i => (b.phases[i]?.map Phase.name).getD ""))

def validate (b : Benchmark) : Except ConfigError Unit := do
  checkPhases [] b.phases
  let (starts, terminations) ← b.resolveOrder b.phases
  b.checkOrder starts
  b.checkOrder terminations

end Benchmark

end LoadEngine
