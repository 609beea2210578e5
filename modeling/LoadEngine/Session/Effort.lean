import LoadEngine.Session.Basic

/-!
How much a session still has to do. Every step that a branch takes makes its session's effort
smaller, so a session comes to rest.
-/

namespace LoadEngine

namespace Scenario

def stepEffort (s : Scenario) (step : Step Variable) : Nat :=
  (step.forks.map s.effort).sum + 1

def effortFrom (s : Scenario) (sequence position : Nat) : Nat :=
  match s.sequences[sequence]? with
  | some sequence => ((sequence.steps.drop position).map s.stepEffort).sum + 1
  | none => 1

end Scenario

def Branch.effort (scenario : Scenario) (b : Branch) : Nat :=
  match b.wait with
  | .done => 0
  | .runnable => scenario.effortFrom b.sequence b.step
  | .operation _ _ | .join | .delay _ => scenario.effortFrom b.sequence (b.step + 1)

def Session.effort (scenario : Scenario) (s : Session) : Nat :=
  (s.branches.map (Branch.effort scenario)).sum

end LoadEngine
