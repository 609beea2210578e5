import LoadEngine.Session.Events

/-!
Rehearsals: a session on its own, driven by hand. Everything that it asks for is kept, so that it
can be answered at any later time, or more than once.
-/

namespace LoadEngine

structure Rehearsal where
  stage : Stage
  turn : Turn
  issued : List (Operation BoundValidator × Tag)
  timers : List Timer

namespace Rehearsal

def new (scenario : Scenario) (phase slot capacity : Nat) : Rehearsal where
  stage := ⟨scenario, phase, 0⟩
  turn := ⟨.new scenario slot, .new capacity fun _ => .blank, .empty .default, []⟩
  issued := []
  timers := []

def issues (effects : List Effect) : List (Operation BoundValidator × Tag) :=
  effects.filterMap fun
    | .issue operation tag => some (operation, tag)
    | .schedule _ => none

def schedules (effects : List Effect) : List Timer :=
  effects.filterMap fun
    | .schedule timer => some timer
    | .issue _ _ => none

def after (r : Rehearsal) (t : Turn) : Rehearsal :=
  { r with
    turn := { t with effects := [] }
    issued := r.issued ++ issues t.effects
    timers := r.timers ++ schedules t.effects }

def wait (r : Rehearsal) (duration : Nanos) : Rehearsal :=
  { r with stage := { r.stage with now := r.stage.now + duration } }

end Rehearsal

end LoadEngine
