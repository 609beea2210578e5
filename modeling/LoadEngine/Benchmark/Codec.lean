import LoadEngine.Benchmark.Basic
import LoadEngine.Scenario.Codec

/-!
The written form of benchmarks. All fields are written; those with a default may be left out.
-/

namespace LoadEngine

open Json (asFields asKind asEnum asList asString asNat asFloat asBool asDuration)

namespace Strategy

def toJson (s : Strategy) : Json :=
  let fields : List (String × Json) := match s with
    | atOnce users | always users => [("users", .nat users)]
    | constantRate rate catchUp => [("users_per_sec", .ofFloat rate), ("catch_up", .bool catchUp)]
    | rampRate initial target catchUp =>
      [("initial_users_per_sec", .ofFloat initial), ("target_users_per_sec", .ofFloat target),
        ("catch_up", .bool catchUp)]
    | sequential iterations => [("iterations", .nat iterations)]
    | noop => []
  .obj (("kind", .str s.label) :: fields)

def fieldNames : String → List String
  | "at_once" | "always" => ["users"]
  | "constant_rate" => ["users_per_sec", "catch_up"]
  | "ramp_rate" => ["initial_users_per_sec", "target_users_per_sec", "catch_up"]
  | "sequential" => ["iterations"]
  | _ => []

def ofJson? (j : Json) : Option Strategy := do
  let (kind, f) ← asKind fieldNames j
  match kind with
  | "at_once" => some (.atOnce (← f.required "users" (asNat 64)))
  | "always" => some (.always (← f.required "users" (asNat 64)))
  | "constant_rate" =>
    some (.constantRate (← f.required "users_per_sec" asFloat)
      (← f.withDefault "catch_up" false asBool))
  | "ramp_rate" =>
    some (.rampRate (← f.required "initial_users_per_sec" asFloat)
      (← f.required "target_users_per_sec" asFloat)
      (← f.withDefault "catch_up" false asBool))
  | "sequential" => some (.sequential (← f.required "iterations" (asNat 64)))
  | "noop" => some .noop
  | _ => none

end Strategy

namespace Progress

def name : Progress → String
  | finished => "finished"
  | terminated => "terminated"

def ofName? : String → Option Progress
  | "finished" => some finished
  | "terminated" => some terminated
  | _ => none

end Progress

namespace Dependency

def toJson (d : Dependency) : Json :=
  .obj [("phase", .str d.phase), ("until", .str d.progress.name)]

def ofJson? (j : Json) : Option Dependency := do
  let f ← asFields ["phase", "until"] j
  let phase ← f.required "phase" asString
  let progress ← f.withDefault "until" .terminated (asEnum Progress.ofName?)
  some { phase, progress }

end Dependency

namespace Phase

def fieldNames : List String :=
  ["name", "scenario", "strategy", "duration", "max_duration", "max_iterations", "max_sessions",
    "depends_on", "start_delay", "terminate_after", "slas"]

def toJson (p : Phase) : Json :=
  .obj (fieldNames.zip [
    .str p.name, p.scenario.toJson, p.strategy.toJson, Json.duration p.duration,
    .option Json.duration p.maxDuration, .option .nat p.maxIterations,
    .option .nat p.maxSessions, .list Dependency.toJson p.dependsOn,
    .option Json.duration p.startDelay, .list .str p.terminateAfter, .list Sla.toJson p.slas])

def ofJson? (j : Json) : Option Phase := do
  let f ← asFields fieldNames j
  let name ← f.required "name" asString
  let scenario ← f.required "scenario" Scenario.ofJson?
  let strategy ← f.required "strategy" Strategy.ofJson?
  let duration ← f.withDefault "duration" 0 asDuration
  let maxDuration ← f.optional "max_duration" asDuration
  let maxIterations ← f.optional "max_iterations" (asNat 64)
  let maxSessions ← f.optional "max_sessions" (asNat 64)
  let dependsOn ← f.withDefault "depends_on" [] (asList Dependency.ofJson?)
  let startDelay ← f.optional "start_delay" asDuration
  let terminateAfter ← f.withDefault "terminate_after" [] (asList asString)
  let slas ← f.withDefault "slas" [] (asList Sla.ofJson?)
  some { name, scenario, strategy, duration, maxDuration, maxIterations, maxSessions, dependsOn,
         startDelay, terminateAfter, slas }

end Phase

namespace Benchmark

def toJson (b : Benchmark) : Json :=
  .obj [("name", .str b.name), ("phases", .list Phase.toJson b.phases)]

def ofJson? (j : Json) : Option Benchmark := do
  let f ← asFields ["name", "phases"] j
  let name ← f.required "name" asString
  let phases ← f.required "phases" (asList Phase.ofJson?)
  some { name, phases }

end Benchmark

end LoadEngine
