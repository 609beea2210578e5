import LoadEngine.Report.Basic

/-!
The written form of reports.
-/

namespace LoadEngine

open Json (asFields asKind asEnum asList asString asNat asFloat asDuration)

namespace Percentile

def toJson (p : Percentile) : Json :=
  .obj [("percentile", .ofFloat p.percentile), ("latency", Json.duration p.latency)]

def ofJson? (j : Json) : Option Percentile := do
  let f ← asFields ["percentile", "latency"] j
  let percentile ← f.required "percentile" asFloat
  let latency ← f.required "latency" asDuration
  some { percentile, latency }

end Percentile

namespace Summary

def fieldNames : List String :=
  ["requests", "responses", "successes", "invalid", "connection_errors", "timeouts",
    "internal_errors", "success_ratio", "min", "mean", "stddev", "max", "percentiles"]

def toJson (s : Summary) : Json :=
  .obj (fieldNames.zip [
    .nat s.requests, .nat s.responses, .nat s.successes, .nat s.invalid, .nat s.connectionErrors,
    .nat s.timeouts, .nat s.internalErrors, .ofFloat s.successRatio, Json.duration s.min,
    Json.duration s.mean, Json.duration s.deviation, Json.duration s.max,
    .list Percentile.toJson s.percentiles])

def ofJson? (j : Json) : Option Summary := do
  let f ← asFields fieldNames j
  let requests ← f.required "requests" (asNat 64)
  let responses ← f.required "responses" (asNat 64)
  let successes ← f.required "successes" (asNat 64)
  let invalid ← f.required "invalid" (asNat 64)
  let connectionErrors ← f.required "connection_errors" (asNat 64)
  let timeouts ← f.required "timeouts" (asNat 64)
  let internalErrors ← f.required "internal_errors" (asNat 64)
  let successRatio ← f.required "success_ratio" asFloat
  let min ← f.required "min" asDuration
  let mean ← f.required "mean" asDuration
  let deviation ← f.required "stddev" asDuration
  let max ← f.required "max" asDuration
  let percentiles ← f.required "percentiles" (asList Percentile.ofJson?)
  some { requests, responses, successes, invalid, connectionErrors, timeouts, internalErrors,
         successRatio, min, mean, deviation, max, percentiles }

end Summary

namespace PhaseReport

def fieldNames : List String :=
  ["name", "status", "strategy", "duration", "sessions", "max_sessions_used", "statistics",
    "sla_failures"]

def asSummaries : Json → Option (OrderedMap String Summary)
  | .obj fields => do
    let summaries ← fields.mapM fun (metric, j) => (Summary.ofJson? j).map (metric, ·)
    some (OrderedMap.ofList summaries)
  | _ => none

def toJson (r : PhaseReport) : Json :=
  .obj (fieldNames.zip [
    .str r.name, .str r.status.name, .str r.strategy, Json.duration r.duration,
    r.sessions.toJson, .nat r.maxSessionsUsed,
    .obj (r.statistics.toList.map fun (metric, s) => (metric, s.toJson)),
    .list SlaFailure.toJson r.slaFailures])

def ofJson? (j : Json) : Option PhaseReport := do
  let f ← asFields fieldNames j
  let name ← f.required "name" asString
  let status ← f.required "status" (asEnum PhaseStatus.ofName?)
  let strategy ← f.required "strategy" asString
  let duration ← f.required "duration" asDuration
  let sessions ← f.required "sessions" SessionCounters.ofJson?
  let maxSessionsUsed ← f.required "max_sessions_used" (asNat 64)
  let statistics ← f.required "statistics" asSummaries
  let slaFailures ← f.withDefault "sla_failures" [] (asList SlaFailure.ofJson?)
  some { name, status, strategy, duration, sessions, maxSessionsUsed, statistics, slaFailures }

end PhaseReport

namespace RunOutcome

def toJson : RunOutcome → Json
  | completed => .obj [("kind", .str "completed")]
  | aborted reason => .obj [("kind", .str "aborted"), ("reason", .str reason)]

def fieldNames : String → List String
  | "aborted" => ["reason"]
  | _ => []

def ofJson? (j : Json) : Option RunOutcome := do
  let (kind, f) ← asKind fieldNames j
  match kind with
  | "completed" => some .completed
  | "aborted" => some (.aborted (← f.required "reason" asString))
  | _ => none

end RunOutcome

namespace RunReport

def toJson (r : RunReport) : Json :=
  .obj [("name", .str r.name), ("outcome", r.outcome.toJson),
    ("duration", Json.duration r.duration), ("phases", .list PhaseReport.toJson r.phases)]

def ofJson? (j : Json) : Option RunReport := do
  let f ← asFields ["name", "outcome", "duration", "phases"] j
  let name ← f.required "name" asString
  let outcome ← f.required "outcome" RunOutcome.ofJson?
  let duration ← f.required "duration" asDuration
  let phases ← f.required "phases" (asList PhaseReport.ofJson?)
  some { name, outcome, duration, phases }

end RunReport

end LoadEngine
