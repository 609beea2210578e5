import LoadEngine.Decimal.Fixed
import LoadEngine.Histogram.Quantile
import LoadEngine.Json.Decode
import LoadEngine.Statistics.Set

/-!
Service level agreements: limits on the share of failed operations and on response times. They are
checked when a phase is over and never stop it.
-/

namespace LoadEngine

structure PercentileLimit where
  percentile : Float
  responseTime : Nanos

/-- Limits for one metric, or for every metric if none is named. -/
structure Sla where
  metric : Option String
  errorRatio : Option Float
  meanResponseTime : Option Nanos
  percentileLimits : List PercentileLimit

structure SlaFailure where
  metric : String
  message : String
deriving DecidableEq, Repr

namespace PercentileLimit

def isValid (l : PercentileLimit) : Bool := 0 < l.percentile && l.percentile ≤ 100

def violation? (l : PercentileLimit) (h : Histogram) : Option String :=
  let actual := h.percentile l.percentile
  if l.responseTime < actual then
    some ("response time at percentile " ++ Decimal.render l.percentile ++ " exceeded: limit " ++
      Nanos.render l.responseTime ++ ", actual " ++ Nanos.render actual)
  else none

def toJson (l : PercentileLimit) : Json :=
  .obj [("percentile", .ofFloat l.percentile), ("response_time", Json.duration l.responseTime)]

def ofJson? (j : Json) : Option PercentileLimit := do
  let f ← Json.asFields ["percentile", "response_time"] j
  let percentile ← f.required "percentile" Json.asFloat
  let responseTime ← f.required "response_time" Json.asDuration
  some { percentile, responseTime }

end PercentileLimit

namespace Sla

def validate (s : Sla) : Except String Unit :=
  match s.errorRatio.filter (fun ratio => !(0 ≤ ratio && ratio ≤ 1)) with
  | some ratio => .error ("sla error ratio must be within [0, 1], got " ++ Decimal.render ratio)
  | none =>
    match s.percentileLimits.find? fun l => !l.isValid with
    | some l =>
      .error ("sla percentile must be within (0, 100], got " ++ Decimal.render l.percentile)
    | none => .ok ()

def ratioViolation? (s : Sla) (snapshot : Snapshot) : Option String := do
  let limit ← s.errorRatio
  if snapshot.requests = 0 then none
  else
    let actual := Decimal.ofCount snapshot.failures / Decimal.ofCount snapshot.requests
    if limit < actual then
      some ("error ratio exceeded: limit " ++ Decimal.renderFixed 3 limit ++ ", actual " ++
        Decimal.renderFixed 3 actual)
    else none

def meanViolation? (s : Sla) (h : Histogram) : Option String := do
  let limit ← s.meanResponseTime
  let actual := Decimal.toCount h.mean
  if limit < actual then
    some ("mean response time exceeded: limit " ++ Nanos.render limit ++ ", actual " ++
      Nanos.render actual)
  else none

/-- The first limit that a metric exceeds: the error ratio, then the mean, then the percentiles in
order. Without a recorded response only the error ratio is looked at. -/
def violation? (s : Sla) (snapshot : Snapshot) : Option String :=
  (s.ratioViolation? snapshot).orElse fun _ =>
    if snapshot.histogram.isEmpty then none
    else
      (s.meanViolation? snapshot.histogram).orElse fun _ =>
        s.percentileLimits.findSome? fun l => l.violation? snapshot.histogram

def covers (s : Sla) (metric : String) : Bool := s.metric.all fun name => name == metric

def check (s : Sla) (statistics : StatisticsSet) : List SlaFailure :=
  statistics.toList.filterMap fun (metric, snapshot) =>
    if s.covers metric then (s.violation? snapshot).map fun message => ⟨metric, message⟩ else none

def toJson (s : Sla) : Json :=
  .obj [("metric", .option .str s.metric), ("error_ratio", .option .ofFloat s.errorRatio),
    ("mean_response_time", .option Json.duration s.meanResponseTime),
    ("percentile_limits", .list PercentileLimit.toJson s.percentileLimits)]

def ofJson? (j : Json) : Option Sla := do
  let f ← Json.asFields ["metric", "error_ratio", "mean_response_time", "percentile_limits"] j
  let metric ← f.optional "metric" Json.asString
  let errorRatio ← f.optional "error_ratio" Json.asFloat
  let meanResponseTime ← f.optional "mean_response_time" Json.asDuration
  let percentileLimits ←
    f.withDefault "percentile_limits" [] (Json.asList PercentileLimit.ofJson?)
  some { metric, errorRatio, meanResponseTime, percentileLimits }

end Sla

namespace SlaFailure

def toJson (s : SlaFailure) : Json := .obj [("metric", .str s.metric), ("message", .str s.message)]

def ofJson? (j : Json) : Option SlaFailure := do
  let f ← Json.asFields ["metric", "message"] j
  let metric ← f.required "metric" Json.asString
  let message ← f.required "message" Json.asString
  some { metric, message }

end SlaFailure

end LoadEngine
