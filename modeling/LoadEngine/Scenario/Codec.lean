import LoadEngine.Scenario.Resolve

/-!
The written form of scenarios. A scenario is written as its draft and read by building the draft
again.
-/

namespace LoadEngine

open Json (asFields asNamed asVariant asEnum asList asString asInt asBool asDuration)

namespace Scope

def name : Scope → String
  | session => "session"
  | branch => "branch"

def ofName? : String → Option Scope
  | "session" => some session
  | "branch" => some branch
  | _ => none

end Scope

namespace Action

def toJson : Action String → Json
  | setInt var value => .obj [("set_int", .obj [("var", .str var), ("value", .int value)])]
  | addInt var delta => .obj [("add_int", .obj [("var", .str var), ("delta", .int delta)])]
  | setText var value => .obj [("set_text", .obj [("var", .str var), ("value", .str value)])]
  | unset var => .obj [("unset", .obj [("var", .str var)])]
  | log message => .obj [("log", .obj [("message", .str message)])]

def ofJson? (j : Json) : Option (Action String) := do
  let (name, content) ← asVariant j
  let f ← content >>= asNamed
  match name with
  | "set_int" => some (.setInt (← f.required "var" asString) (← f.required "value" asInt))
  | "add_int" => some (.addInt (← f.required "var" asString) (← f.required "delta" asInt))
  | "set_text" => some (.setText (← f.required "var" asString) (← f.required "value" asString))
  | "unset" => some (.unset (← f.required "var" asString))
  | "log" => some (.log (← f.required "message" asString))
  | _ => none

end Action

namespace Declaration

def toJson (d : Declaration) : Json :=
  .obj [("name", .str d.name), ("kind", .str d.kind.name), ("scope", .str d.scope.name)]

def ofJson? (j : Json) : Option Declaration := do
  let f ← asFields ["name", "kind", "scope"] j
  let name ← f.required "name" asString
  let kind ← f.required "kind" (asEnum VariableKind.ofName?)
  let scope ← f.withDefault "scope" .session (asEnum Scope.ofName?)
  some { name, kind, scope }

end Declaration

namespace Operation

def toJson (op : Operation Search.Validator) : Json :=
  .obj [("plugin", .str op.plugin), ("metric", .str op.metric), ("payload", op.payload),
    ("timeout", Json.duration op.timeout), ("fatal", .bool op.fatal),
    ("validators", .list Search.Validator.toJson op.validators)]

def ofJson? (j : Json) : Option (Operation Search.Validator) := do
  let f ← asFields ["plugin", "metric", "payload", "timeout", "fatal", "validators"] j
  let plugin ← f.required "plugin" asString
  let metric ← f.required "metric" asString
  let payload ← f.withDefault "payload" .null some
  let timeout ← f.withDefault "timeout" defaultTimeout asDuration
  let fatal ← f.withDefault "fatal" true asBool
  let validators ← f.withDefault "validators" [] (asList Search.Validator.ofJson?)
  some { plugin, metric, payload, timeout, fatal, validators }

end Operation

namespace Draft

namespace Step

def toJson : Step → Json
  | action a => .obj [("action", a.toJson)]
  | operation op => .obj [("operation", op.toJson)]
  | declare d => .obj [("declare", d.toJson)]
  | fork names => .obj [("fork", .list .str names)]
  | join => .str "join"
  | delay d => .obj [("delay", Json.duration d)]

def ofJson? (j : Json) : Option Step := do
  match ← asVariant j with
  | ("action", some content) => (Action.ofJson? content).map action
  | ("operation", some content) => (Operation.ofJson? content).map operation
  | ("declare", some content) => (Declaration.ofJson? content).map declare
  | ("fork", some content) => (asList asString content).map fork
  | ("join", none) => some join
  | ("join", some .null) => some join
  | ("delay", some content) => (asDuration content).map delay
  | _ => none

end Step

namespace Sequence

def toJson (s : Sequence) : Json :=
  .obj [("name", .str s.name), ("steps", .list Step.toJson s.steps)]

def ofJson? (j : Json) : Option Sequence := do
  let f ← asFields ["name", "steps"] j
  let name ← f.required "name" asString
  let steps ← f.required "steps" (asList Step.ofJson?)
  some { name, steps }

end Sequence

def toJson (d : Draft) : Json :=
  .obj [("initial", .list .str d.initial), ("sequences", .list Sequence.toJson d.sequences)]

def ofJson? (j : Json) : Option Draft := do
  let f ← asFields ["initial", "sequences"] j
  let initial ← f.required "initial" (asList asString)
  let sequences ← f.required "sequences" (asList Sequence.ofJson?)
  some { initial, sequences }

end Draft

namespace Scenario

def toJson (s : Scenario) : Json := s.draft.toJson

def ofJson? (j : Json) : Option Scenario := do
  match (← Draft.ofJson? j).build with
  | .ok s => some s
  | .error _ => none

end Scenario

end LoadEngine
