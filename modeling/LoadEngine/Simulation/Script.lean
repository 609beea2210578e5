import LoadEngine.Json.Bytes
import LoadEngine.Json.Decode
import LoadEngine.Simulation.Service

/-!
Scripted services: every operation tells by its payload how it is answered. A payload is one
response, or a script of responses that the service goes through over and over again.
-/

namespace LoadEngine

namespace Response

def fieldOr {α : Type} (j : Json) (name : String) (default : α) (read : Json.Reader α) :
    Option α :=
  match j.field? name with
  | some x => read x
  | none => some default

def ofJson? (j : Json) : Option Response := do
  let early ← fieldOr j "early" [] (Json.asList Json.asBytes)
  let data ← fieldOr j "data" [] (Json.asList Json.asBytes)
  let after ← fieldOr j "ms" 0 (Json.asNat 64)
  let completion ← fieldOr j "result" .success fun r => Json.asString r >>= Completion.ofName?
  let ending := if j.hasFlag "panic" then Ending.crash
    else if j.hasFlag "drop" then .forget
    else if j.hasFlag "hold" then .hold
    else .answer after data completion
  some ⟨early, ending⟩

/-- The response to an operation behind `n` others. A payload that describes none stands for a
success at once. -/
def ofPayload (n : Nat) (payload : Json) : Response :=
  let described := match payload.field? "script" with
    | some (.arr script) => (script[n % script.length]?).getD .null
    | _ => payload
  (ofJson? described).getD immediate

end Response

def Connection.onShard (c : Connection) (shard : Nat) : Connection :=
  { c with min := c.min + shard }

def Service.scripted (connecting : Nat) (refused : Option Nat) (reason : String)
    (connections : List Connection) : Service where
  connecting := connecting
  refusal shard := if refused = some shard then some reason else none
  connections shard := connections.map fun c => c.onShard shard
  respond := Response.ofPayload

end LoadEngine
