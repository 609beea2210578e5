import LoadEngine.Json.Basic
import LoadEngine.Duration

/-!
Reading parts of the engine's own data out of values. A reader gives `none` for a value of the wrong
shape: there is no conversion between kinds, and a fraction is never a whole number.
-/

namespace LoadEngine.Json

abbrev Reader (α : Type) := Json → Option α

def asBool : Reader Bool
  | .bool b => some b
  | _ => none

def asString : Reader String
  | .str s => some s
  | _ => none

def asIntWithin (low high : Int) : Reader Int
  | .int n => if low ≤ n ∧ n ≤ high then some n else none
  | _ => none

def asNat (bits : Nat) (j : Json) : Option Nat :=
  (asIntWithin 0 (2 ^ bits - 1) j).map Int.toNat

def asInt : Reader Int := asIntWithin (-2 ^ 63) (2 ^ 63 - 1)

def asFloat : Reader Float
  | .int n => some (if n < 0 then -n.natAbs.toUInt64.toFloat else n.natAbs.toUInt64.toFloat)
  | .float x => some x
  | _ => none

def field? (j : Json) (name : String) : Option Json :=
  match j with
  | .obj fields =>
    match fields.lookup name with
    | some .null => none
    | x => x
  | _ => none

def hasFlag (j : Json) (name : String) : Bool := (field? j name >>= asBool).getD false

def asList {α : Type} (read : Reader α) : Reader (List α)
  | .arr items => items.mapM read
  | _ => none

def asNullable {α : Type} (read : Reader α) : Reader (Option α)
  | .null => some none
  | j => (read j).map some

abbrev Fields := String → Option Json

/-- A record is written with its fields by name, where other names are passed over, or as the list
of its fields in the order of `names`, where fields at the end may be left out. -/
def asFields (names : List String) : Reader Fields
  | .obj fields => some fun name => fields.lookup name
  | .arr items =>
    if items.length ≤ names.length then some fun name => (names.zip items).lookup name else none
  | _ => none

/-- A record of one of several kinds: its kind and its other fields. It is written by name, with the
kind in the field `kind`, or as a list of the kind and the fields in the order of `names`. -/
def asKind (names : String → List String) : Reader (String × Fields)
  | .obj fields => do
    let kind ← fields.lookup "kind" >>= asString
    some (kind, fun name => fields.lookup name)
  | .arr (first :: rest) => do
    let kind ← asString first
    let fields ← asFields (names kind) (.arr rest)
    some (kind, fields)
  | _ => none

def asNamed : Reader Fields
  | .obj fields => some fun name => fields.lookup name
  | _ => none

def Fields.required {α : Type} (f : Fields) (name : String) (read : Reader α) : Option α :=
  f name >>= read

def Fields.withDefault {α : Type} (f : Fields) (name : String) (default : α) (read : Reader α) :
    Option α :=
  match f name with
  | none => some default
  | some j => read j

def Fields.optional {α : Type} (f : Fields) (name : String) (read : Reader α) :
    Option (Option α) :=
  f.withDefault name none (asNullable read)

def asVariant : Reader (String × Option Json)
  | .str s => some (s, none)
  | .obj [(name, content)] => some (name, some content)
  | _ => none

def asUnitVariant (j : Json) : Option String :=
  match asVariant j with
  | some (name, none) => some name
  | some (name, some .null) => some name
  | _ => none

def asEnum {α : Type} (ofName : String → Option α) (j : Json) : Option α :=
  asUnitVariant j >>= ofName

/-- A length of time: seconds and nanoseconds, where whole seconds among the nanoseconds carry over.
No other field is let pass, and the seconds have to stay within 64 bits. -/
def asDuration (j : Json) : Option Nanos := do
  if let .obj fields := j then
    if fields.any fun field => field.1 != "secs" && field.1 != "nanos" then failure
  let f ← asFields ["secs", "nanos"] j
  let secs ← f.required "secs" (asNat 64)
  let nanos ← f.required "nanos" (asNat 32)
  let total := Nanos.ofSeconds secs + nanos
  if total.seconds < 2 ^ 64 then some total else none

def duration (d : Nanos) : Json :=
  .obj [("secs", .nat d.seconds), ("nanos", .nat d.subsecond)]

end LoadEngine.Json
