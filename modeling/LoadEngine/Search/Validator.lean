import LoadEngine.Search.Borders
import LoadEngine.Search.Predicate
import LoadEngine.Json.Decode

/-!
Validators of responses: a byte pattern and a condition on how often it occurs. A response comes in
fragments of any size; a cursor keeps what has to be known about those before.
-/

namespace LoadEngine.Search

/-- What is known about the part of a response seen so far: the length of the pattern's part that
matches at its end, the occurrences found, and its length. -/
structure Cursor where
  «partial» : Nat
  found : Nat
  consumed : Nat
deriving DecidableEq, Repr

def Cursor.start : Cursor := ⟨0, 0, 0⟩

/-- A pattern with its borders and a condition on its occurrences, which do not overlap. -/
structure Validator where
  pattern : Array UInt8
  predicate : Predicate
  borders : Array Nat
  borders_eq : borders = borderTable pattern
deriving DecidableEq, Repr

namespace Validator

def new (pattern : Array UInt8) (predicate : Predicate) : Validator :=
  ⟨pattern, predicate, borderTable pattern, rfl⟩

/-- The length of the partial match after one more byte, and whether it completed an occurrence, in
which case the next one starts behind it. -/
def feedByte (v : Validator) (k : Nat) (byte : UInt8) : Nat × Bool :=
  let k := extend v.borders (fun i => v.pattern[i]? == some byte) k
  if k = v.pattern.size then (0, true) else (k, false)

def scan (v : Validator) (s : Nat × Nat) (byte : UInt8) : Nat × Nat :=
  match v.feedByte s.1 byte with
  | (k, true) => (k, s.2 + 1)
  | (k, false) => (k, s.2)

/-- The cursor after one more fragment. An empty pattern is never found. -/
def feed (v : Validator) (c : Cursor) (fragment : List UInt8) : Cursor :=
  if v.pattern.isEmpty then { c with consumed := c.consumed + fragment.length }
  else
    let (k, found) := fragment.foldl v.scan (c.partial, c.found)
    ⟨k, found, c.consumed + fragment.length⟩

def status (v : Validator) (c : Cursor) : Status := v.predicate.status c.found

def accepts (v : Validator) (c : Cursor) : Bool := v.predicate.test c.found

end Validator

def Predicate.toJson : Predicate → Json
  | exactly n => .obj [("exactly", .nat n)]
  | atLeast n => .obj [("at_least", .nat n)]
  | atMost n => .obj [("at_most", .nat n)]

def Predicate.ofJson? (j : Json) : Option Predicate := do
  let (name, content) ← Json.asVariant j
  let n ← content >>= Json.asNat 32
  match name with
  | "exactly" => some (.exactly n)
  | "at_least" => some (.atLeast n)
  | "at_most" => some (.atMost n)
  | _ => none

def Validator.toJson (v : Validator) : Json :=
  .obj [("pattern", .list (fun b => .nat b.toNat) v.pattern.toList),
    ("predicate", v.predicate.toJson)]

def Validator.ofJson? (j : Json) : Option Validator := do
  let f ← Json.asFields ["pattern", "predicate"] j
  let pattern ← f.required "pattern" (Json.asList (Json.asNat 8))
  let predicate ← f.required "predicate" Predicate.ofJson?
  some (.new (pattern.map UInt8.ofNat).toArray predicate)

end LoadEngine.Search
