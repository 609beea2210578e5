/-!
Borders of a pattern: what of a partial match is still one after the next byte did not fit.
-/

namespace LoadEngine.Search

/-- The longest partial match that survives when a partial match of length `k` meets a byte that
`fits` does not accept behind it. `borders` holds, for each length below, the longest border of the
part of the pattern of that length and one more. -/
def fallback (borders : Array Nat) (fits : Nat → Bool) (k : Nat) : Nat :=
  if k = 0 ∨ fits k then k
  else if h : borders.getD (k - 1) 0 < k then fallback borders fits (borders.getD (k - 1) 0)
  else 0
termination_by k
decreasing_by simpa using h

def extend (borders : Array Nat) (fits : Nat → Bool) (k : Nat) : Nat :=
  let k := fallback borders fits k
  if fits k then k + 1 else k

def extendBorders (pattern : Array UInt8) : Nat → Array Nat → Array Nat
  | 0, table => table
  | rest + 1, table =>
    let fits (k : Nat) : Bool := pattern.getD table.size 0 == pattern.getD k 0
    extendBorders pattern rest (table.push (extend table fits (table.back?.getD 0)))

/-- For each position of a pattern, the length of the longest part from its front, short of the
whole, that also stands at the end of what goes up to that position. -/
def borderTable (pattern : Array UInt8) : Array Nat :=
  if pattern.size = 0 then #[] else extendBorders pattern (pattern.size - 1) #[0]

end LoadEngine.Search
