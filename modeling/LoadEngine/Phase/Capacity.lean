/-!
Sharing out a capacity and a number of starts over shards.
-/

namespace LoadEngine

abbrev Starts := List (Nat × Nat)

/-- The shares of `n` for `parts` takers: as even as can be, the first ones taking what is over. -/
def share (n parts i : Nat) : Nat := n / parts + if i < n % parts then 1 else 0

def splitCapacity (capacity shards : Nat) : List Nat :=
  (List.range shards).map (share capacity shards)

/-- Shares `count` starts among the takers in turn, from the one at `first` on. Who gets none is
left out. -/
def dealOut (takers : List Nat) (first count : Nat) : Starts :=
  (List.range takers.length).filterMap fun i =>
    match takers[(first + i) % takers.length]? with
    | none => none
    | some taker =>
      let n := share count takers.length i
      if 0 < n then some (taker, n) else none

end LoadEngine
