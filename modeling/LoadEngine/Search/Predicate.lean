/-!
Conditions on the number of times that something occurs in a response, and where a response stands
while only a part of it has arrived.
-/

namespace LoadEngine.Search

inductive Predicate where
  | exactly (n : Nat)
  | atLeast (n : Nat)
  | atMost (n : Nat)
deriving DecidableEq, Repr

/-- What the data seen so far says about the whole. -/
inductive Status where
  | satisfied
  | pending
  | unsatisfiable
deriving DecidableEq, Repr

def Status.name : Status → String
  | satisfied => "Satisfied"
  | pending => "Pending"
  | unsatisfiable => "Unsatisfiable"

def Predicate.test : Predicate → Nat → Bool
  | exactly n, count => count == n
  | atLeast n, count => n ≤ count
  | atMost n, count => count ≤ n

def Predicate.exceeded : Predicate → Nat → Bool
  | exactly n, count => n < count
  | atLeast _, _ => false
  | atMost n, count => n < count

/-- Where a response stands after `count` occurrences, when more may follow but none goes away. -/
def Predicate.status (p : Predicate) (count : Nat) : Status :=
  if p.exceeded count then .unsatisfiable
  else if p.test count then .satisfied
  else .pending

end LoadEngine.Search
