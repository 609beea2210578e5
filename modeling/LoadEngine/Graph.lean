import LoadEngine.OrderedMap

/-!
Weights of the nodes of a directed graph: the weight of a node is its own cost and the weights of
its successors, each counted as often as it is one. A node from which a cycle can be reached has no
weight; the search for it finds such a cycle.
-/

namespace LoadEngine

/-- A directed graph on the numbers below the length of the list of its nodes' successors. -/
structure Graph where
  successors : List (List Nat)
deriving DecidableEq, Repr

namespace Graph

def size (g : Graph) : Nat := g.successors.length

def next (g : Graph) (node : Nat) : List Nat := g.successors.getD node []

abbrev Weights := OrderedMap Nat Nat

def closeCycle (path : List Nat) (node : Nat) : List Nat :=
  path.dropWhile (fun p => p != node) ++ [node]

/-- The weight of `node`, reached along `path`, or the first cycle that the search meets. A path
without repetition cannot be longer than there are nodes, so `size` steps are enough. -/
def visit (g : Graph) (cost : Nat → Nat) :
    Nat → List Nat → Weights → Nat → Except (List Nat) (Nat × Weights)
  | room, path, known, node =>
    match known.get? node with
    | some weight => .ok (weight, known)
    | none =>
      if node ∈ path then .error (closeCycle path node)
      else
        match room with
        | 0 => .error (closeCycle path node)
        | room + 1 => do
          let (weight, known) ← (g.next node).foldlM (fun (sum, known) successor => do
            let (weight, known) ← visit g cost room (path ++ [node]) known successor
            pure (sum + weight, known)) (cost node, known)
          pure (weight, known.insert node weight)

def weigh (g : Graph) (cost : Nat → Nat) (nodes : List Nat) :
    Except (List Nat) (Nat × Weights) :=
  nodes.foldlM (fun (sum, known) node => do
    let (weight, known) ← g.visit cost g.size [] known node
    pure (sum + weight, known)) (0, ∅)

def findCycle (g : Graph) : Option (List Nat) :=
  match g.weigh (fun _ => 0) (List.range g.size) with
  | .ok _ => none
  | .error cycle => some cycle

end Graph

end LoadEngine
