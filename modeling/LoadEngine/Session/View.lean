import LoadEngine.Session.Basic

/-!
Views of live sessions, for whoever wants to look at a run from outside.
-/

namespace LoadEngine

structure SessionView where
  phase : String
  shard : Nat
  slot : Nat
  generation : Nat
  state : SessionState
  liveBranches : Nat
  outstanding : Nat
deriving DecidableEq, Repr

def Session.view (s : Session) (phase : String) (shard : Nat) : SessionView where
  phase := phase
  shard := shard
  slot := s.slot
  generation := s.generation
  state := s.state
  liveBranches := s.liveBranches
  outstanding := s.outstanding

def SessionView.toJson (v : SessionView) : Json :=
  .obj [("phase", .str v.phase), ("shard", .nat v.shard), ("slot", .nat v.slot),
    ("generation", .nat v.generation), ("state", .str v.state.name),
    ("live_branches", .nat v.liveBranches), ("outstanding", .nat v.outstanding)]

end LoadEngine
