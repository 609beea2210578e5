import LoadEngine.Json.Basic

/-!
What plugins tell about the health of their connections.
-/

namespace LoadEngine

structure Connection where
  authority : String
  tag : String
  min : Nat
  max : Nat
deriving DecidableEq, Repr

structure ConnectionStats extends Connection where
  shard : Nat
  plugin : String
deriving DecidableEq, Repr

def ConnectionStats.toJson (s : ConnectionStats) : Json :=
  .obj [("shard", .nat s.shard), ("plugin", .str s.plugin), ("authority", .str s.authority),
    ("tag", .str s.tag), ("min", .nat s.min), ("max", .nat s.max)]

end LoadEngine
