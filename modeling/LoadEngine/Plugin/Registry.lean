import LoadEngine.Error
import LoadEngine.OrderedMap
import LoadEngine.Text.Quoted

/-!
The plugins that a run can use, by tag. Every shard works with instances of its own.
-/

namespace LoadEngine

structure Registry (α : Type) where
  factories : OrderedMap String α

namespace Registry

variable {α β : Type}

def empty : Registry α := ⟨∅⟩

def contains (r : Registry α) (tag : String) : Bool := r.factories.contains tag

def get? (r : Registry α) (tag : String) : Option α := r.factories.get? tag

def tags (r : Registry α) : List String := r.factories.keys

def register (r : Registry α) (tag : String) (factory : α) :
    Except ConfigError (Registry α) :=
  if r.contains tag then .error (.duplicatePlugin tag)
  else .ok ⟨r.factories.insert tag factory⟩

def instantiate (r : Registry α) (make : α → β) : OrderedMap String β := r.factories.map make

def describe (r : Registry α) : String := Text.quoteList r.tags

end Registry

end LoadEngine
