import LoadEngine.Error
import LoadEngine.Instances

/-!
Pools of a fixed number of reusable objects. A pool hands out slot numbers; an object keeps its slot
for good and is brought back to its initial state when the slot is released. An exhausted pool is no
error: whoever asked has to wait. Slot numbers have 32 bits: of a pool that was to have more slots
there is only what is left over modulo `2 ^ 32`.
-/

namespace LoadEngine

structure Cell (α : Type) where
  item : α
  held : Bool
deriving DecidableEq, Repr

/-- A pool: its slots, how many it was asked to have, the stack of the free ones, and the lowest and
highest number of slots held since the marks were last reset. -/
structure Pool (α : Type) where
  cells : Array (Cell α)
  asked : Nat
  free : List Nat
  minUsed : Nat
  maxUsed : Nat
deriving DecidableEq, Repr

namespace Pool

variable {α : Type}

/-- The number of slots of a pool that was asked to have `capacity` of them. -/
def numbered (capacity : Nat) : Nat := capacity % 2 ^ 32

def new (capacity : Nat) (item : Nat → α) : Pool α where
  cells := (Array.range (numbered capacity)).map fun i => ⟨item i, false⟩
  asked := capacity
  free := List.range (numbered capacity)
  minUsed := 0
  maxUsed := 0

def capacity (p : Pool α) : Nat := p.cells.size

def available (p : Pool α) : Nat := p.free.length

def outstanding (p : Pool α) : Nat := p.capacity - p.available

def isAcquired (p : Pool α) (slot : Nat) : Bool :=
  match p.cells[slot]? with
  | some cell => cell.held
  | none => false

def mark (p : Pool α) (slot : Nat) (held : Bool) : Array (Cell α) :=
  p.cells.modify slot fun cell => { cell with held }

def acquire (p : Pool α) : Option Nat × Pool α :=
  match p.free with
  | [] => (none, p)
  | slot :: free =>
    let q := { p with cells := p.mark slot true, free }
    (some slot, { q with maxUsed := max q.maxUsed q.outstanding })

/-- Gives a held slot back, its object reset. Any other slot is refused: two owners would come to
share one object. A slot that the pool was asked for but does not have counts as free. -/
def release (reset : α → α) (p : Pool α) (slot : Nat) : Except ContractViolation (Pool α) :=
  match p.cells[slot]? with
  | none =>
    .error (if slot < p.asked then .doubleRelease slot else .slotOutOfRange slot p.capacity)
  | some cell =>
    if cell.held then
      let q := { p with
        cells := p.cells.set! slot ⟨reset cell.item, false⟩
        free := slot :: p.free }
      .ok { q with minUsed := min q.minUsed q.outstanding }
    else .error (.doubleRelease slot)

def get? (p : Pool α) (slot : Nat) : Option α :=
  match p.cells[slot]? with
  | some cell => if cell.held then some cell.item else none
  | none => none

def update (p : Pool α) (slot : Nat) (f : α → α) : Pool α :=
  { p with cells := p.cells.modify slot fun cell =>
      if cell.held then { cell with item := f cell.item } else cell }

def acquired (p : Pool α) : List (Nat × α) :=
  p.cells.toList.zipIdx.filterMap fun (cell, i) => if cell.held then some (i, cell.item) else none

def resetMarks (p : Pool α) : Pool α :=
  { p with minUsed := p.outstanding, maxUsed := p.outstanding }

end Pool

end LoadEngine
