import LoadEngine.Instances

/-!
Finite maps whose entries are listed in increasing order of key, so two maps with the same
bindings are equal.
-/

namespace LoadEngine

universe u v w

/-- A finite map, as the list of its bindings in increasing order of key. -/
structure OrderedMap (κ : Type u) (α : Type v) [LT κ] where
  toList : List (κ × α)
  sorted : toList.Pairwise (fun x y => x.1 < y.1)

namespace OrderedMap

variable {κ : Type u} {α : Type v} {β : Type w} [LT κ]

instance [DecidableEq κ] [DecidableEq α] : DecidableEq (OrderedMap κ α) := fun x y =>
  decidable_of_iff (x.toList = y.toList) ⟨fun h => by cases x; cases y; simp_all, fun h => h ▸ rfl⟩

instance [BEq κ] [BEq α] : BEq (OrderedMap κ α) := ⟨fun x y => x.toList == y.toList⟩

def empty : OrderedMap κ α := ⟨[], .nil⟩

instance : EmptyCollection (OrderedMap κ α) := ⟨empty⟩

instance : Inhabited (OrderedMap κ α) := ⟨empty⟩

def size (m : OrderedMap κ α) : Nat := m.toList.length

def keys (m : OrderedMap κ α) : List κ := m.toList.map (·.1)

def values (m : OrderedMap κ α) : List α := m.toList.map (·.2)

def get? [BEq κ] (m : OrderedMap κ α) (k : κ) : Option α := m.toList.lookup k

def contains [BEq κ] (m : OrderedMap κ α) (k : κ) : Bool := (m.get? k).isSome

def updateEntries [DecidableLT κ] (k : κ) (f : Option α → α) : List (κ × α) → List (κ × α)
  | [] => [(k, f none)]
  | (j, a) :: rest =>
    if k < j then (k, f none) :: (j, a) :: rest
    else if j < k then (j, a) :: updateEntries k f rest
    else (j, f (some a)) :: rest

theorem updateEntries_cons [DecidableLT κ] (k j : κ) (f : Option α → α) (a : α)
    (rest : List (κ × α)) : updateEntries k f ((j, a) :: rest) =
      if k < j then (k, f none) :: (j, a) :: rest
      else if j < k then (j, a) :: updateEntries k f rest
      else (j, f (some a)) :: rest := rfl

theorem mem_updateEntries [DecidableLT κ] {k : κ} {f : Option α → α} {l : List (κ × α)}
    {x : κ × α} (h : x ∈ updateEntries k f l) : x.1 = k ∨ x.1 ∈ l.map (·.1) := by
  induction l with
  | nil => exact .inl (congrArg Prod.fst (List.mem_singleton.1 h))
  | cons e rest ih =>
    obtain ⟨j, a⟩ := e
    rw [updateEntries_cons] at h
    split at h
    · rcases List.mem_cons.1 h with rfl | h
      · exact .inl rfl
      · exact .inr (List.mem_map_of_mem h)
    · split at h
      · rcases List.mem_cons.1 h with rfl | h
        · simp
        · rcases ih h with h | h
          · exact .inl h
          · exact .inr (by simp_all)
      · rcases List.mem_cons.1 h with rfl | h
        · simp
        · exact .inr (List.mem_cons_of_mem _ (List.mem_map_of_mem h))

theorem sorted_updateEntries [DecidableLT κ] [Trans (α := κ) (· < ·) (· < ·) (· < ·)]
    {k : κ} {f : Option α → α} {l : List (κ × α)} (h : l.Pairwise (fun x y => x.1 < y.1)) :
    (updateEntries k f l).Pairwise (fun x y => x.1 < y.1) := by
  induction l with
  | nil => exact List.pairwise_singleton _ _
  | cons e rest ih =>
    obtain ⟨j, a⟩ := e
    rw [List.pairwise_cons] at h
    rw [updateEntries_cons]
    split
    · rename_i hk
      refine List.pairwise_cons.2 ⟨fun y hy => ?_, List.pairwise_cons.2 h⟩
      rcases List.mem_cons.1 hy with rfl | hy
      · exact hk
      · exact Trans.trans (r := ((· < ·) : κ → κ → Prop)) hk (h.1 y hy)
    · split
      · rename_i hj
        refine List.pairwise_cons.2 ⟨fun y hy => ?_, ih h.2⟩
        rcases mem_updateEntries hy with hy | hy
        · exact hy ▸ hj
        · obtain ⟨z, hz, hzy⟩ := List.mem_map.1 hy
          exact hzy ▸ h.1 z hz
      · exact List.pairwise_cons.2 ⟨fun y hy => h.1 y hy, h.2⟩

def update [DecidableLT κ] [Trans (α := κ) (· < ·) (· < ·) (· < ·)]
    (m : OrderedMap κ α) (k : κ) (f : Option α → α) : OrderedMap κ α :=
  ⟨updateEntries k f m.toList, sorted_updateEntries m.sorted⟩

def insert [DecidableLT κ] [Trans (α := κ) (· < ·) (· < ·) (· < ·)]
    (m : OrderedMap κ α) (k : κ) (a : α) : OrderedMap κ α :=
  m.update k fun _ => a

def ofList [DecidableLT κ] [Trans (α := κ) (· < ·) (· < ·) (· < ·)]
    (l : List (κ × α)) : OrderedMap κ α :=
  l.foldl (fun m e => m.insert e.1 e.2) ∅

def map (f : α → β) (m : OrderedMap κ α) : OrderedMap κ β :=
  ⟨m.toList.map fun e => (e.1, f e.2), by
    rw [List.pairwise_map]; exact m.sorted⟩

theorem ext {x y : OrderedMap κ α} (h : x.toList = y.toList) : x = y := by
  cases x; cases y; simp_all

end OrderedMap

end LoadEngine
