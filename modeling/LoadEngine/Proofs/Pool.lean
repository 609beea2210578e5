import LoadEngine.Pool
import Mathlib.Data.List.Nodup
import Mathlib.Tactic.Lemma

/-! What the operations of a pool do to its held slots. A sound pool lists just its free slots on
its stack, each once; then the held slots with their objects can be followed as a list up to
order. -/

namespace LoadEngine.Pool

open List (Perm)

variable {α : Type} {p q : Pool α} {slot : Nat}

def item? (p : Pool α) (slot : Nat) : Option α := p.cells[slot]?.map Cell.item

structure Sound (p : Pool α) : Prop where
  nodup : p.free.Nodup
  free_iff : ∀ slot, slot ∈ p.free ↔ (p.item? slot).isSome ∧ p.isAcquired slot = false

lemma get?_eq_some {a : α} :
    p.get? slot = some a ↔ p.isAcquired slot = true ∧ p.item? slot = some a := by
  unfold get? isAcquired item?
  cases p.cells[slot]? with
  | none => simp
  | some cell => cases hheld : cell.held <;> simp [hheld]

lemma isAcquired_iff : p.isAcquired slot = true ↔ ∃ a, p.get? slot = some a := by
  unfold get? isAcquired
  cases p.cells[slot]? with
  | none => simp
  | some cell => cases hheld : cell.held <;> simp [hheld]

lemma mem_acquired {a : α} : (slot, a) ∈ p.acquired ↔ p.get? slot = some a := by
  unfold acquired get?
  simp only [List.mem_filterMap, Prod.exists]
  constructor
  · rintro ⟨cell, i, hmem, hcell⟩
    rw [List.mk_mem_zipIdx_iff_getElem?, Array.getElem?_toList] at hmem
    cases hheld : cell.held with
    | false => simp [hheld] at hcell
    | true =>
      rw [hheld, if_pos rfl] at hcell
      cases hcell
      simp [hmem, hheld]
  · intro h
    cases hc : p.cells[slot]? with
    | none => simp [hc] at h
    | some cell =>
      refine ⟨cell, slot, ?_, ?_⟩
      · rw [List.mk_mem_zipIdx_iff_getElem?, Array.getElem?_toList, hc]
      · cases hheld : cell.held with
        | false => simp [hc, hheld] at h
        | true => simpa [hc, hheld] using h

lemma zipIdx_sorted {β : Type} (l : List β) (k : Nat) :
    (l.zipIdx k).Pairwise fun x y => x.2 < y.2 := by
  induction l generalizing k with
  | nil => exact List.Pairwise.nil
  | cons b rest ih =>
    rw [List.zipIdx_cons]
    refine List.pairwise_cons.mpr ⟨?_, ih (k + 1)⟩
    intro x hx
    exact List.le_snd_of_mem_zipIdx hx

lemma acquired_sorted (p : Pool α) : (p.acquired.map Prod.fst).Pairwise (· < ·) := by
  rw [List.pairwise_map]
  unfold acquired
  rw [List.pairwise_filterMap]
  apply (zipIdx_sorted p.cells.toList 0).imp
  rintro ⟨c, i⟩ ⟨d, j⟩ hij x hx y hy
  cases hc : c.held with
  | false => simp [hc] at hx
  | true =>
    cases hd : d.held with
    | false => simp [hd] at hy
    | true =>
      simp only [hc, hd, if_true, Option.some.injEq] at hx hy
      rw [← hx, ← hy]
      exact hij

lemma acquired_slots_nodup (p : Pool α) : (p.acquired.map Prod.fst).Nodup :=
  p.acquired_sorted.imp fun h => Nat.ne_of_lt h

lemma acquired_nodup (p : Pool α) : p.acquired.Nodup :=
  List.Nodup.of_map Prod.fst p.acquired_slots_nodup

lemma acquired_perm_cons {a : α} (hslot : p.get? slot = none)
    (h : ∀ i b, q.get? i = some b ↔ (i = slot ∧ b = a) ∨ p.get? i = some b) :
    q.acquired.Perm ((slot, a) :: p.acquired) := by
  have hnot : (slot, a) ∉ p.acquired := by
    rw [mem_acquired, hslot]
    simp
  rw [List.perm_ext_iff_of_nodup q.acquired_nodup (List.nodup_cons.mpr ⟨hnot, p.acquired_nodup⟩)]
  rintro ⟨i, b⟩
  rw [mem_acquired, h i b, List.mem_cons, mem_acquired, Prod.mk.injEq]

lemma acquired_eq_of_get? (h : ∀ i, q.get? i = p.get? i) : q.acquired.Perm p.acquired := by
  rw [List.perm_ext_iff_of_nodup q.acquired_nodup p.acquired_nodup]
  rintro ⟨i, b⟩
  rw [mem_acquired, mem_acquired, h i]

lemma new_cells (capacity : Nat) (item : Nat → α) :
    (new capacity item).cells[slot]? =
      if slot < numbered capacity then some ⟨item slot, false⟩ else none := by
  by_cases h : slot < numbered capacity <;> simp [new, h]

@[simp] lemma new_capacity (n : Nat) (item : Nat → α) : (new n item).capacity = numbered n := by
  simp [new, capacity]

@[simp] lemma new_isAcquired (n : Nat) (item : Nat → α) : (new n item).isAcquired slot = false := by
  rw [isAcquired, new_cells]
  by_cases h : slot < numbered n <;> simp [h]

lemma new_item? (n : Nat) (item : Nat → α) :
    (new n item).item? slot = if slot < numbered n then some (item slot) else none := by
  rw [item?, new_cells]
  by_cases h : slot < numbered n <;> simp [h]

lemma new_get? (n : Nat) (item : Nat → α) : (new n item).get? slot = none := by
  cases h : (new n item).get? slot with
  | none => rfl
  | some a => simp [get?_eq_some] at h

lemma new_acquired (n : Nat) (item : Nat → α) : (new n item).acquired = [] := by
  rw [List.eq_nil_iff_forall_not_mem]
  rintro ⟨i, a⟩ h
  rw [mem_acquired, new_get?] at h
  cases h

lemma new_sound (n : Nat) (item : Nat → α) : (new n item).Sound where
  nodup := List.nodup_range
  free_iff slot := by
    rw [new_item?, new_isAcquired]
    by_cases h : slot < numbered n <;> simp [new, h]

lemma mark_getElem? (p : Pool α) (slot : Nat) (held : Bool) (i : Nat) :
    (p.mark slot held)[i]? =
      if slot = i then p.cells[i]?.map fun cell => { cell with held } else p.cells[i]? := by
  rw [mark, Array.getElem?_modify]

lemma acquire_none (h : (p.acquire).1 = none) : p.free = [] ∧ (p.acquire).2 = p := by
  unfold acquire at h ⊢
  cases hf : p.free with
  | nil => exact ⟨rfl, rfl⟩
  | cons slot rest =>
    rw [hf] at h
    cases h

lemma acquire_some (h : (p.acquire).1 = some slot) :
    ∃ rest, p.free = slot :: rest ∧ (p.acquire).2.free = rest ∧
      (p.acquire).2.cells = p.mark slot true ∧ (p.acquire).2.asked = p.asked := by
  unfold acquire at h ⊢
  cases hf : p.free with
  | nil =>
    rw [hf] at h
    cases h
  | cons s rest =>
    rw [hf] at h
    cases h
    exact ⟨rest, rfl, rfl, rfl, rfl⟩

lemma acquire_item? (h : (p.acquire).1 = some slot) (i : Nat) :
    (p.acquire).2.item? i = p.item? i := by
  obtain ⟨rest, -, -, hcells, -⟩ := acquire_some h
  rw [item?, hcells, mark_getElem?, item?]
  by_cases hi : slot = i
  · rw [if_pos hi, Option.map_map]
    rfl
  · rw [if_neg hi]

lemma acquire_isAcquired (hp : p.Sound) (h : (p.acquire).1 = some slot) (i : Nat) :
    (p.acquire).2.isAcquired i = (p.isAcquired i || decide (i = slot)) := by
  obtain ⟨rest, hfree, -, hcells, -⟩ := acquire_some h
  rw [isAcquired, hcells, mark_getElem?, isAcquired]
  by_cases hi : slot = i
  · subst hi
    have hmem : slot ∈ p.free := hfree ▸ List.mem_cons_self
    obtain ⟨hitem, -⟩ := (hp.free_iff slot).mp hmem
    cases hc : p.cells[slot]? with
    | none => simp [item?, hc] at hitem
    | some cell => simp
  · simp [hi, Ne.symm hi]

lemma acquire_fresh (hp : p.Sound) (h : (p.acquire).1 = some slot) :
    p.isAcquired slot = false ∧ ∃ a, p.item? slot = some a := by
  obtain ⟨rest, hfree, -⟩ := acquire_some h
  have hmem : slot ∈ p.free := hfree ▸ List.mem_cons_self
  obtain ⟨hitem, hheld⟩ := (hp.free_iff slot).mp hmem
  exact ⟨hheld, Option.isSome_iff_exists.mp hitem⟩

lemma acquire_sound (hp : p.Sound) : (p.acquire).2.Sound := by
  cases h : (p.acquire).1 with
  | none => rwa [(acquire_none h).2]
  | some slot =>
    obtain ⟨rest, hfree, hrest, -⟩ := acquire_some h
    have hnodup := hp.nodup
    rw [hfree, List.nodup_cons] at hnodup
    refine ⟨hrest ▸ hnodup.2, ?_⟩
    intro i
    have hi := hp.free_iff i
    rw [hfree, List.mem_cons] at hi
    rw [hrest, acquire_item? h, acquire_isAcquired hp h]
    by_cases his : i = slot
    · subst his
      simp [hnodup.1]
    · simpa [his] using hi

lemma acquire_get? (hp : p.Sound) (h : (p.acquire).1 = some slot) {a : α}
    (ha : p.item? slot = some a) (i : Nat) (b : α) :
    (p.acquire).2.get? i = some b ↔ (i = slot ∧ b = a) ∨ p.get? i = some b := by
  rw [get?_eq_some, acquire_isAcquired hp h, acquire_item? h, get?_eq_some]
  have hfresh := (acquire_fresh hp h).1
  by_cases hi : i = slot
  · subst hi
    simp [hfresh, ha, eq_comm]
  · simp [hi]

lemma acquire_acquired (hp : p.Sound) (h : (p.acquire).1 = some slot) {a : α}
    (ha : p.item? slot = some a) : (p.acquire).2.acquired.Perm ((slot, a) :: p.acquired) := by
  refine acquired_perm_cons ?_ (acquire_get? hp h ha)
  cases hg : p.get? slot with
  | none => rfl
  | some b =>
    rw [get?_eq_some, (acquire_fresh hp h).1] at hg
    cases hg.1

lemma update_cells (p : Pool α) (slot : Nat) (f : α → α) (i : Nat) :
    (p.update slot f).cells[i]? = if slot = i then
      p.cells[i]?.map fun cell => if cell.held then { cell with item := f cell.item } else cell
    else p.cells[i]? := by
  rw [update, Array.getElem?_modify]

@[simp] lemma update_free (p : Pool α) (slot : Nat) (f : α → α) :
    (p.update slot f).free = p.free := rfl

@[simp] lemma update_asked (p : Pool α) (slot : Nat) (f : α → α) :
    (p.update slot f).asked = p.asked := rfl

@[simp] lemma update_isAcquired (p : Pool α) (slot : Nat) (f : α → α) (i : Nat) :
    (p.update slot f).isAcquired i = p.isAcquired i := by
  rw [isAcquired, update_cells, isAcquired]
  by_cases hi : slot = i
  · rw [if_pos hi]
    cases p.cells[i]? with
    | none => rfl
    | some cell => cases hh : cell.held <;> simp [hh]
  · rw [if_neg hi]

lemma update_item? (p : Pool α) (slot : Nat) (f : α → α) (i : Nat) :
    (p.update slot f).item? i =
      if i = slot ∧ p.isAcquired slot = true then (p.item? i).map f else p.item? i := by
  rw [item?, update_cells, item?]
  by_cases hi : slot = i
  · subst hi
    rw [if_pos rfl]
    unfold isAcquired
    cases p.cells[slot]? with
    | none => simp
    | some cell => cases hh : cell.held <;> simp [hh]
  · rw [if_neg hi, if_neg fun h => hi h.1.symm]

lemma update_get? (p : Pool α) (slot : Nat) (f : α → α) (i : Nat) :
    (p.update slot f).get? i = if i = slot then (p.get? i).map f else p.get? i := by
  unfold get?
  rw [update_cells]
  by_cases hi : slot = i
  · subst hi
    rw [if_pos rfl, if_pos rfl]
    cases p.cells[slot]? with
    | none => rfl
    | some cell => cases hh : cell.held <;> simp [hh]
  · rw [if_neg hi, if_neg (Ne.symm hi)]

lemma update_sound (hp : p.Sound) (slot : Nat) (f : α → α) : (p.update slot f).Sound where
  nodup := hp.nodup
  free_iff i := by
    rw [update_free, hp.free_iff i, update_isAcquired, update_item?]
    by_cases h : i = slot ∧ p.isAcquired slot = true
    · rw [if_pos h, Option.isSome_map]
    · rw [if_neg h]

def others (p : Pool α) (slot : Nat) : List (Nat × α) := p.acquired.filter fun x => x.1 != slot

lemma mem_others {i : Nat} {b : α} :
    (i, b) ∈ p.others slot ↔ i ≠ slot ∧ p.get? i = some b := by
  rw [others, List.mem_filter, mem_acquired]
  simp [and_comm]

lemma others_nodup (p : Pool α) (slot : Nat) : (p.others slot).Nodup :=
  p.acquired_nodup.filter _

lemma perm_cons_others {l : List (Nat × α)} {a : α} (hl : l.Nodup)
    (h : ∀ i b, (i, b) ∈ l ↔ (i = slot ∧ b = a) ∨ (i ≠ slot ∧ p.get? i = some b)) :
    l.Perm ((slot, a) :: p.others slot) := by
  have hnot : (slot, a) ∉ p.others slot := by
    rw [mem_others]
    simp
  rw [List.perm_ext_iff_of_nodup hl (List.nodup_cons.mpr ⟨hnot, p.others_nodup slot⟩)]
  rintro ⟨i, b⟩
  rw [h i b, List.mem_cons, mem_others, Prod.mk.injEq]

lemma acquired_others {a : α} (h : p.get? slot = some a) :
    p.acquired.Perm ((slot, a) :: p.others slot) := by
  refine perm_cons_others p.acquired_nodup ?_
  intro i b
  rw [mem_acquired]
  by_cases hi : i = slot
  · subst hi
    simp [h, eq_comm]
  · simp [hi]

lemma update_acquired {a : α} (h : p.get? slot = some a) (f : α → α) :
    (p.update slot f).acquired.Perm ((slot, f a) :: p.others slot) := by
  refine perm_cons_others (acquired_nodup _) ?_
  intro i b
  rw [mem_acquired, update_get?]
  by_cases hi : i = slot
  · subst hi
    simp [h, eq_comm]
  · simp [hi]

lemma update_others {a : α} (h : p.get? slot = some a) (f : α → α) :
    ((p.update slot f).others slot).Perm (p.others slot) := by
  have hget : (p.update slot f).get? slot = some (f a) := by
    rw [update_get?, if_pos rfl, h]
    rfl
  exact ((acquired_others hget).symm.trans (update_acquired h f)).cons_inv

lemma release_ok {reset : α → α} (h : p.release reset slot = .ok q) :
    ∃ cell, p.cells[slot]? = some cell ∧ cell.held = true ∧ q.free = slot :: p.free ∧
      q.cells = p.cells.set! slot ⟨reset cell.item, false⟩ ∧ q.asked = p.asked := by
  unfold release at h
  cases hc : p.cells[slot]? with
  | none =>
    rw [hc] at h
    cases h
  | some cell =>
    cases hh : cell.held with
    | false =>
      simp only [hc, hh] at h
      cases h
    | true =>
      simp only [hc, hh, if_true] at h
      cases h
      exact ⟨cell, rfl, hh, rfl, rfl, rfl⟩

lemma release_of_get? {a : α} (reset : α → α) (h : p.get? slot = some a) :
    ∃ q, p.release reset slot = .ok q := by
  unfold get? at h
  unfold release
  cases hc : p.cells[slot]? with
  | none => simp [hc] at h
  | some cell =>
    cases hh : cell.held with
    | false => simp [hc, hh] at h
    | true =>
      simp only [hh, if_true]
      exact ⟨_, rfl⟩

section Release

variable {reset : α → α} (h : p.release reset slot = .ok q)

include h

lemma release_isAcquired (i : Nat) :
    q.isAcquired i = (p.isAcquired i && decide (i ≠ slot)) := by
  obtain ⟨cell, hcell, hheld, -, hcells, -⟩ := release_ok h
  rw [isAcquired, hcells, Array.set!_eq_setIfInBounds, Array.getElem?_setIfInBounds, isAcquired]
  by_cases hi : slot = i
  · subst hi
    have hlt := (Array.getElem?_eq_some_iff.mp hcell).1
    simp [hlt]
  · simp [hi, Ne.symm hi]

lemma release_item? (i : Nat) :
    q.item? i = if i = slot then (p.item? i).map reset else p.item? i := by
  obtain ⟨cell, hcell, hheld, -, hcells, -⟩ := release_ok h
  rw [item?, hcells, Array.set!_eq_setIfInBounds, Array.getElem?_setIfInBounds, item?]
  by_cases hi : slot = i
  · subst hi
    have hlt := (Array.getElem?_eq_some_iff.mp hcell).1
    rw [if_pos rfl, if_pos hlt, if_pos rfl, hcell]
    rfl
  · simp [hi, Ne.symm hi]

lemma release_get? (i : Nat) : q.get? i = if i = slot then none else p.get? i := by
  obtain ⟨cell, hcell, hheld, -, hcells, -⟩ := release_ok h
  unfold get?
  rw [hcells, Array.set!_eq_setIfInBounds, Array.getElem?_setIfInBounds]
  by_cases hi : slot = i
  · subst hi
    have hlt := (Array.getElem?_eq_some_iff.mp hcell).1
    simp [hlt]
  · simp [hi, Ne.symm hi]

lemma release_sound (hp : p.Sound) : q.Sound := by
  obtain ⟨cell, hcell, hheld, hfree, -⟩ := release_ok h
  have hnot : slot ∉ p.free := by
    rw [hp.free_iff]
    simp [isAcquired, hcell, hheld]
  refine ⟨hfree ▸ List.nodup_cons.mpr ⟨hnot, hp.nodup⟩, ?_⟩
  intro i
  rw [hfree, List.mem_cons, hp.free_iff, release_item? h, release_isAcquired h]
  by_cases hi : i = slot
  · subst hi
    simp [item?, hcell]
  · simp [hi]

lemma release_acquired : q.acquired.Perm (p.others slot) := by
  rw [List.perm_ext_iff_of_nodup q.acquired_nodup (p.others_nodup slot)]
  rintro ⟨i, b⟩
  rw [mem_acquired, mem_others, release_get? h]
  by_cases hi : i = slot <;> simp [hi]

end Release

lemma item?_isSome : (p.item? slot).isSome ↔ slot < p.capacity := by
  simp [item?, capacity]

@[simp] lemma update_capacity (p : Pool α) (slot : Nat) (f : α → α) :
    (p.update slot f).capacity = p.capacity := by
  simp [capacity, update]

lemma acquire_capacity (p : Pool α) : (p.acquire).2.capacity = p.capacity := by
  cases h : (p.acquire).1 with
  | none => rw [(acquire_none h).2]
  | some slot =>
    obtain ⟨rest, -, -, hcells, -⟩ := acquire_some h
    rw [capacity, hcells, mark, Array.size_modify, capacity]

lemma acquire_asked (p : Pool α) : (p.acquire).2.asked = p.asked := by
  cases h : (p.acquire).1 with
  | none => rw [(acquire_none h).2]
  | some slot =>
    obtain ⟨rest, -, -, -, hasked⟩ := acquire_some h
    exact hasked

lemma release_capacity {reset : α → α} (h : p.release reset slot = .ok q) :
    q.capacity = p.capacity := by
  obtain ⟨cell, -, -, -, hcells, -⟩ := release_ok h
  rw [capacity, hcells, Array.set!_eq_setIfInBounds, Array.size_setIfInBounds, capacity]

lemma release_asked {reset : α → α} (h : p.release reset slot = .ok q) : q.asked = p.asked := by
  obtain ⟨cell, -, -, -, -, hasked⟩ := release_ok h
  exact hasked

lemma length_acquired_add (hp : p.Sound) : p.acquired.length + p.free.length = p.capacity := by
  have hperm : (p.acquired.map Prod.fst ++ p.free).Perm (List.range p.capacity) := by
    rw [List.perm_ext_iff_of_nodup _ List.nodup_range]
    · intro i
      rw [List.mem_append, List.mem_map, List.mem_range, ← item?_isSome, hp.free_iff]
      constructor
      · rintro (⟨⟨j, a⟩, hmem, rfl⟩ | h)
        · rw [mem_acquired, get?_eq_some] at hmem
          simp [hmem.2]
        · exact h.1
      · intro h
        obtain ⟨a, ha⟩ := Option.isSome_iff_exists.mp h
        cases hheld : p.isAcquired i with
        | false => exact .inr ⟨h, rfl⟩
        | true => exact .inl ⟨(i, a), mem_acquired.2 (get?_eq_some.2 ⟨hheld, ha⟩), rfl⟩
    · rw [List.nodup_append]
      refine ⟨p.acquired_slots_nodup, hp.nodup, ?_⟩
      intro i hi j hj hij
      subst hij
      obtain ⟨⟨k, a⟩, hmem, rfl⟩ := List.mem_map.mp hi
      rw [mem_acquired, get?_eq_some] at hmem
      rw [hp.free_iff, hmem.1] at hj
      cases hj.2
  have hlen := hperm.length_eq
  rwa [List.length_append, List.length_map, List.length_range] at hlen

@[simp] lemma resetMarks_item? (p : Pool α) : p.resetMarks.item? slot = p.item? slot := rfl

lemma resetMarks_sound (hp : p.Sound) : p.resetMarks.Sound := ⟨hp.nodup, hp.free_iff⟩

end LoadEngine.Pool
