import LoadEngine.Proofs.Pool
import Mathlib.Data.Finset.Sort
import Mathlib.Order.Bounds.Basic

/-! A pool as a set of held slots. Its users ask and are answered, and what they note down from the
answers alone tells what the pool does next: which slots are held and with what objects, what the
next owner of a free slot finds in it, and between which numbers of held slots the pool has moved
since its marks were last reset. -/

namespace LoadEngine.Pool

variable {α : Type}

inductive Call (α : Type) where
  | acquire
  | release (slot : Nat)
  | look (slot : Nat)
  | change (slot : Nat) (f : α → α)
  | resetMarks

inductive Reply (α : Type) where
  | acquired (slot : Nat)
  | exhausted
  | released
  | refused (fault : ContractViolation)
  | object (item : Option α)
  | done
deriving DecidableEq

def serve (reset : α → α) (p : Pool α) : Call α → Reply α × Pool α
  | .acquire =>
    match p.acquire with
    | (some slot, q) => (.acquired slot, q)
    | (none, q) => (.exhausted, q)
  | .release slot =>
    match p.release reset slot with
    | .ok q => (.released, q)
    | .error fault => (.refused fault, p)
  | .look slot => (.object (p.get? slot), p)
  | .change slot f => (.object (p.get? slot), p.update slot f)
  | .resetMarks => (.done, p.resetMarks)

/-- What the users of a pool know. `fresh` is the object that the next owner of a slot finds: the
initial one, or what reset made of the one that the slot was last given back with. -/
structure Account (α : Type) where
  held : Finset Nat
  object : Nat → α
  fresh : Nat → α
  counts : List Nat

namespace Account

def opening (item : Nat → α) : Account α := ⟨∅, item, item, [0]⟩

/-- Only the answers count: a release that was refused releases nothing. -/
def note (reset : α → α) (a : Account α) : Call α → Reply α → Account α
  | .acquire, .acquired slot =>
    { a with
      held := insert slot a.held
      object := Function.update a.object slot (a.fresh slot)
      counts := (insert slot a.held).card :: a.counts }
  | .release slot, .released =>
    { a with
      held := a.held.erase slot
      fresh := Function.update a.fresh slot (reset (a.object slot))
      counts := (a.held.erase slot).card :: a.counts }
  | .change slot f, .object (some _) =>
    { a with object := Function.update a.object slot (f (a.object slot)) }
  | .resetMarks, _ => { a with counts := [a.held.card] }
  | _, _ => a

end Account

/-- A pool answers calls, and its users note the answers down. -/
def exchange (reset : α → α) (s : Pool α × Account α) (call : Call α) : Pool α × Account α :=
  ((s.1.serve reset call).2, s.2.note reset call (s.1.serve reset call).1)

/-- The pool goes by what its users have noted down. -/
structure GoesBy (capacity : Nat) (reset : α → α) (p : Pool α) (a : Account α) : Prop where
  exhausted : (p.serve reset .acquire).1 = .exhausted ↔ a.held.card = capacity
  acquired : a.held.card ≠ capacity → ∃ slot < capacity, slot ∉ a.held ∧
    (p.serve reset .acquire).1 = .acquired slot ∧
    (p.serve reset .acquire).2.get? slot = some (a.fresh slot)
  released : ∀ slot, (p.serve reset (.release slot)).1 =
    if slot ∈ a.held then .released
    else .refused (if slot < capacity then .doubleRelease slot else .slotOutOfRange slot capacity)
  refused : ∀ slot, slot ∉ a.held → (p.serve reset (.release slot)).2 = p
  looked : ∀ slot, p.serve reset (.look slot) =
    (.object (if slot ∈ a.held then some (a.object slot) else none), p)
  changed : ∀ slot f, (p.serve reset (.change slot f)).1 =
    .object (if slot ∈ a.held then some (a.object slot) else none)
  unchanged : ∀ slot f, slot ∉ a.held → (p.serve reset (.change slot f)).2 = p
  nodup : p.free.Nodup
  free_iff : ∀ slot, slot ∈ p.free ↔ slot < capacity ∧ p.isAcquired slot = false
  held_iff : ∀ slot, p.isAcquired slot = true ↔ slot ∈ a.held
  within : ∀ slot ∈ a.held, slot < capacity
  listed : p.acquired = (a.held.sort (· ≤ ·)).map fun slot => (slot, a.object slot)
  least : IsLeast {n | n ∈ a.counts} p.minUsed
  greatest : IsGreatest {n | n ∈ a.counts} p.maxUsed

structure Tracks (capacity : Nat) (p : Pool α) (a : Account α) : Prop where
  sound : p.Sound
  capacity_eq : p.capacity = capacity
  asked_eq : p.asked = capacity
  held : ∀ slot, p.isAcquired slot = true ↔ slot ∈ a.held
  object : ∀ slot ∈ a.held, p.item? slot = some (a.object slot)
  fresh : ∀ slot < capacity, slot ∉ a.held → p.item? slot = some (a.fresh slot)
  count : a.held.card ∈ a.counts
  least : IsLeast {n | n ∈ a.counts} p.minUsed
  greatest : IsGreatest {n | n ∈ a.counts} p.maxUsed

variable {capacity slot : Nat} {reset : α → α} {p q : Pool α} {a : Account α}

lemma setOf_mem_cons (n : Nat) (counts : List Nat) :
    {k | k ∈ n :: counts} = insert n {k | k ∈ counts} := by
  ext k
  simp

lemma isLeast_cons {counts : List Nat} {m n : Nat} (h : IsLeast {k | k ∈ counts} m) :
    IsLeast {k | k ∈ n :: counts} (min n m) := by
  rw [setOf_mem_cons]
  exact h.insert n

lemma isGreatest_cons {counts : List Nat} {m n : Nat} (h : IsGreatest {k | k ∈ counts} m) :
    IsGreatest {k | k ∈ n :: counts} (max n m) := by
  rw [setOf_mem_cons]
  exact h.insert n

lemma acquire_marks (h : p.acquire.1 = some slot) : p.acquire.2.minUsed = p.minUsed ∧
    p.acquire.2.maxUsed = max p.maxUsed p.acquire.2.outstanding := by
  unfold acquire at h ⊢
  cases hf : p.free with
  | nil => simp [hf] at h
  | cons s rest => exact ⟨rfl, rfl⟩

lemma release_marks (h : p.release reset slot = .ok q) :
    q.minUsed = min p.minUsed q.outstanding ∧ q.maxUsed = p.maxUsed := by
  unfold release at h
  cases hc : p.cells[slot]? with
  | none => simp [hc] at h
  | some cell =>
    cases hheld : cell.held with
    | false => simp [hc, hheld] at h
    | true =>
      simp only [hc, hheld, if_true] at h
      cases h
      exact ⟨rfl, rfl⟩

lemma release_of_not_held (hslot : p.isAcquired slot = false) : p.release reset slot =
    .error (if slot < p.capacity ∨ slot < p.asked then .doubleRelease slot
      else .slotOutOfRange slot p.capacity) := by
  unfold isAcquired at hslot
  unfold release
  cases hc : p.cells[slot]? with
  | none =>
    have hle : ¬ slot < p.capacity := Nat.not_lt.mpr (Array.getElem?_eq_none_iff.mp hc)
    simp [hle]
  | some cell =>
    have hlt : slot < p.capacity := (Array.getElem?_eq_some_iff.mp hc).1
    have hheld : cell.held = false := by simpa [hc] using hslot
    simp [hheld, hlt]

lemma update_of_not_held (hslot : p.isAcquired slot = false) (f : α → α) : p.update slot f = p := by
  have hcells : (p.update slot f).cells = p.cells := by
    apply Array.ext_getElem?
    intro i
    rw [update_cells]
    split
    · rename_i hi
      subst hi
      unfold isAcquired at hslot
      cases hc : p.cells[slot]? with
      | none => rfl
      | some cell =>
        have hheld : cell.held = false := by simpa [hc] using hslot
        simp [hheld]
    · rfl
  cases p
  simp only [update] at hcells ⊢
  rw [hcells]

namespace Tracks

lemma held_eq (h : Tracks capacity p a) : a.held = (p.acquired.map Prod.fst).toFinset := by
  ext slot
  rw [List.mem_toFinset, ← h.held slot, isAcquired_iff, List.mem_map]
  constructor
  · rintro ⟨b, hb⟩
    exact ⟨(slot, b), mem_acquired.mpr hb, rfl⟩
  · rintro ⟨⟨i, b⟩, hmem, rfl⟩
    exact ⟨b, mem_acquired.mp hmem⟩

lemma card_eq (h : Tracks capacity p a) : a.held.card = p.acquired.length := by
  rw [h.held_eq, List.toFinset_card_of_nodup p.acquired_slots_nodup, List.length_map]

lemma card_add (h : Tracks capacity p a) : a.held.card + p.free.length = capacity := by
  rw [h.card_eq, ← h.capacity_eq]
  exact length_acquired_add h.sound

lemma outstanding_eq (h : Tracks capacity p a) : p.outstanding = a.held.card := by
  have hadd := h.card_add
  have hcapacity := h.capacity_eq
  unfold outstanding available
  omega

lemma not_held (h : Tracks capacity p a) : p.isAcquired slot = false ↔ slot ∉ a.held := by
  rw [← h.held slot, Bool.not_eq_true]

lemma get?_eq (h : Tracks capacity p a) (slot : Nat) :
    p.get? slot = if slot ∈ a.held then some (a.object slot) else none := by
  split
  · rename_i hslot
    exact get?_eq_some.mpr ⟨(h.held slot).mpr hslot, h.object slot hslot⟩
  · rename_i hslot
    cases hget : p.get? slot with
    | none => rfl
    | some b => exact absurd ((h.held slot).mp (get?_eq_some.mp hget).1) hslot

lemma held_lt (h : Tracks capacity p a) (hslot : slot ∈ a.held) : slot < capacity := by
  rw [← h.capacity_eq, ← item?_isSome, h.object slot hslot]
  rfl

lemma opening (hcapacity : capacity < 2 ^ 32) (item : Nat → α) :
    Tracks capacity (new capacity item) (.opening item) where
  sound := new_sound capacity item
  capacity_eq := by
    rw [new_capacity, numbered, Nat.mod_eq_of_lt hcapacity]
  asked_eq := rfl
  held slot := by simp [Account.opening]
  object slot hslot := by simp [Account.opening] at hslot
  fresh slot hslot _ := by
    rw [new_item?, numbered, Nat.mod_eq_of_lt hcapacity, if_pos hslot]
    rfl
  count := by simp [Account.opening]
  least := by simp [Account.opening, new]
  greatest := by simp [Account.opening, new]

lemma acquire (h : Tracks capacity p a) (reset : α → α) (hslot : p.acquire.1 = some slot) :
    Tracks capacity p.acquire.2 (a.note reset .acquire (.acquired slot)) := by
  obtain ⟨hfree, item, hitem⟩ := acquire_fresh h.sound hslot
  have hnot := h.not_held.mp hfree
  have hlt : slot < capacity := by
    rw [← h.capacity_eq, ← item?_isSome, hitem]
    rfl
  obtain ⟨hmin, hmax⟩ := acquire_marks hslot
  have hcard : (insert slot a.held).card = a.held.card + 1 := Finset.card_insert_of_notMem hnot
  have hfirst := acquire_some hslot
  have hout : p.acquire.2.outstanding = (insert slot a.held).card := by
    obtain ⟨rest, hstack, hrest, -⟩ := hfirst
    have hadd := h.card_add
    have hcapacity := (acquire_capacity p).trans h.capacity_eq
    rw [hstack, List.length_cons] at hadd
    unfold outstanding available
    rw [hcapacity, hrest]
    omega
  refine ⟨acquire_sound h.sound, (acquire_capacity p).trans h.capacity_eq,
    (acquire_asked p).trans h.asked_eq, ?_, ?_, ?_, List.mem_cons_self, ?_, ?_⟩
  · intro i
    rw [acquire_isAcquired h.sound hslot, Bool.or_eq_true, h.held, decide_eq_true_iff]
    simp only [Account.note, Finset.mem_insert]
    exact or_comm
  · intro i hi
    rw [acquire_item? hslot]
    simp only [Account.note, Finset.mem_insert] at hi ⊢
    by_cases his : i = slot
    · subst his
      rw [Function.update_self]
      exact h.fresh i hlt hnot
    · rw [Function.update_of_ne his]
      exact h.object i (hi.resolve_left his)
  · intro i hi hni
    rw [acquire_item? hslot]
    simp only [Account.note, Finset.mem_insert, not_or] at hni ⊢
    exact h.fresh i hi hni.2
  · rw [hmin, ← Nat.min_eq_right (h.least.2 h.count |>.trans (Nat.le_succ _))]
    simp only [Account.note, hcard]
    exact isLeast_cons h.least
  · rw [hmax, hout, Nat.max_comm]
    exact isGreatest_cons h.greatest

lemma release (h : Tracks capacity p a) (hslot : p.release reset slot = .ok q) :
    Tracks capacity q (a.note reset (.release slot) .released) := by
  obtain ⟨cell, hcell, hheld, hstack, -⟩ := release_ok hslot
  have hmem : slot ∈ a.held := by
    rw [← h.held slot, isAcquired, hcell]
    exact hheld
  obtain ⟨hmin, hmax⟩ := release_marks hslot
  have hcard := Finset.card_erase_add_one hmem
  have hout : q.outstanding = (a.held.erase slot).card := by
    have hadd := h.card_add
    have hcapacity := (release_capacity hslot).trans h.capacity_eq
    unfold outstanding available
    rw [hcapacity, hstack, List.length_cons]
    omega
  refine ⟨release_sound hslot h.sound, (release_capacity hslot).trans h.capacity_eq,
    (release_asked hslot).trans h.asked_eq, ?_, ?_, ?_, List.mem_cons_self, ?_, ?_⟩
  · intro i
    rw [release_isAcquired hslot, Bool.and_eq_true, h.held, decide_eq_true_iff]
    simp only [Account.note, Finset.mem_erase]
    exact and_comm
  · intro i hi
    simp only [Account.note, Finset.mem_erase] at hi ⊢
    rw [release_item? hslot, if_neg hi.1]
    exact h.object i hi.2
  · intro i hi hni
    rw [release_item? hslot]
    simp only [Account.note, Finset.mem_erase, not_and] at hni ⊢
    by_cases his : i = slot
    · subst his
      rw [if_pos rfl, Function.update_self, h.object i hmem]
      rfl
    · rw [if_neg his, Function.update_of_ne his]
      exact h.fresh i hi (hni his)
  · rw [hmin, hout, Nat.min_comm]
    exact isLeast_cons h.least
  · have hle := h.greatest.2 h.count
    have hmax' : q.maxUsed = max (a.held.erase slot).card p.maxUsed := by omega
    rw [hmax']
    exact isGreatest_cons h.greatest

lemma change (h : Tracks capacity p a) (hslot : slot ∈ a.held) (f : α → α) :
    Tracks capacity (p.update slot f)
      { a with object := Function.update a.object slot (f (a.object slot)) } := by
  refine ⟨update_sound h.sound slot f, by rw [update_capacity, h.capacity_eq], h.asked_eq, ?_, ?_,
    ?_, h.count, h.least, h.greatest⟩
  · intro i
    rw [update_isAcquired]
    exact h.held i
  · intro i hi
    rw [update_item?]
    by_cases his : i = slot
    · subst his
      rw [if_pos ⟨rfl, (h.held i).mpr hslot⟩, h.object i hslot]
      simp only [Function.update_self, Option.map_some]
    · rw [if_neg fun hc => his hc.1]
      simp only [Function.update_of_ne his]
      exact h.object i hi
  · intro i hi hni
    have his : i ≠ slot := fun hc => hni (hc ▸ hslot)
    rw [update_item?, if_neg fun hc => his hc.1]
    exact h.fresh i hi hni

lemma resetMarks (h : Tracks capacity p a) :
    Tracks capacity p.resetMarks { a with counts := [a.held.card] } where
  sound := resetMarks_sound h.sound
  capacity_eq := h.capacity_eq
  asked_eq := h.asked_eq
  held := h.held
  object := h.object
  fresh := h.fresh
  count := List.mem_cons_self
  least := by simp [Pool.resetMarks, h.outstanding_eq]
  greatest := by simp [Pool.resetMarks, h.outstanding_eq]

lemma exchange (h : Tracks capacity p a) (call : Call α) :
    Tracks capacity (Pool.exchange reset (p, a) call).1 (Pool.exchange reset (p, a) call).2 := by
  cases call with
  | acquire =>
    unfold Pool.exchange serve
    have hnone := acquire_none (p := p)
    have hsome := fun (slot : Nat) (hs : p.acquire.1 = some slot) => h.acquire reset hs
    generalize p.acquire = out at hnone hsome
    obtain ⟨slot, q⟩ := out
    cases slot with
    | none =>
      obtain ⟨-, rfl⟩ := hnone rfl
      exact h
    | some slot => exact hsome slot rfl
  | release slot =>
    unfold Pool.exchange serve
    cases hr : p.release reset slot with
    | error fault =>
      simp only [hr]
      exact h
    | ok q =>
      simp only [hr]
      exact h.release hr
  | look slot => exact h
  | change slot f =>
    unfold Pool.exchange serve
    simp only [h.get?_eq slot]
    by_cases hslot : slot ∈ a.held
    · rw [if_pos hslot]
      exact h.change hslot f
    · rw [if_neg hslot, update_of_not_held (h.not_held.mpr hslot)]
      exact h
  | resetMarks => exact h.resetMarks

lemma exchanges (h : Tracks capacity p a) (calls : List (Call α)) :
    Tracks capacity (calls.foldl (Pool.exchange reset) (p, a)).1
      (calls.foldl (Pool.exchange reset) (p, a)).2 := by
  induction calls generalizing p a with
  | nil => exact h
  | cons call rest ih => exact ih (h.exchange call)

lemma acquired_eq (h : Tracks capacity p a) :
    p.acquired = (a.held.sort (· ≤ ·)).map fun slot => (slot, a.object slot) := by
  have hslots : a.held.sort (· ≤ ·) = p.acquired.map Prod.fst := by
    rw [h.held_eq]
    exact (List.toFinset_sort (· ≤ ·) p.acquired_slots_nodup).mpr
      (p.acquired_sorted.imp Nat.le_of_lt)
  rw [hslots, List.map_map]
  conv_lhs => rw [← List.map_id p.acquired]
  apply List.map_congr_left
  rintro ⟨slot, b⟩ hmem
  have hget := mem_acquired.mp hmem
  rw [h.get?_eq] at hget
  split at hget
  · cases hget
    rfl
  · cases hget

lemma goesBy (h : Tracks capacity p a) : GoesBy capacity reset p a where
  exhausted := by
    have hadd := h.card_add
    unfold serve Pool.acquire
    cases hf : p.free with
    | nil =>
      rw [hf, List.length_nil] at hadd
      exact ⟨fun _ => hadd, fun _ => rfl⟩
    | cons slot rest =>
      rw [hf, List.length_cons] at hadd
      exact ⟨nofun, fun hfull => by omega⟩
  acquired := by
    intro hroom
    have hadd := h.card_add
    cases hs : p.acquire.1 with
    | none =>
      rw [(acquire_none hs).1, List.length_nil] at hadd
      exact absurd hadd hroom
    | some slot =>
      have hnext := h.acquire reset hs
      have hnot := h.not_held.mp (acquire_fresh h.sound hs).1
      have hmem : slot ∈ (a.note reset .acquire (.acquired slot)).held := by
        simp [Account.note]
      have hget := hnext.get?_eq slot
      rw [if_pos hmem] at hget
      have hserve : p.serve reset .acquire = (.acquired slot, p.acquire.2) := by
        unfold serve
        rw [← Prod.mk.eta (p := p.acquire), hs]
      refine ⟨slot, hnext.held_lt hmem, hnot, congrArg Prod.fst hserve, ?_⟩
      rw [hserve, hget]
      simp [Account.note]
  released := by
    intro slot
    by_cases hslot : slot ∈ a.held
    · obtain ⟨q, hq⟩ := release_of_get? reset ((h.get?_eq slot).trans (if_pos hslot))
      simp only [serve, hq, if_pos hslot]
    · simp only [serve, release_of_not_held (h.not_held.mpr hslot), if_neg hslot, h.capacity_eq,
        h.asked_eq, or_self]
  refused := by
    intro slot hslot
    simp only [serve, release_of_not_held (h.not_held.mpr hslot)]
  looked := by
    intro slot
    rw [serve, h.get?_eq]
  changed := by
    intro slot f
    rw [serve, h.get?_eq]
  unchanged := by
    intro slot f hslot
    exact update_of_not_held (h.not_held.mpr hslot) f
  nodup := h.sound.nodup
  free_iff := by
    intro slot
    rw [h.sound.free_iff, item?_isSome, h.capacity_eq]
  held_iff := h.held
  within := fun slot hslot => h.held_lt hslot
  listed := h.acquired_eq
  least := h.least
  greatest := h.greatest

end Tracks

/-- Whatever a new pool is asked, it goes by what its answers were. -/
theorem goesBy_account (hcapacity : capacity < 2 ^ 32) (item : Nat → α) (reset : α → α)
    (calls : List (Call α)) :
    GoesBy capacity reset (calls.foldl (exchange reset) (new capacity item, .opening item)).1
      (calls.foldl (exchange reset) (new capacity item, .opening item)).2 :=
  ((Tracks.opening hcapacity item).exchanges calls).goesBy

def misuse : List (Call Nat) :=
  [.acquire, .change 0 fun n => n + 7, .acquire, .acquire, .resetMarks, .release 0, .release 0,
    .release 5, .change 0 fun n => n + 1, .acquire, .look 0]

theorem misuse_goesBy : 2 < 2 ^ 32 ∧
    GoesBy 2 (· % 5) (misuse.foldl (exchange (· % 5)) (new 2 (· + 1), .opening (· + 1))).1
      (misuse.foldl (exchange (· % 5)) (new 2 (· + 1), .opening (· + 1))).2 ∧
    (misuse.foldl (exchange (· % 5)) (new 2 (· + 1), .opening (· + 1))).1.acquired =
      [(0, 3), (1, 2)] ∧
    (misuse.foldl (exchange (· % 5)) (new 2 (· + 1), .opening (· + 1))).2.counts = [2, 1, 2] :=
  ⟨by decide, goesBy_account (by decide) _ _ misuse, by decide +kernel, by decide +kernel⟩

end LoadEngine.Pool
