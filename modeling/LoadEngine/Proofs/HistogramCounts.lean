import LoadEngine.Proofs.SnapshotSums
import Mathlib.Algebra.BigOperators.Group.List.Basic

/-! No response is lost. A histogram counts every response in one slot, that of its latency or else
that of the highest value, and the counters say the same as the slots. -/

namespace LoadEngine

namespace Histogram

variable {h g : Histogram}

/-- A slot takes a value that lies in it. A value that lies in no slot of the histogram goes where
the highest one lies. -/
def Shape.Takes (s : Shape) (slot v : Nat) : Prop :=
  slot < s.slots ∧ (s.Holds slot v ∨ (∀ k < s.slots, ¬s.Holds k v) ∧ s.Holds slot s.highest)

lemma Shape.takes_iff {s : Shape} {slot v : Nat} :
    s.Takes slot v ↔ s.slotOf (s.clamp v) = slot := by
  unfold clamp
  split
  · rename_i hslot
    constructor
    · rintro ⟨-, hholds | ⟨hnone, -⟩⟩
      · exact holds_iff.mp hholds
      · exact absurd (s.holds_slotOf v) (hnone _ hslot)
    · rintro rfl
      exact ⟨hslot, .inl (s.holds_slotOf v)⟩
  · rename_i hslot
    have hnone : ∀ k < s.slots, ¬s.Holds k v := by
      intro k hk hholds
      rw [holds_iff] at hholds
      exact hslot (hholds ▸ hk)
    constructor
    · rintro ⟨hlt, hholds | ⟨-, hholds⟩⟩
      · exact absurd hholds (hnone _ hlt)
      · exact holds_iff.mp hholds
    · rintro rfl
      exact ⟨slotOf_lt_slots (Nat.le_refl _), .inr ⟨hnone, s.holds_slotOf _⟩⟩

lemma countAt_record (h : Histogram) (v k : Nat) : (h.record v).countAt k =
    h.countAt k + if k = h.shape.slotOf (h.shape.clamp v) then 1 else 0 := by
  rw [countAt, get?_record]
  split <;> rfl

lemma countAt_add (h g : Histogram) (k : Nat) :
    (h.add g).countAt k = h.countAt k + g.countAt k := by
  rw [countAt, get?_add, countAt, countAt]
  cases g.counts.get? k <;> rfl

def counted (h : Histogram) : Nat := ((List.range h.shape.slots).map h.countAt).sum

lemma sum_range_ite_eq (n slot : Nat) :
    ((List.range n).map fun k => if k = slot then 1 else 0).sum = if slot < n then 1 else 0 := by
  induction n with
  | zero => rfl
  | succ n ih =>
    rw [List.range_succ, List.map_append, List.sum_append, ih]
    simp only [List.map_cons, List.map_nil, List.sum_cons, List.sum_nil]
    split <;> split <;> split <;> omega

lemma counted_record (h : Histogram) (v : Nat) : (h.record v).counted = h.counted + 1 := by
  have hslot := h.shape.clamp_slot v
  have hsum := sum_range_ite_eq h.shape.slots (h.shape.slotOf (h.shape.clamp v))
  rw [if_pos hslot] at hsum
  have hcount := funext (h.countAt_record v)
  change ((List.range h.shape.slots).map (h.record v).countAt).sum = _
  rw [hcount, List.sum_map_add, hsum]
  rfl

lemma counted_add (hshape : h.shape = g.shape) : (h.add g).counted = h.counted + g.counted := by
  have hcount := funext (h.countAt_add g)
  change ((List.range h.shape.slots).map (h.add g).countAt).sum = _
  rw [hcount, List.sum_map_add, counted, counted, hshape]

structure Complete (h : Histogram) : Prop where
  counted : h.counted = h.total
  beyond : ∀ k, h.shape.slots ≤ k → h.countAt k = 0

lemma complete_empty (shape : Shape) : (empty shape).Complete := by
  have hcount (k : Nat) : (empty shape).countAt k = 0 := rfl
  refine ⟨?_, fun k _ => hcount k⟩
  rw [Histogram.counted, funext hcount, List.map_const', List.sum_replicate_nat]
  exact Nat.mul_zero _

lemma Complete.record (hh : h.Complete) (v : Nat) : (h.record v).Complete := by
  constructor
  · rw [counted_record, hh.counted]
    rfl
  · intro k hk
    change h.shape.slots ≤ k at hk
    have hne : k ≠ h.shape.slotOf (h.shape.clamp v) :=
      Nat.ne_of_gt ((h.shape.clamp_slot v).trans_le hk)
    rw [countAt_record, if_neg hne, hh.beyond k hk]

lemma Complete.add (hh : h.Complete) (hg : g.Complete) (hshape : h.shape = g.shape) :
    (h.add g).Complete := by
  constructor
  · rw [counted_add hshape, hh.counted, hg.counted]
    rfl
  · intro k hk
    change h.shape.slots ≤ k at hk
    rw [countAt_add, hh.beyond k hk, hg.beyond k (hshape ▸ hk)]

end Histogram

namespace Snapshot

variable {s t u : Snapshot}

/-- What comes of empty snapshots by counting, by adding up and by starting over. -/
inductive Reachable : Snapshot → Prop
  | new {shape : Histogram.Shape} {s : Snapshot} : Snapshot.new shape = .ok s → Reachable s
  | recordRequest {s : Snapshot} : Reachable s → Reachable s.recordRequest
  | consume {s : Snapshot} (x : Sample) : Reachable s → Reachable (s.consume x)
  | merge {s t u : Snapshot} : Reachable s → Reachable t → s.merge t = .ok u → Reachable u
  | reset {s : Snapshot} : Reachable s → Reachable s.reset

lemma consume_histogram (s : Snapshot) (x : Sample) : (s.consume x).histogram =
    if x.outcome.hasResponse then s.histogram.record x.latency else s.histogram := by
  obtain ⟨outcome, latency⟩ := x
  cases outcome <;> rfl

structure Coherent (s : Snapshot) : Prop where
  histogram : s.histogram.Complete
  total : s.histogram.total = s.responses
  responses : s.responses = s.successes + s.invalid

lemma coherent_empty (shape : Histogram.Shape) : (empty shape).Coherent :=
  ⟨Histogram.complete_empty shape, rfl, rfl⟩

lemma Coherent.consume (h : s.Coherent) (x : Sample) : (s.consume x).Coherent := by
  obtain ⟨outcome, latency⟩ := x
  have hresponses : s.responses + 1 = s.successes + s.invalid + 1 := congrArg (· + 1) h.responses
  cases outcome with
  | success =>
    exact ⟨h.histogram.record latency, congrArg (· + 1) h.total,
      hresponses.trans (Nat.add_right_comm _ _ _)⟩
  | invalid => exact ⟨h.histogram.record latency, congrArg (· + 1) h.total, hresponses⟩
  | connectionError | timeout | internalError => exact ⟨h.histogram, h.total, h.responses⟩

lemma Coherent.add (hs : s.Coherent) (ht : t.Coherent) (hshape : s.shape = t.shape) :
    (s.add t).Coherent := by
  refine ⟨hs.histogram.add ht.histogram hshape, congrArg₂ (· + ·) hs.total ht.total, ?_⟩
  change s.responses + t.responses = s.successes + t.successes + (s.invalid + t.invalid)
  rw [hs.responses, ht.responses]
  exact Nat.add_add_add_comm _ _ _ _

lemma merge_eq_ok (h : s.merge t = .ok u) : s.shape = t.shape ∧ u = s.add t := by
  by_cases haccepts : s.Accepts t
  · rw [merge_of_accepts haccepts] at h
    cases h
    exact ⟨haccepts.1, rfl⟩
  · obtain ⟨reason, hreason⟩ := merge_of_not_accepts haccepts
    rw [hreason] at h
    cases h

lemma Reachable.coherent (h : s.Reachable) : s.Coherent := by
  induction h with
  | @new shape s h =>
    unfold Snapshot.new at h
    cases hcheck : shape.check with
    | error e =>
      rw [hcheck] at h
      cases h
    | ok _ =>
      rw [hcheck] at h
      cases h
      exact coherent_empty shape
  | recordRequest _ ih => exact ⟨ih.histogram, ih.total, ih.responses⟩
  | consume x _ ih => exact ih.consume x
  | merge _ _ hu ihs iht =>
    obtain ⟨hshape, rfl⟩ := merge_eq_ok hu
    exact ihs.add iht hshape
  | @reset s _ _ => exact coherent_empty s.shape

/-- A response adds one to the count of one slot, the one that takes its latency, and what got no
response changes no slot. The slots count all responses, and these are the ones that were accepted
or found invalid. -/
theorem Reachable.no_response_lost (h : s.Reachable) :
    (∀ x : Sample, x.outcome.hasResponse = true → ∃ slot, s.shape.Takes slot x.latency ∧
      (∀ other, s.shape.Takes other x.latency → other = slot) ∧
      ∀ k, (s.consume x).histogram.countAt k =
        s.histogram.countAt k + if k = slot then 1 else 0) ∧
    (∀ x : Sample, x.outcome.hasResponse = false → (s.consume x).histogram = s.histogram) ∧
    (∀ k, s.shape.slots ≤ k → s.histogram.countAt k = 0) ∧
    s.histogram.counted = s.histogram.total ∧ s.histogram.total = s.responses ∧
    s.responses = s.successes + s.invalid ∧ s.completed = s.successes + s.failures := by
  obtain ⟨hcomplete, htotal, hresponses⟩ := h.coherent
  refine ⟨fun x hx => ?_, fun x hx => ?_, hcomplete.beyond, hcomplete.counted, htotal, hresponses,
    rfl⟩
  · refine ⟨_, Histogram.Shape.takes_iff.mpr rfl, fun other hother => ?_, fun k => ?_⟩
    · exact (Histogram.Shape.takes_iff.mp hother).symm
    · rw [consume_histogram, if_pos hx, Histogram.countAt_record]
      rfl
  · rw [consume_histogram, hx]
    rfl

def overdue : Snapshot := (empty ⟨1000000, 2⟩).consume ⟨.success, 5000000⟩

def startedOver : Snapshot := overdue.recordRequest.reset.consume ⟨.invalid, 70⟩

theorem overdue_not_lost :
    let both := overdue.add startedOver
    both.Reachable ∧ both.histogram.counted = 2 ∧ both.responses = 2 ∧
      both.shape.Takes 1780 5000000 ∧ ¬both.shape.Holds 1780 5000000 ∧
      ∀ k, (both.consume ⟨.success, 5000000⟩).histogram.countAt k =
        both.histogram.countAt k + if k = 1780 then 1 else 0 := by
  intro both
  have hnew : new ⟨1000000, 2⟩ = .ok (empty ⟨1000000, 2⟩) := rfl
  have hoverdue : overdue.Reachable := .consume _ (.new hnew)
  have hmerge : overdue.merge startedOver = .ok both :=
    merge_of_accepts ⟨rfl, by decide +kernel⟩
  have hstarted : startedOver.Reachable := .consume _ (.reset (.recordRequest hoverdue))
  have hboth : both.Reachable := .merge hoverdue hstarted hmerge
  obtain ⟨htakes, -, -, hcounted, -⟩ := hboth.no_response_lost
  have hslot : both.shape.Takes 1780 5000000 :=
    Histogram.Shape.takes_iff.mpr (by decide +kernel)
  obtain ⟨slot, -, honly, hcount⟩ := htakes ⟨.success, 5000000⟩ rfl
  obtain rfl := honly 1780 hslot
  have hout : ¬both.shape.Holds 1780 5000000 := by
    rw [Histogram.Shape.holds_iff]
    decide +kernel
  exact ⟨hboth, hcounted.trans rfl, rfl, hslot, hout, hcount⟩

end Snapshot

end LoadEngine
