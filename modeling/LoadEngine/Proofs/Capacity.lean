import LoadEngine.Instances
import LoadEngine.Phase.Capacity
import Mathlib.Data.List.Basic
import Mathlib.Tactic.Lemma

/-! Sharing out loses nothing: the shares of a number, and the starts that are dealt out, sum up to
what there was. -/

namespace LoadEngine

lemma sum_range_ite_lt (parts r : Nat) (hr : r ≤ parts) :
    ((List.range parts).map fun i => if i < r then (1 : Nat) else 0).sum = r := by
  induction parts generalizing r with
  | zero => simp; omega
  | succ n ih =>
    rw [List.range_succ, List.map_append, List.sum_append]
    rcases Nat.lt_or_ge n r with h | h
    · have hall : ((List.range n).map fun i => if i < r then 1 else 0) =
          (List.range n).map fun i => if i < n then 1 else 0 := by
        apply List.map_congr_left
        intro i hi
        have hin := List.mem_range.mp hi
        simp [hin, Nat.lt_trans hin h]
      rw [hall, ih n (Nat.le_refl n)]
      simp [h]
      omega
    · rw [ih r h]
      simp [Nat.not_lt.mpr h]

lemma sum_share (n parts : Nat) (h : 0 < parts) :
    ((List.range parts).map (share n parts)).sum = n := by
  have hsplit : ((List.range parts).map (share n parts)).sum =
      ((List.range parts).map fun _ => n / parts).sum +
        ((List.range parts).map fun i => if i < n % parts then 1 else 0).sum := by
    induction List.range parts with
    | nil => rfl
    | cons i rest ih =>
      simp only [List.map_cons, List.sum_cons, ih, share]
      omega
  rw [hsplit, sum_range_ite_lt parts _ (Nat.le_of_lt (Nat.mod_lt n h))]
  simp only [List.map_const', List.length_range, List.sum_replicate_nat]
  exact Nat.div_add_mod n parts

lemma dealOut_eq (takers : List Nat) (first count : Nat) :
    dealOut takers first count = (List.range takers.length).filterMap fun i =>
      if 0 < share count takers.length i then
        some (takers.getD ((first + i) % takers.length) 0, share count takers.length i)
      else none := by
  unfold dealOut
  apply List.filterMap_congr
  intro i hi
  have hlt : (first + i) % takers.length < takers.length :=
    Nat.mod_lt _ (Nat.lt_of_le_of_lt (Nat.zero_le _) (List.mem_range.mp hi))
  simp only [List.getElem?_eq_getElem hlt, List.getD_eq_getElem?_getD, Option.getD_some]

lemma sum_dealOut (takers : List Nat) (first count : Nat) (h : takers ≠ []) :
    ((dealOut takers first count).map Prod.snd).sum = count := by
  have hsum : ((dealOut takers first count).map Prod.snd).sum =
      ((List.range takers.length).map (share count takers.length)).sum := by
    rw [dealOut_eq]
    induction List.range takers.length with
    | nil => rfl
    | cons i rest ih =>
      by_cases hn : 0 < share count takers.length i
      · simpa [hn] using ih
      · simpa [hn, Nat.eq_zero_of_not_pos hn] using ih
  rw [hsum, sum_share count _ (List.length_pos_iff.mpr h)]

lemma mem_dealOut {takers : List Nat} {first count : Nat} {s : Nat × Nat}
    (h : s ∈ dealOut takers first count) : s.1 ∈ takers ∧ 0 < s.2 := by
  rw [dealOut_eq] at h
  obtain ⟨i, hi, hs⟩ := List.mem_filterMap.mp h
  have hlt : (first + i) % takers.length < takers.length :=
    Nat.mod_lt _ (Nat.lt_of_le_of_lt (Nat.zero_le _) (List.mem_range.mp hi))
  by_cases hn : 0 < share count takers.length i
  · rw [if_pos hn] at hs
    cases hs
    refine ⟨?_, hn⟩
    simp [List.getElem?_eq_getElem hlt]
  · rw [if_neg hn] at hs
    cases hs

lemma share_pos_iff {capacity shards i : Nat} (hi : i < shards) :
    0 < share capacity shards i ↔ i < capacity := by
  unfold share
  rcases Nat.lt_or_ge capacity shards with h | h
  · rw [Nat.div_eq_of_lt h, Nat.mod_eq_of_lt h, Nat.zero_add]
    split <;> simp [*]
  · have hquot := Nat.div_pos h (Nat.zero_lt_of_lt hi)
    have hcapacity := Nat.lt_of_lt_of_le hi h
    constructor
    · exact fun _ => hcapacity
    · exact fun _ => Nat.add_pos_left hquot _

end LoadEngine
