import LoadEngine.Proofs.ShardRun

/-! The order of timers. A queue that is filled in any order gives its timers out by their times,
and those of one time as they were set. -/

namespace LoadEngine

/-- The timers in the second list, which stand there as they were set, put in order of their times.
Those of one time stay as they were. -/
structure InOrder (queue settings : List Timer) : Prop where
  perm : queue.Perm settings
  sorted : queue.Pairwise fun t u => t.due ≤ u.due
  stable : ∀ time, (queue.filter fun t => t.due == time) = settings.filter fun t => t.due == time

lemma filter_insertTimer {queue : List Timer} (h : queue.Pairwise fun t u => t.due ≤ u.due)
    (timer : Timer) (time : Nanos) :
    ((insertTimer timer queue).filter fun t => t.due == time) =
      (queue ++ [timer]).filter fun t => t.due == time := by
  induction queue with
  | nil => rfl
  | cons u rest ih =>
    rw [List.pairwise_cons] at h
    rw [insertTimer_cons]
    split
    · rename_i hlt
      by_cases hdue : timer.due = time
      · -- whatever stands behind the new timer is due later
        have hnone : ((u :: rest).filter fun t => t.due == time) = [] := by
          rw [List.filter_eq_nil_iff]
          intro t ht
          have hle : u.due ≤ t.due := by
            rcases List.mem_cons.mp ht with rfl | ht
            · exact Nat.le_refl _
            · exact h.1 t ht
          rw [beq_iff_eq, ← hdue]
          exact Nat.ne_of_gt (hlt.trans_le hle)
        rw [List.filter_cons, List.filter_append, hnone, List.filter_cons]
        simp [hdue]
      · simp [List.filter_cons, List.filter_append, hdue]
    · rw [List.filter_cons, ih h.2, List.cons_append, List.filter_cons]

namespace InOrder

variable {queue fired settings more : List Timer} {timer : Timer}

lemma nil : InOrder [] [] := ⟨.refl _, .nil, fun _ => rfl⟩

lemma insert (h : InOrder queue settings) (timer : Timer) :
    InOrder (insertTimer timer queue) (settings ++ [timer]) where
  perm := (perm_insertTimer timer queue).trans
    ((h.perm.cons timer).trans (List.perm_append_singleton timer settings).symm)
  sorted := sorted_insertTimer h.sorted
  stable time := by
    rw [filter_insertTimer h.sorted, List.filter_append, List.filter_append, h.stable]

lemma due_le (h : InOrder (timer :: queue) settings) : ∀ t ∈ settings, timer.due ≤ t.due := by
  intro t ht
  rcases List.mem_cons.mp (h.perm.mem_iff.mpr ht) with rfl | ht
  · exact Nat.le_refl _
  · exact (List.pairwise_cons.mp h.sorted).1 t ht

lemma pop (h : InOrder (timer :: queue) settings) : InOrder queue (settings.erase timer) where
  perm := by
    have hperm := h.perm.erase timer
    rwa [List.erase_cons_head] at hperm
  sorted := (List.pairwise_cons.mp h.sorted).2
  stable time := by
    rw [← List.erase_filter, ← h.stable time, List.erase_filter, List.erase_cons_head]

lemma push (h : InOrder (timer :: queue) settings)
    (hfired : InOrder fired (settings.erase timer ++ more))
    (hmore : ∀ t ∈ more, timer.due ≤ t.due) : InOrder (timer :: fired) (settings ++ more) where
  perm := by
    have htimer : timer ∈ settings := h.perm.mem_iff.mp List.mem_cons_self
    exact (hfired.perm.cons timer).trans ((List.perm_cons_erase htimer).symm.append_right more)
  sorted := by
    refine List.pairwise_cons.mpr ⟨fun t ht => ?_, hfired.sorted⟩
    rcases List.mem_append.mp (hfired.perm.mem_iff.mp ht) with ht | ht
    · exact h.due_le t (List.mem_of_mem_erase ht)
    · exact hmore t ht
  stable time := by
    have hrest := h.pop.stable time
    have hwhole := h.stable time
    rw [List.filter_append, ← hwhole, List.filter_cons, List.filter_cons, hfired.stable time,
      List.filter_append, ← hrest]
    split <;> rfl

end InOrder

end LoadEngine
