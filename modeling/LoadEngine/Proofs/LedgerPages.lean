import LoadEngine.Proofs.TurnEvents

/-! The pages of a ledger, one for each slot. A turn changes the page of its own slot and no other,
and what it tells the recorder of its phase can be read off that page. -/

namespace LoadEngine

namespace Ledger

variable {l : Ledger} {v : Visit} {phase slot : Nat}

@[simp] lemma closes_tag (verdict : Verdict) (f : Flight) : (verdict.closes f).tag = f.tag := by
  cases verdict with
  | ended how => exact Flight.forsake_tag how f
  | _ => rfl

lemma close_flights (l : Ledger) (phase slot : Nat) (verdict : Verdict) :
    (l.close phase slot verdict).flights =
      l.flights.map fun f => if f.isOf phase slot then verdict.closes f else f := by
  cases verdict with
  | ended how => rfl
  | alive | broken => exact (List.map_id'' (fun f => ite_self f) _).symm

@[simp] lemma close_since (l : Ledger) (phase slot : Nat) (verdict : Verdict) :
    (l.close phase slot verdict).since = l.since := by
  cases verdict <;> rfl

@[simp] lemma close_recorded (l : Ledger) (phase slot : Nat) (verdict : Verdict) :
    (l.close phase slot verdict).recorded = l.recorded := by
  cases verdict <;> rfl

structure Proper (v : Visit) : Prop where
  address : ∀ tag, v.cause.tag? = some tag → tag.phase = v.phase ∧ tag.slot = v.slot
  calls : ∀ x ∈ callsOf v.outputs, x.2.phase = v.phase ∧ x.2.slot = v.slot

lemma Proper.cause_ne (hv : Proper v) {f : Flight} (h : f.isOf v.phase v.slot = false) :
    v.cause.tag? ≠ some f.tag := by
  intro htag
  obtain ⟨hphase, hslot⟩ := hv.address f.tag htag
  simp [Flight.isOf, hphase, hslot] at h

lemma mem_of {f : Flight} : f ∈ l.of phase slot ↔
    f ∈ l.flights ∧ f.tag.phase = phase ∧ f.tag.slot = slot := by
  simp [Ledger.of, Flight.isOf]

section Other

variable {p j : Nat}

lemma isOf_closed (verdict : Verdict) (f : Flight) :
    (if f.isOf phase slot then verdict.closes f else f).isOf p j = f.isOf p j := by
  unfold Flight.isOf
  split
  · rw [closes_tag]
  · rfl

lemma isOf_heard (now : Nanos) (cause : Cause) (f : Flight) :
    (f.hear now cause).isOf p j = f.isOf p j := by
  rw [Flight.isOf, Flight.hear_tag, Flight.isOf]

lemma after_flights (l : Ledger) (v : Visit) : (l.after v).flights =
    (l.flights.map (Flight.hear v.now v.cause) ++
        (callsOf v.outputs).map fun x => Flight.new v.now x.1 x.2).map
      fun f => if f.isOf v.phase v.slot then v.verdict.closes f else f :=
  close_flights _ _ _ _

lemma after_filter (l : Ledger) (v : Visit) : (l.after v).of p j =
    ((l.of p j).map (Flight.hear v.now v.cause) ++
        ((callsOf v.outputs).map fun x => Flight.new v.now x.1 x.2).filter (Flight.isOf p j)).map
      fun f => if f.isOf v.phase v.slot then v.verdict.closes f else f := by
  rw [Ledger.of, after_flights, List.filter_map, List.filter_append, List.filter_map, Ledger.of]
  simp only [Function.comp_def, isOf_closed, isOf_heard]

end Other

lemma after_of (hv : Proper v) : (l.after v).of v.phase v.slot =
    ((l.of v.phase v.slot).map (Flight.hear v.now v.cause) ++
      (callsOf v.outputs).map fun x => Flight.new v.now x.1 x.2).map v.verdict.closes := by
  have hnew : ((callsOf v.outputs).map fun x => Flight.new v.now x.1 x.2).filter
      (Flight.isOf v.phase v.slot) = (callsOf v.outputs).map fun x => Flight.new v.now x.1 x.2 := by
    rw [List.filter_eq_self]
    intro f hf
    obtain ⟨x, hx, rfl⟩ := List.mem_map.mp hf
    simpa [Flight.isOf, Flight.new] using hv.calls x hx
  rw [after_filter, hnew]
  refine List.map_congr_left fun f hf => if_pos ?_
  rcases List.mem_append.mp hf with hf | hf
  · obtain ⟨g, hg, rfl⟩ := List.mem_map.mp hf
    rw [isOf_heard]
    exact (List.mem_filter.mp hg).2
  · rw [← hnew] at hf
    exact (List.mem_filter.mp hf).2

lemma after_of_ne (hv : Proper v) (h : ¬(phase = v.phase ∧ slot = v.slot)) :
    (l.after v).of phase slot = l.of phase slot := by
  have hother : ∀ f : Flight, f.isOf phase slot = true → f.isOf v.phase v.slot = false := by
    intro f hf
    rw [Flight.isOf, Bool.and_eq_true, beq_iff_eq, beq_iff_eq] at hf
    rw [Flight.isOf, hf.1, hf.2, Bool.and_eq_false_iff, beq_eq_false_iff_ne, beq_eq_false_iff_ne]
    exact not_and_or.mp h
  have hnew : ((callsOf v.outputs).map fun x => Flight.new v.now x.1 x.2).filter
      (Flight.isOf phase slot) = [] := by
    rw [List.filter_eq_nil_iff]
    intro f hf hown
    obtain ⟨x, hx, rfl⟩ := List.mem_map.mp hf
    have hnot := hother _ hown
    rw [Flight.isOf, Flight.new, (hv.calls x hx).1, (hv.calls x hx).2] at hnot
    simp at hnot
  rw [after_filter, hnew, List.append_nil, List.map_map]
  refine (List.map_congr_left fun f hf => ?_).trans (List.map_id' _)
  have hnot := hother f (List.mem_filter.mp hf).2
  rw [Function.comp_apply, isOf_heard, if_neg (Bool.eq_false_iff.mp hnot)]
  exact (Flight.hear_of_ne (hv.cause_ne hnot)).1

lemma after_tags (l : Ledger) (v : Visit) : (l.after v).flights.map Flight.tag =
    l.flights.map Flight.tag ++ (callsOf v.outputs).map Prod.snd := by
  have htag : ∀ f : Flight,
      (if f.isOf v.phase v.slot then v.verdict.closes f else f).tag = f.tag := by
    intro f
    split
    · exact closes_tag v.verdict f
    · rfl
  rw [after_flights, List.map_map, Function.comp_def]
  simp only [htag, List.map_append, List.map_map, Function.comp_def, Flight.hear_tag]
  rfl

lemma mem_after {f : Flight} (hf : f ∈ (l.after v).flights) :
    (∃ g ∈ l.flights, f.tag = g.tag) ∨ ∃ x ∈ callsOf v.outputs, f.tag = x.2 := by
  have htag := List.mem_map_of_mem (f := Flight.tag) hf
  rw [after_tags, List.mem_append] at htag
  rcases htag with htag | htag
  · obtain ⟨g, hg, heq⟩ := List.mem_map.mp htag
    exact .inl ⟨g, hg, heq.symm⟩
  · obtain ⟨x, hx, heq⟩ := List.mem_map.mp htag
    exact .inr ⟨x, hx, heq.symm⟩

lemma after_recorded_eq (l : Ledger) (v : Visit) (phase : Nat) :
    (l.after v).recorded phase = l.recorded phase ++
      (l.flights.filterMap fun f =>
        if f.tag.phase = phase then f.recording? v.now v.cause else none) ++
      (callsOf v.outputs).filterMap fun x =>
        if x.2.phase = phase then some (.request x.1.metric) else none := by
  rw [after, close_recorded]
  rfl

lemma after_recorded (hv : Proper v) : (l.after v).recorded v.phase = l.recorded v.phase ++
    ((l.of v.phase v.slot).filterMap (Flight.recording? v.now v.cause) ++
      (callsOf v.outputs).map fun x => .request x.1.metric) := by
  have hheard : (l.flights.filterMap fun f =>
      if f.tag.phase = v.phase then f.recording? v.now v.cause else none) =
        (l.of v.phase v.slot).filterMap (Flight.recording? v.now v.cause) := by
    rw [Ledger.of, List.filterMap_filter]
    refine List.filterMap_congr fun f _ => ?_
    cases hown : f.isOf v.phase v.slot with
    | true =>
      rw [Flight.isOf, Bool.and_eq_true, beq_iff_eq] at hown
      simp [hown.1]
    | false =>
      have hnone : f.settles? v.now v.cause = none := (Flight.hear_of_ne (hv.cause_ne hown)).2
      simp [Flight.recording?, hnone]
  have hissued : ((callsOf v.outputs).filterMap fun x =>
      if x.2.phase = v.phase then some (Recording.request x.1.metric) else none) =
        (callsOf v.outputs).map fun x => .request x.1.metric := by
    rw [← List.filterMap_eq_map]
    exact List.filterMap_congr fun x hx => if_pos (hv.calls x hx).1
  rw [after_recorded_eq, hheard, hissued, List.append_assoc]

lemma after_recorded_ne (hv : Proper v) (h : phase ≠ v.phase) :
    (l.after v).recorded phase = l.recorded phase := by
  rw [after_recorded_eq, List.filterMap_eq_nil_iff.mpr, List.filterMap_eq_nil_iff.mpr,
    List.append_nil, List.append_nil]
  · intro x hx
    rw [(hv.calls x hx).1, if_neg h.symm]
  · intro f _
    split
    · rename_i hphase
      have hother : f.isOf v.phase v.slot = false := by simp [Flight.isOf, hphase, h]
      rw [Flight.recording?, (Flight.hear_of_ne (hv.cause_ne hother)).2]
      rfl
    · rfl

lemma after_since (l : Ledger) (v : Visit) : (l.after v).since =
    (l.clock v.now v.phase v.slot v.first).since := by
  rw [after, close_since]
  rfl

end Ledger

end LoadEngine
