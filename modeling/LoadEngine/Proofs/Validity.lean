import LoadEngine.Benchmark.Validate
import Mathlib.Tactic.Lemma

/-! What an accepted benchmark promises: each phase by itself is sound, no two share a name, and
every name that a phase refers to is one of theirs. -/

namespace LoadEngine

lemma bind_eq_ok {ε α β : Type} {x : Except ε α} {f : α → Except ε β} {b : β} :
    (x >>= f) = .ok b ↔ ∃ a, x = .ok a ∧ f a = .ok b := by
  cases x with
  | error e =>
    constructor
    · intro h
      cases h
    · rintro ⟨a, h, -⟩
      cases h
  | ok a =>
    constructor
    · intro h
      exact ⟨a, rfl, h⟩
    · rintro ⟨a', h, hf⟩
      cases h
      exact hf

lemma Phase.fault?_of_validate {p : Phase} (h : p.validate = .ok ()) : p.fault? = none := by
  unfold Phase.validate at h
  cases hf : p.fault? with
  | none => rfl
  | some reason =>
    rw [hf] at h
    cases h

lemma Phase.faults_of_validate {p : Phase} (h : p.validate = .ok ()) :
    p.strategy.fault? = none ∧ p.limitFault? = none := by
  have hf := Phase.fault?_of_validate h
  unfold Phase.fault? at hf
  split at hf
  · cases hf
  · cases hs : p.strategy.fault? with
    | some reason => simp [hs] at hf
    | none =>
      cases hl : p.limitFault? with
      | some reason => simp [hs, hl] at hf
      | none => exact ⟨rfl, rfl⟩

lemma Phase.initial_pos {p : Phase} (h : p.validate = .ok ()) :
    (∀ users, p.strategy = .always users → 0 < users) ∧
      ∀ iterations, p.strategy = .sequential iterations → 0 < iterations := by
  have hfault := (Phase.faults_of_validate h).1
  constructor
  · rintro users hs
    refine Nat.pos_of_ne_zero ?_
    rintro rfl
    rw [hs] at hfault
    cases hfault
  · rintro iterations hs
    refine Nat.pos_of_ne_zero ?_
    rintro rfl
    rw [hs] at hfault
    cases hfault

lemma Phase.sessionCapacity_pos {p : Phase} (h : p.validate = .ok ())
    (hnoop : p.strategy.isNoop = false) (hcapacity : 0 < p.strategy.capacity) :
    0 < p.sessionCapacity := by
  have hlimit := (Phase.faults_of_validate h).2
  unfold Phase.sessionCapacity
  cases hm : p.maxSessions with
  | none => exact hcapacity
  | some limit =>
    refine Nat.pos_of_ne_zero ?_
    rintro rfl
    have hnone : p.limitFault? ≠ none := by
      simp only [Phase.limitFault?, hm, hnoop]
      split
      · exact nofun
      · split
        · exact nofun
        · simp
    exact hnone hlimit

lemma Phase.maxDuration_ne_zero {p : Phase} (h : p.validate = .ok ()) : p.maxDuration ≠ some 0 := by
  intro hz
  have hf := Phase.fault?_of_validate h
  unfold Phase.fault? at hf
  split at hf
  · cases hf
  · have hl : p.limitFault? ≠ none := by
      simp only [Phase.limitFault?, hz, if_true]
      split <;> simp
    obtain ⟨e, he⟩ := Option.ne_none_iff_exists'.mp hl
    cases hs : p.strategy.fault? <;> simp [hs, he] at hf

namespace Benchmark

variable {b : Benchmark}

lemma checkPhases_ok {before : List String} {phases : List Phase}
    (h : checkPhases before phases = .ok ()) :
    (∀ p ∈ phases, p.validate = .ok ()) ∧ (phases.map Phase.name).Nodup ∧
      ∀ p ∈ phases, p.name ∉ before := by
  induction phases generalizing before with
  | nil => simp
  | cons p rest ih =>
    obtain ⟨_, hp, h⟩ := bind_eq_ok.1 h
    split at h
    · cases h
    · rename_i hnew
      obtain ⟨hrest, hnodup, hfresh⟩ := ih h
      refine ⟨?_, ?_, ?_⟩
      · simpa using ⟨hp, hrest⟩
      · rw [List.map_cons, List.nodup_cons]
        refine ⟨?_, hnodup⟩
        intro hmem
        obtain ⟨q, hq, hname⟩ := List.mem_map.mp hmem
        exact hfresh q hq (hname ▸ List.mem_cons_self)
      · intro q hq
        rcases List.mem_cons.mp hq with rfl | hq
        · exact hnew
        · exact fun hb => hfresh q hq (List.mem_cons_of_mem _ hb)

lemma resolveNames_cons (b : Benchmark) (phase name : String) (rest : List String) :
    b.resolveNames phase (name :: rest) =
      match b.position? name with
      | none => .error (.unknownDependency phase name)
      | some i => b.resolveNames phase rest >>= fun positions => pure (i :: positions) := rfl

lemma resolveNames_ok {phase : String} {names : List String} {ids : List Nat}
    (h : b.resolveNames phase names = .ok ids) {name : String} (hname : name ∈ names) :
    ∃ i, b.position? name = some i := by
  induction names generalizing ids with
  | nil => simp at hname
  | cons n rest ih =>
    rw [resolveNames_cons] at h
    cases hi : b.position? n with
    | none =>
      rw [hi] at h
      cases h
    | some i =>
      rw [hi] at h
      obtain ⟨ids', hrest, -⟩ := bind_eq_ok.1 h
      rcases List.mem_cons.mp hname with rfl | hname
      · exact ⟨i, hi⟩
      · exact ih hrest hname

lemma resolveOrder_ok {phases : List Phase} {order : List (List Nat) × List (List Nat)}
    (h : b.resolveOrder phases = .ok order) {p : Phase} (hp : p ∈ phases) :
    (∀ d ∈ p.dependsOn, ∃ i, b.position? d.phase = some i) ∧
      ∀ name ∈ p.terminateAfter, ∃ i, b.position? name = some i := by
  induction phases generalizing order with
  | nil => simp at hp
  | cons q rest ih =>
    obtain ⟨start, hstart, h⟩ := bind_eq_ok.1 h
    obtain ⟨finish, hfinish, h⟩ := bind_eq_ok.1 h
    obtain ⟨order', hrest, -⟩ := bind_eq_ok.1 h
    rcases List.mem_cons.mp hp with rfl | hp
    · refine ⟨?_, ?_⟩
      · intro d hd
        exact resolveNames_ok hstart (List.mem_map_of_mem hd)
      · intro name hname
        exact resolveNames_ok hfinish hname
    · exact ih hrest hp

lemma validate_ok (h : b.validate = .ok ()) :
    (∀ p ∈ b.phases, p.validate = .ok ()) ∧ (b.phases.map Phase.name).Nodup ∧
      ∀ p ∈ b.phases, (∀ d ∈ p.dependsOn, ∃ i, b.position? d.phase = some i) ∧
        ∀ name ∈ p.terminateAfter, ∃ i, b.position? name = some i := by
  obtain ⟨_, hphases, h⟩ := bind_eq_ok.1 h
  obtain ⟨order, horder, -⟩ := bind_eq_ok.1 h
  obtain ⟨hvalid, hnodup, -⟩ := checkPhases_ok hphases
  exact ⟨hvalid, hnodup, fun p hp => resolveOrder_ok horder hp⟩

end Benchmark

end LoadEngine
