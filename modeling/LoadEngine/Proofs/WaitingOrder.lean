import LoadEngine.Proofs.SimulationTick
import LoadEngine.Proofs.Validity
import Mathlib.Algebra.Order.BigOperators.Group.List
import Mathlib.Algebra.Order.Group.Nat
import Mathlib.Data.Fintype.Card
import Mathlib.Data.Fintype.Sum
import Mathlib.Logic.Relation
import Mathlib.Order.WellFounded
import Mathlib.Tactic.DeriveFintype

/-! When phases wait for each other in vain. The start of a phase waits for what it depends on, and
its end for its own start and for the ends of others; a benchmark is accepted when neither of the
two orders goes in a circle by itself. The scheduler goes on from every state in which no phase is
under way just when both orders taken together have no circle. -/

namespace LoadEngine

/-- What others can wait for: that a phase has started and will start no more sessions, or that it
has come to its end. -/
inductive Milestone (n : Nat) where
  | start (phase : Fin n)
  | finish (phase : Fin n)
deriving DecidableEq, Fintype

namespace Benchmark

variable {b : Benchmark}

inductive Awaits (b : Benchmark) : Milestone b.phases.length → Milestone b.phases.length → Prop
  | started {i j : Fin b.phases.length} {d : Dependency} : d ∈ b.phases[i].dependsOn →
      d.progress = .finished → b.position? d.phase = some j.val → Awaits b (.start i) (.start j)
  | ended {i j : Fin b.phases.length} {d : Dependency} : d ∈ b.phases[i].dependsOn →
      d.progress = .terminated → b.position? d.phase = some j.val → Awaits b (.start i) (.finish j)
  | own (i : Fin b.phases.length) : Awaits b (.finish i) (.start i)
  | after {i j : Fin b.phases.length} {name : String} : name ∈ b.phases[i].terminateAfter →
      b.position? name = some j.val → Awaits b (.finish i) (.finish j)

/-- No start or end waits, directly or through others, for itself. -/
def Unblocked (b : Benchmark) : Prop := ∀ m, ¬ Relation.TransGen b.Awaits m m

lemma position?_lt {name : String} {j : Nat} (h : b.position? name = some j) :
    j < b.phases.length := by
  obtain ⟨hlt, -⟩ := List.findIdx?_eq_some_iff_getElem.mp h
  exact hlt

lemma position?_name {name : String} {j : Fin b.phases.length} (h : b.position? name = some j.val) :
    b.phases[j].name = name := by
  obtain ⟨hlt, hname, -⟩ := List.findIdx?_eq_some_iff_getElem.mp h
  simpa using hname

lemma Unblocked.exists_first (h : b.Unblocked) (Reached : Milestone b.phases.length → Prop)
    (hne : ∃ m, ¬ Reached m) : ∃ m, ¬ Reached m ∧ ∀ m', b.Awaits m m' → Reached m' := by
  have hirrefl : Std.Irrefl fun m' m => Relation.TransGen b.Awaits m m' := ⟨h⟩
  have htrans : IsTrans (Milestone b.phases.length) fun m' m => Relation.TransGen b.Awaits m m' :=
    ⟨fun _ _ _ h₁ h₂ => h₂.trans h₁⟩
  have hwf := Finite.wellFounded_of_trans_of_irrefl fun m' m => Relation.TransGen b.Awaits m m'
  obtain ⟨m, hm, hmin⟩ := hwf.has_min {m | ¬ Reached m} hne
  refine ⟨m, hm, ?_⟩
  intro m' hawaits
  by_contra hm'
  exact hmin m' hm' (.single hawaits)

def Attainable (b : Benchmark) : Milestone b.phases.length → Prop :=
  Acc fun m' m => b.Awaits m m'

lemma Attainable.not_transGen_self {m : Milestone b.phases.length} (h : b.Attainable m) :
    ¬ Relation.TransGen b.Awaits m m := by
  intro hr
  have hswap : Relation.TransGen (fun m' m => b.Awaits m m') m m :=
    Relation.transGen_swap.mp hr
  have hacc : Acc (Relation.TransGen fun m' m => b.Awaits m m') m := Acc.transGen h
  clear h hr
  induction hacc with
  | intro x _ ih => exact ih x hswap hswap

lemma Attainable.of_awaits {m m' : Milestone b.phases.length} (h : b.Attainable m)
    (hawaits : b.Awaits m m') : b.Attainable m' :=
  Acc.inv h hawaits

lemma exists_awaits_of_not_attainable {m : Milestone b.phases.length} (h : ¬ b.Attainable m) :
    ∃ m', b.Awaits m m' ∧ ¬ b.Attainable m' := by
  by_contra hall
  apply h
  constructor
  intro m' hawaits
  by_contra hm'
  exact hall ⟨m', hawaits, hm'⟩

end Benchmark

lemma PhaseRun.not_isOverdue_at_start {p : PhaseRun} {now : Nanos} (h : p.startedAt = some now)
    (hpos : p.phase.maxDuration ≠ some 0) : p.isOverdue now = false := by
  have helapsed : p.elapsed now = 0 := by simp [elapsed, h]
  unfold isOverdue
  rw [helapsed]
  cases hmax : p.phase.maxDuration with
  | none => simp
  | some limit =>
    have hlimit : limit ≠ 0 := fun hz => hpos (hz ▸ hmax)
    simp [hlimit]

namespace Controller

variable {b : Benchmark} {c : Controller}

def Runs (c : Controller) (b : Benchmark) : Prop := c.phases.map PhaseRun.phase = b.phases

lemma Runs.getElem? (h : c.Runs b) (i : Fin b.phases.length) :
    ∃ p, c.phases[i.val]? = some p ∧ p.phase = b.phases[i] := by
  have hi : (c.phases.map PhaseRun.phase)[i.val]? = some b.phases[i] := by
    rw [h]
    simp
  rw [List.getElem?_map] at hi
  obtain ⟨p, hp, hphase⟩ := Option.map_eq_some_iff.mp hi
  exact ⟨p, hp, hphase⟩

lemma Runs.find?_eq (h : c.Runs b) {name : String} {j : Fin b.phases.length}
    (hj : b.position? name = some j.val) :
    c.phases.find? (fun p => p.name == name) = c.phases[j.val]? := by
  have hidx : c.phases.findIdx? (fun p => p.name == name) = some j.val := by
    rw [← hj, Benchmark.position?, ← h, List.findIdx?_map]
    rfl
  obtain ⟨hlt, hname, hmin⟩ := List.findIdx?_eq_some_iff_getElem.mp hidx
  rw [List.getElem?_eq_getElem hlt, List.find?_eq_some_iff_getElem]
  refine ⟨hname, j.val, hlt, rfl, ?_⟩
  intro k hk
  simpa using hmin k hk

def Reached (c : Controller) : Milestone b.phases.length → Prop
  | .start i => ∃ p, c.phases[i.val]? = some p ∧ p.status.isFinished = true
  | .finish i => ∃ p, c.phases[i.val]? = some p ∧ p.status = .terminated

lemma progressed_of_reached (h : c.Runs b) {d : Dependency} {j : Fin b.phases.length}
    (hj : b.position? d.phase = some j.val)
    (hr : match d.progress with
      | .finished => c.Reached (b := b) (.start j)
      | .terminated => c.Reached (b := b) (.finish j)) : c.progressed d = true := by
  cases hd : d.progress with
  | finished =>
    rw [hd] at hr
    obtain ⟨p, hp, hs⟩ := hr
    simp [progressed, h.find?_eq hj, hp, hd, hs]
  | terminated =>
    rw [hd] at hr
    obtain ⟨p, hp, hs⟩ := hr
    simp [progressed, h.find?_eq hj, hp, hd, hs]

lemma mayStart_of_reached (hvalid : b.validate = .ok ()) (h : c.Runs b) {p : PhaseRun}
    {i : Fin b.phases.length} (hphase : p.phase = b.phases[i])
    (hall : ∀ m, b.Awaits (.start i) m → c.Reached m) : c.mayStart p = true := by
  obtain ⟨-, -, hnames⟩ := Benchmark.validate_ok hvalid
  rw [mayStart, List.all_eq_true, hphase]
  intro d hd
  obtain ⟨j, hj⟩ := (hnames b.phases[i] (List.getElem_mem _)).1 d hd
  have hlt := Benchmark.position?_lt hj
  refine progressed_of_reached h (j := ⟨j, hlt⟩) hj ?_
  cases hp : d.progress with
  | finished => exact hall _ (.started hd hp hj)
  | terminated => exact hall _ (.ended hd hp hj)

lemma mayEnd_of_reached (hvalid : b.validate = .ok ()) (h : c.Runs b) {p : PhaseRun}
    {i : Fin b.phases.length} (hphase : p.phase = b.phases[i])
    (hall : ∀ m, b.Awaits (.finish i) m → c.Reached m) : c.mayEnd p = true := by
  obtain ⟨-, -, hnames⟩ := Benchmark.validate_ok hvalid
  rw [mayEnd, List.all_eq_true, hphase]
  intro name hname
  obtain ⟨j, hj⟩ := (hnames b.phases[i] (List.getElem_mem _)).2 name hname
  have hlt := Benchmark.position?_lt hj
  obtain ⟨q, hq, hs⟩ := hall (.finish ⟨j, hlt⟩) (.after hname hj)
  obtain ⟨q', hq', hphase'⟩ := h.getElem? ⟨j, hlt⟩
  have hqq : q = q' := Option.some.inj (hq.symm.trans hq')
  have hqname : q.name = name := by
    rw [PhaseRun.name, hqq, hphase']
    exact Benchmark.position?_name hj
  rw [List.any_eq_true]
  exact ⟨q, List.mem_of_getElem? hq, by simp [hqname, hs]⟩

lemma exists_not_waits (hvalid : b.validate = .ok ()) (hfree : b.Unblocked) (h : c.Runs b)
    {now : Nanos} (hq : c.Quiet now) (hc : c.isComplete = false) :
    ∃ p ∈ c.phases, ¬ c.Waits now p := by
  have hlen : c.phases.length = b.phases.length := by
    rw [← h, List.length_map]
  have hopen : ∃ m : Milestone b.phases.length, ¬ c.Reached m := by
    rw [isComplete, List.all_eq_false] at hc
    obtain ⟨p, hp, hs⟩ := hc
    obtain ⟨i, hi, hpi⟩ := List.mem_iff_getElem.mp hp
    refine ⟨.finish ⟨i, hlen ▸ hi⟩, ?_⟩
    rintro ⟨q, hqi, hqs⟩
    rw [List.getElem?_eq_getElem hi, hpi] at hqi
    cases hqi
    simp [hqs] at hs
  obtain ⟨m, hm, hfirst⟩ := hfree.exists_first c.Reached hopen
  cases m with
  | start i =>
    obtain ⟨p, hp, hphase⟩ := h.getElem? i
    have hmem := List.mem_of_getElem? hp
    refine ⟨p, hmem, ?_⟩
    have hstatus : p.status = .notStarted := by
      obtain ⟨hrun, hterm⟩ := hq.settled p hmem
      have hnot : p.status.isFinished ≠ true := fun hf => hm ⟨p, hp, hf⟩
      cases hs : p.status <;> simp_all [PhaseStatus.isFinished]
    have hmay := mayStart_of_reached hvalid h hphase hfirst
    simp [Waits, hstatus, hmay]
  | finish i =>
    obtain ⟨p, hp, hphase⟩ := h.getElem? i
    have hmem := List.mem_of_getElem? hp
    refine ⟨p, hmem, ?_⟩
    have hstatus : p.status = .finished := by
      obtain ⟨hrun, hterm⟩ := hq.settled p hmem
      obtain ⟨q, hqi, hqs⟩ := hfirst (.start i) (.own i)
      rw [hp] at hqi
      cases hqi
      have hnot : p.status ≠ .terminated := fun hf => hm ⟨p, hp, hf⟩
      cases hs : p.status <;> simp_all [PhaseStatus.isFinished]
    have hmay := mayEnd_of_reached hvalid h hphase hfirst
    simp [Waits, hstatus, hmay]

section Stall

open Classical

noncomputable def stalledStatus (b : Benchmark) (i : Fin b.phases.length) : PhaseStatus :=
  if ¬ b.Attainable (.start i) then .notStarted
  else if ¬ b.Attainable (.finish i) then .finished
  else .terminated

lemma stalledStatus_ne_terminated {i : Fin b.phases.length} (h : ¬ b.Attainable (.finish i)) :
    stalledStatus b i ≠ .terminated := by
  simp only [stalledStatus, h]
  split <;> simp

noncomputable def stalledPhase (b : Benchmark) (now : Nanos) (i : Fin b.phases.length) :
    PhaseRun :=
  { PhaseRun.new b.phases[i] 1 with status := stalledStatus b i, startedAt := some now }

noncomputable def stalled (b : Benchmark) (now : Nanos) : Controller where
  settings := .default 1
  name := b.name
  phases := List.ofFn (stalledPhase b now)
  startedAt := some 0
  fault := none

lemma stalled_runs (b : Benchmark) (now : Nanos) : (stalled b now).Runs b := by
  simp only [Runs, stalled, List.map_ofFn, Function.comp_def, stalledPhase, PhaseRun.new]
  exact List.ofFn_getElem

lemma stalled_getElem? (b : Benchmark) (now : Nanos) (i : Fin b.phases.length) :
    (stalled b now).phases[i.val]? = some (stalledPhase b now i) := by
  simp [stalled]

lemma mem_stalled {now : Nanos} {p : PhaseRun} (h : p ∈ (stalled b now).phases) :
    ∃ i, p = stalledPhase b now i := by
  obtain ⟨i, hi⟩ := List.mem_ofFn.mp h
  exact ⟨i, hi.symm⟩

lemma stalled_quiet {now : Nanos} (hdelays : ∀ p ∈ b.phases, p.startDelay.getD 0 ≤ now) :
    (stalled b now).Quiet now where
  settled := by
    intro p hp
    obtain ⟨i, rfl⟩ := mem_stalled hp
    simp only [stalledPhase, stalledStatus]
    split
    · simp
    · split <;> simp
  drained := by
    intro p hp _
    obtain ⟨i, rfl⟩ := mem_stalled hp
    rfl
  delays := by
    intro p hp
    obtain ⟨i, rfl⟩ := mem_stalled hp
    exact hdelays _ (List.getElem_mem _)

lemma stalled_not_mayStart {i : Fin b.phases.length} (h : ¬ b.Attainable (.start i))
    (now : Nanos) :
    (stalled b now).mayStart (stalledPhase b now i) = false := by
  obtain ⟨m, hawaits, hm⟩ := Benchmark.exists_awaits_of_not_attainable h
  rw [mayStart, List.all_eq_false]
  cases hawaits with
  | @started _ j d hd hprogress hj =>
    refine ⟨d, hd, ?_⟩
    have hs : stalledStatus b j = .notStarted := by simp [stalledStatus, hm]
    simp [progressed, (stalled_runs b now).find?_eq hj, stalled_getElem?, hprogress,
      stalledPhase, hs, PhaseStatus.isFinished]
  | @ended _ j d hd hprogress hj =>
    refine ⟨d, hd, ?_⟩
    have hs := stalledStatus_ne_terminated hm
    simp [progressed, (stalled_runs b now).find?_eq hj, stalled_getElem?, hprogress,
      stalledPhase, hs]

lemma stalled_not_mayEnd (hnodup : (b.phases.map Phase.name).Nodup) {i : Fin b.phases.length}
    (hstart : b.Attainable (.start i)) (hfinish : ¬ b.Attainable (.finish i)) (now : Nanos) :
    (stalled b now).mayEnd (stalledPhase b now i) = false := by
  obtain ⟨m, hawaits, hm⟩ := Benchmark.exists_awaits_of_not_attainable hfinish
  cases hawaits with
  | own => exact absurd hstart hm
  | @after _ j name hname hj =>
    rw [mayEnd, List.all_eq_false]
    refine ⟨name, hname, ?_⟩
    rw [Bool.not_eq_true, List.any_eq_false]
    intro q hq hqs
    obtain ⟨k, rfl⟩ := mem_stalled hq
    obtain ⟨hqname, hterm⟩ := Bool.and_eq_true_iff.mp hqs
    have hnames : b.phases[k].name = b.phases[j].name :=
      (beq_iff_eq.mp hqname).trans (Benchmark.position?_name hj).symm
    have hsame : (b.phases.map Phase.name)[k.val]? = (b.phases.map Phase.name)[j.val]? := by
      simpa using hnames
    have hlt : k.val < (b.phases.map Phase.name).length := by simp
    obtain rfl : k = j := Fin.ext ((List.getElem?_inj hlt hnodup).mp hsame)
    exact stalledStatus_ne_terminated hm (beq_iff_eq.mp hterm)

lemma stalled_waits (hvalid : b.validate = .ok ()) {now : Nanos} {p : PhaseRun}
    (hp : p ∈ (stalled b now).phases) : (stalled b now).Waits now p := by
  obtain ⟨hphases, hnodup, -⟩ := Benchmark.validate_ok hvalid
  obtain ⟨i, rfl⟩ := mem_stalled hp
  have hstatus : (stalledPhase b now i).status = stalledStatus b i := rfl
  by_cases hstart : b.Attainable (.start i)
  · by_cases hfinish : b.Attainable (.finish i)
    · have hs : stalledStatus b i = .terminated := by simp [stalledStatus, hstart, hfinish]
      simp [Waits, hstatus, hs]
    · have hs : stalledStatus b i = .finished := by simp [stalledStatus, hstart, hfinish]
      have hpos : (stalledPhase b now i).phase.maxDuration ≠ some 0 :=
        Phase.maxDuration_ne_zero (hphases b.phases[i] (List.getElem_mem _))
      have hover := PhaseRun.not_isOverdue_at_start (p := stalledPhase b now i) rfl hpos
      have hend := stalled_not_mayEnd hnodup hstart hfinish now
      simp [Waits, hstatus, hs, hover, hend]
  · have hs : stalledStatus b i = .notStarted := by simp [stalledStatus, hstart]
    have hmay := stalled_not_mayStart hstart now
    simp [Waits, hstatus, hs, hmay]

lemma stalled_not_isComplete {now : Nanos} {m : Milestone b.phases.length}
    (h : Relation.TransGen b.Awaits m m) : (stalled b now).isComplete = false := by
  have hfinish : ∃ i, ¬ b.Attainable (.finish i) := by
    cases m with
    | start i =>
      refine ⟨i, ?_⟩
      intro hi
      exact (hi.of_awaits (.own i)).not_transGen_self h
    | finish i => exact ⟨i, fun hi => hi.not_transGen_self h⟩
  obtain ⟨i, hi⟩ := hfinish
  rw [isComplete, List.all_eq_false]
  refine ⟨stalledPhase b now i, List.mem_of_getElem? (stalled_getElem? b now i), ?_⟩
  simpa [stalledPhase] using stalledStatus_ne_terminated hi

end Stall

lemma tick_moves_on (hvalid : b.validate = .ok ()) (hfree : b.Unblocked) (h : c.Runs b)
    {now : Nanos} (hq : c.Quiet now) (hc : c.isComplete = false)
    (snapshots : Nat → PhaseSnapshot) : (c.tick now snapshots).statuses ≠ c.statuses := by
  intro heq
  obtain ⟨p, hp, hw⟩ := exists_not_waits hvalid hfree h hq hc
  exact hw ((statuses_tick_eq_iff hq snapshots).mp heq p hp)

/-- From every state of an accepted benchmark in which no phase is under way a tick moves some phase
on, unless all have come to their end, just when the starts and ends of its phases do not wait for
each other in a circle. -/
theorem tick_moves_on_iff (hvalid : b.validate = .ok ()) :
    b.Unblocked ↔ ∀ (c : Controller) (now : Nanos) (snapshots : Nat → PhaseSnapshot),
      c.Runs b → c.Quiet now → c.isComplete = false →
        (c.tick now snapshots).statuses ≠ c.statuses := by
  constructor
  · intro hfree c now snapshots hruns hq hc
    exact tick_moves_on hvalid hfree hruns hq hc snapshots
  · intro hall m hcircle
    -- The phases of the circle wait for each other, late enough that no start delay matters.
    let now := (b.phases.map fun p => p.startDelay.getD 0).sum
    have hq : (stalled b now).Quiet now := by
      apply stalled_quiet
      intro p hp
      exact List.single_le_sum (fun _ _ => Nat.zero_le _) _ (List.mem_map_of_mem hp)
    apply hall (stalled b now) now (fun _ => .empty) (stalled_runs b now) hq
      (stalled_not_isComplete hcircle)
    rw [statuses_tick_eq_iff hq]
    intro p hp
    exact stalled_waits hvalid hp

def crossedFirst : Phase :=
  { Phase.simple "a" ⟨[⟨"s", []⟩], [0], [], [], 1, (∅ : OrderedMap Nat Nat).insert 0 1⟩ .noop with
    terminateAfter := ["b"] }

def crossedSecond : Phase :=
  { Phase.simple "b" ⟨[⟨"s", []⟩], [0], [], [], 1, (∅ : OrderedMap Nat Nat).insert 0 1⟩ .noop with
    dependsOn := [⟨"a", .terminated⟩] }

def crossed : Benchmark := ⟨"crossed", [crossedFirst, crossedSecond]⟩

def crossedStart : Controller where
  settings := .default 1
  name := crossed.name
  phases := [.new crossedFirst 1, .new crossedSecond 1]
  startedAt := none
  fault := none

lemma crossed_valid : crossed.validate = .ok () := by rfl

theorem crossed_tick_moves_on_iff :
    crossed.validate = .ok () ∧
      (crossed.Unblocked ↔ ∀ (c : Controller) (now : Nanos) (snapshots : Nat → PhaseSnapshot),
        c.Runs crossed → c.Quiet now → c.isComplete = false →
          (c.tick now snapshots).statuses ≠ c.statuses) :=
  ⟨crossed_valid, tick_moves_on_iff crossed_valid⟩

def crossedOnce : Controller := crossedStart.tick 0 fun _ => .empty

lemma crossedOnce_quiet (now : Nanos) : crossedOnce.Quiet now where
  settled := by decide
  drained := by decide
  delays := by
    intro p hp
    have hnone : ∀ p ∈ crossedOnce.phases, p.phase.startDelay = none := by decide
    simp [hnone p hp]

lemma crossedOnce_waits (now : Nanos) : ∀ p ∈ crossedOnce.phases, crossedOnce.Waits now p := by
  have hphases : crossedOnce.phases =
      [{ PhaseRun.new crossedFirst 1 with
          status := .finished, startedAt := some 0, endedAt := some 0 },
        .new crossedSecond 1] := rfl
  intro p hp
  rw [hphases] at hp
  rcases List.mem_cons.mp hp with rfl | hp
  · exact ⟨rfl, rfl⟩
  · obtain rfl := List.mem_singleton.mp hp
    have hmay : crossedOnce.mayStart (.new crossedSecond 1) = false := rfl
    exact hmay

/-- An accepted benchmark that comes to a halt: from its first tick on nothing moves any more. -/
theorem crossed_never_moves_on :
    Controller.new (.default 1) crossed (fun _ => true) = .ok crossedStart ∧
      (∀ now, (crossedStart.tick 0 fun _ => .empty).Quiet now) ∧
      (crossedStart.tick 0 fun _ => .empty).isComplete = false ∧
      ∀ now snapshots, ((crossedStart.tick 0 fun _ => .empty).tick now snapshots).statuses =
        (crossedStart.tick 0 fun _ => .empty).statuses := by
  refine ⟨rfl, crossedOnce_quiet, rfl, ?_⟩
  intro now snapshots
  exact (statuses_tick_eq_iff (crossedOnce_quiet now) snapshots).mpr (crossedOnce_waits now)

end Controller

theorem Sim.tick_changes_statuses {b : Benchmark} (hvalid : b.validate = .ok ())
    (hfree : b.Unblocked) {s s' : Simulation} {c : Controller}
    (htold : c = s.controller.takeIn s.now s.cluster.notices) (hruns : c.Runs b)
    (hq : c.Quiet s.now) (hc : c.isComplete = false) (h : Yields tick s () s') :
    s'.controller.statuses ≠ c.statuses := by
  obtain ⟨snapshots, htick⟩ := tick_controller h
  rw [htick, ← htold]
  exact c.tick_moves_on hvalid hfree hruns hq hc snapshots

end LoadEngine
