import LoadEngine.Controller.Basic
import LoadEngine.Proofs.PhaseCourse

/-! One round of the scheduler over all phases, as far as the controller goes: what the shards
answer when their statistics are collected is given. When no phase is under way, a round either
leaves a phase as it is, because it still waits for others, or moves it on. -/

namespace LoadEngine

def PhaseStatus.rank : PhaseStatus → Nat
  | notStarted => 0
  | running => 1
  | finished => 2
  | terminating => 3
  | terminated => 4

namespace Controller

def terminateIfOverdue (c : Controller) (index : Nat) (now : Nanos) : Controller :=
  if c.isOverdue index now then (c.terminate index now).1 else c

def settle (c : Controller) (index : Nat) (snapshot : PhaseSnapshot) : Controller :=
  if c.isTerminated index then c
  else if c.isReady index then c.complete index snapshot
  else c

def round (c : Controller) (index : Nat) (now : Nanos) (snapshot : PhaseSnapshot) : Controller :=
  ((c.advance index now).1.terminateIfOverdue index now).settle index snapshot

def rounds (now : Nanos) (snapshots : Nat → PhaseSnapshot) (c : Controller) (indices : List Nat) :
    Controller :=
  indices.foldl (fun c index => c.round index now (snapshots index)) c

def tick (c : Controller) (now : Nanos) (snapshots : Nat → PhaseSnapshot) : Controller :=
  rounds now snapshots (c.begin now) (List.range c.phases.length)

def statuses (c : Controller) : List PhaseStatus := c.phases.map PhaseRun.status

/-- No phase is under way: each has not started, or is over and has no session left, or has come to
its end; and the time for every start has come. -/
structure Quiet (c : Controller) (now : Nanos) : Prop where
  settled : ∀ p ∈ c.phases, p.status ≠ .running ∧ p.status ≠ .terminating
  drained : ∀ p ∈ c.phases, p.status = .finished → p.isDrained = true
  delays : ∀ p ∈ c.phases, p.phase.startDelay.getD 0 ≤ now - c.startedAt.getD now

def Waits (c : Controller) (now : Nanos) (p : PhaseRun) : Prop :=
  match p.status with
  | .notStarted => c.mayStart p = false
  | .finished => p.isOverdue now = false ∧ c.mayEnd p = false
  | _ => True

/-- Every phase is at least as far as it was. -/
def Forward (c c' : Controller) : Prop :=
  c'.phases.length = c.phases.length ∧
    ∀ (i : Nat) (p : PhaseRun), c.phases[i]? = some p →
      ∃ p', c'.phases[i]? = some p' ∧ p.status.rank ≤ p'.status.rank

lemma Forward.refl (c : Controller) : Forward c c := ⟨rfl, fun _ p hp => ⟨p, hp, Nat.le_refl _⟩⟩

lemma Forward.trans {c c' c'' : Controller} (h : Forward c c') (h' : Forward c' c'') :
    Forward c c'' := by
  refine ⟨h'.1.trans h.1, ?_⟩
  intro i p hp
  obtain ⟨p', hp', hle⟩ := h.2 i p hp
  obtain ⟨p'', hp'', hle'⟩ := h'.2 i p' hp'
  exact ⟨p'', hp'', Nat.le_trans hle hle'⟩

lemma Forward.of_phases_eq {c c' : Controller} (h : c'.phases = c.phases) : Forward c c' := by
  unfold Forward
  rw [h]
  exact Forward.refl c

lemma setPhase_getElem? (c : Controller) {index : Nat} {p : PhaseRun}
    (hp : c.phases[index]? = some p) (p' : PhaseRun) :
    (c.setPhase index p').phases[index]? = some p' := by
  have hlt := (List.getElem?_eq_some_iff.mp hp).1
  simp [setPhase, hlt]

lemma Forward.setPhase (c : Controller) {index : Nat} {p p' : PhaseRun}
    (hp : c.phases[index]? = some p) (hle : p.status.rank ≤ p'.status.rank) :
    Forward c (c.setPhase index p') := by
  refine ⟨by simp [Controller.setPhase], ?_⟩
  intro i q hq
  by_cases hi : i = index
  · subst hi
    rw [hp] at hq
    cases hq
    exact ⟨p', c.setPhase_getElem? hp p', hle⟩
  · refine ⟨q, ?_, Nat.le_refl _⟩
    simpa [Controller.setPhase, List.getElem?_set, Ne.symm hi] using hq

end Controller

namespace PhaseRun

lemma finishIfDone_rank (p : PhaseRun) (now : Nanos) :
    p.status.rank ≤ (p.finishIfDone now).status.rank := by
  rcases p.finishIfDone_eq now with h | ⟨hs, -, h⟩
  · rw [h]
  · simp [h, hs, PhaseStatus.rank]

lemma start_rank {p p' : PhaseRun} {now : Nanos} {starts : Starts}
    (h : p.start now = .ok (p', starts)) : p.status = .notStarted ∧ 0 < p'.status.rank := by
  unfold start at h
  split at h
  · rename_i hs
    refine ⟨hs, ?_⟩
    injection h with h
    injection h with h _
    obtain ⟨n, m, hi⟩ :=
      issue_eq { p with startedAt := some now, status := .running } (initialStarts p)
    have hle := finishIfDone_rank
      (issue { p with startedAt := some now, status := .running } (initialStarts p)).1 now
    rw [hi] at hle
    rw [← h]
    exact hi ▸ hle
  · cases h

lemma tick_rank (p : PhaseRun) (now : Nanos) : p.status.rank ≤ (p.tick now).1.status.rank := by
  unfold tick
  split
  · cases hc : p.phase.arrivals with
    | none => exact p.finishIfDone_rank now
    | some curve =>
      obtain ⟨n, m, hs⟩ := p.startOwed_eq (curve.arrived (p.elapsed now))
      have hle := finishIfDone_rank (p.startOwed (curve.arrived (p.elapsed now))).1 now
      rw [hs] at hle
      simp only [hs]
      exact hle
  · exact Nat.le_refl _

end PhaseRun

namespace Controller

lemma start_forward (c : Controller) (index : Nat) (now : Nanos) :
    Forward c (c.start index now).1 := by
  unfold start
  have hbegin : Forward c (c.begin now) := .of_phases_eq rfl
  cases hp : (c.begin now).phases[index]? with
  | none => simpa only [hp] using hbegin
  | some p =>
    cases hs : p.start now with
    | error e => simpa only [hp, hs] using hbegin
    | ok r =>
      obtain ⟨p', starts⟩ := r
      obtain ⟨hstatus, hrank⟩ := PhaseRun.start_rank hs
      simp only [hp, hs]
      refine hbegin.trans (.setPhase _ hp ?_)
      rw [hstatus]
      exact Nat.zero_le _

lemma advance_forward (c : Controller) (index : Nat) (now : Nanos) :
    Forward c (c.advance index now).1 := by
  unfold advance
  cases hp : c.phases[index]? with
  | none => exact .refl c
  | some p =>
    cases hs : p.status with
    | notStarted =>
      simp only [hs]
      split
      · exact c.start_forward index now
      · exact .refl c
    | running =>
      simp only [hs]
      exact .setPhase c hp (p.tick_rank now)
    | finished => simpa only [hs] using .refl c
    | terminating => simpa only [hs] using .refl c
    | terminated => simpa only [hs] using .refl c

lemma terminateIfOverdue_forward (c : Controller) (index : Nat) (now : Nanos) :
    Forward c (c.terminateIfOverdue index now) := by
  unfold terminateIfOverdue terminate
  split
  · cases hp : c.phases[index]? with
    | none => exact .refl c
    | some p =>
      refine .setPhase c hp ?_
      cases hs : p.status <;> simp [PhaseRun.beginTermination, hs, PhaseStatus.rank]
  · exact .refl c

lemma settle_forward (c : Controller) (index : Nat) (snapshot : PhaseSnapshot) :
    Forward c (c.settle index snapshot) := by
  unfold settle complete
  split
  · exact .refl c
  · split
    · cases hp : c.phases[index]? with
      | none => exact .refl c
      | some p =>
        refine .setPhase c hp ?_
        cases hs : p.status <;> simp [PhaseRun.complete, PhaseStatus.rank]
    · exact .refl c

lemma round_forward (c : Controller) (index : Nat) (now : Nanos) (snapshot : PhaseSnapshot) :
    Forward c (c.round index now snapshot) :=
  ((c.advance_forward index now).trans (terminateIfOverdue_forward _ index now)).trans
    (settle_forward _ index snapshot)

lemma rounds_forward (now : Nanos) (snapshots : Nat → PhaseSnapshot) (c : Controller)
    (indices : List Nat) : Forward c (rounds now snapshots c indices) := by
  induction indices generalizing c with
  | nil => exact .refl c
  | cons i rest ih => exact (c.round_forward i now (snapshots i)).trans (ih _)

lemma round_of_waits {c : Controller} {now : Nanos} {index : Nat} {p : PhaseRun}
    (hq : c.Quiet now) (hp : c.phases[index]? = some p) (hw : c.Waits now p)
    (snapshot : PhaseSnapshot) : c.round index now snapshot = c := by
  obtain ⟨hrun, hterm⟩ := hq.settled p (List.mem_of_getElem? hp)
  have hadv : (c.advance index now).1 = c := by
    cases hs : p.status <;> simp_all [advance, Waits]
  have hover : c.terminateIfOverdue index now = c := by
    cases hs : p.status <;>
      simp_all [terminateIfOverdue, isOverdue, PhaseRun.isOverdue, Waits]
  have hsettle : c.settle index snapshot = c := by
    cases hs : p.status <;>
      simp_all [settle, isTerminated, isReady, PhaseRun.canTerminate, Waits]
  rw [round, hadv, hover, hsettle]

lemma round_of_not_waits {c : Controller} {now : Nanos} {index : Nat} {p : PhaseRun}
    (hq : c.Quiet now) (hp : c.phases[index]? = some p) (hw : ¬ c.Waits now p)
    (snapshot : PhaseSnapshot) :
    ∃ p', (c.round index now snapshot).phases[index]? = some p' ∧
      p.status.rank < p'.status.rank := by
  -- It is enough that one of the three parts of a round moves the phase, whatever the others do.
  have hlater {c₁ : Controller} {p₁ : PhaseRun} (hp₁ : c₁.phases[index]? = some p₁)
      (hlt : p.status.rank < p₁.status.rank)
      (hf : Forward c₁ (c.round index now snapshot)) :
      ∃ p', (c.round index now snapshot).phases[index]? = some p' ∧
        p.status.rank < p'.status.rank := by
    obtain ⟨p', hp', hle⟩ := hf.2 index p₁ hp₁
    exact ⟨p', hp', Nat.lt_of_lt_of_le hlt hle⟩
  obtain ⟨hrun, hterm⟩ := hq.settled p (List.mem_of_getElem? hp)
  cases hs : p.status with
  | notStarted =>
    have hmay : c.mayStart p = true := by simpa [Waits, hs] using hw
    have hdelay := hq.delays p (List.mem_of_getElem? hp)
    have hadv : (c.advance index now).1 = (c.start index now).1 := by
      simp [advance, hp, hs, hmay, hdelay]
    have hbegin : (c.begin now).phases[index]? = some p := hp
    cases hstart : p.start now with
    | error e => simp [PhaseRun.start, hs] at hstart
    | ok r =>
      obtain ⟨p₁, starts⟩ := r
      obtain ⟨-, hrank⟩ := PhaseRun.start_rank hstart
      have hp₁ : (c.advance index now).1.phases[index]? = some p₁ := by
        rw [hadv]
        simp only [start, hbegin, hstart]
        exact setPhase_getElem? _ hbegin p₁
      refine hs ▸ hlater hp₁ (by simpa [hs, PhaseStatus.rank] using hrank) ?_
      exact (terminateIfOverdue_forward _ index now).trans (settle_forward _ index snapshot)
  | finished =>
    have hadv : (c.advance index now).1 = c := by simp [advance, hp, hs]
    by_cases ho : p.isOverdue now = true
    · have hp₁ : (c.terminateIfOverdue index now).phases[index]? =
          some (p.beginTermination now).1 := by
        have hover : c.isOverdue index now = true := by simp [isOverdue, hp, ho]
        simp only [terminateIfOverdue, hover, if_true, terminate, hp]
        exact c.setPhase_getElem? hp _
      refine hs ▸ hlater hp₁ ?_ ?_
      · simp [PhaseRun.beginTermination, hs, PhaseStatus.rank]
      · rw [round, hadv]
        exact settle_forward _ index snapshot
    · have hmay : c.mayEnd p = true := by
        have hover : p.isOverdue now = false := by simpa using ho
        simpa [Waits, hs, hover] using hw
      have hover : c.terminateIfOverdue index now = c := by
        simp [terminateIfOverdue, isOverdue, hp, ho]
      have hready : c.isReady index = true := by
        simp [isReady, hp, PhaseRun.canTerminate, hs, hmay,
          hq.drained p (List.mem_of_getElem? hp) hs]
      have hp₁ : (c.settle index snapshot).phases[index]? =
          some (p.complete snapshot.statistics snapshot.maxUsed) := by
        have hterm : c.isTerminated index = false := by simp [isTerminated, hp, hs]
        simp only [settle, hterm, hready, if_true, complete, hp]
        exact c.setPhase_getElem? hp _
      refine hs ▸ hlater hp₁ ?_ ?_
      · simp [PhaseRun.complete, hs, PhaseStatus.rank]
      · rw [round, hadv, hover]
        exact .refl _
  | running => exact absurd hs hrun
  | terminating => exact absurd hs hterm
  | terminated => simp [Waits, hs] at hw

lemma round_of_getElem?_eq_none {c : Controller} {index : Nat} (hp : c.phases[index]? = none)
    (now : Nanos) (snapshot : PhaseSnapshot) : c.round index now snapshot = c := by
  simp [round, advance, hp, terminateIfOverdue, isOverdue, settle, isTerminated, isReady]

lemma rounds_of_waits {c : Controller} {now : Nanos} (hq : c.Quiet now)
    (snapshots : Nat → PhaseSnapshot) (hw : ∀ p ∈ c.phases, c.Waits now p)
    (indices : List Nat) : rounds now snapshots c indices = c := by
  induction indices with
  | nil => rfl
  | cons i rest ih =>
    have hround : c.round i now (snapshots i) = c := by
      cases hp : c.phases[i]? with
      | none => exact round_of_getElem?_eq_none hp now _
      | some p => exact round_of_waits hq hp (hw p (List.mem_of_getElem? hp)) _
    exact (congrArg (rounds now snapshots · rest) hround).trans ih

lemma rounds_of_not_waits {c : Controller} {now : Nanos} (hq : c.Quiet now)
    (snapshots : Nat → PhaseSnapshot) {index : Nat} {p : PhaseRun}
    (hp : c.phases[index]? = some p) (hw : ¬ c.Waits now p) {indices : List Nat}
    (hmem : index ∈ indices) :
    ∃ (i : Nat) (q q' : PhaseRun), c.phases[i]? = some q ∧
      (rounds now snapshots c indices).phases[i]? = some q' ∧ q.status.rank < q'.status.rank := by
  induction indices with
  | nil => simp at hmem
  | cons i rest ih =>
    have hskip (hround : c.round i now (snapshots i) = c) (hne : index ≠ i) :
        ∃ (i' : Nat) (q q' : PhaseRun), c.phases[i']? = some q ∧
          (rounds now snapshots c (i :: rest)).phases[i']? = some q' ∧
            q.status.rank < q'.status.rank := by
      have hcons : rounds now snapshots c (i :: rest) = rounds now snapshots c rest :=
        congrArg (rounds now snapshots · rest) hround
      rw [hcons]
      exact ih ((List.mem_cons.mp hmem).resolve_left hne)
    cases hpi : c.phases[i]? with
    | none =>
      refine hskip (round_of_getElem?_eq_none hpi now _) ?_
      rintro rfl
      rw [hp] at hpi
      cases hpi
    | some q =>
      by_cases hwi : c.Waits now q
      · refine hskip (round_of_waits hq hpi hwi _) ?_
        rintro rfl
        rw [hp] at hpi
        cases hpi
        exact hw hwi
      · obtain ⟨q₁, hq₁, hlt⟩ := round_of_not_waits hq hpi hwi (snapshots i)
        obtain ⟨q', hq', hle⟩ :=
          (rounds_forward now snapshots (c.round i now (snapshots i)) rest).2 i q₁ hq₁
        exact ⟨i, q, q', hpi, hq', Nat.lt_of_lt_of_le hlt hle⟩

lemma statuses_tick_eq_iff {c : Controller} {now : Nanos} (hq : c.Quiet now)
    (snapshots : Nat → PhaseSnapshot) :
    (c.tick now snapshots).statuses = c.statuses ↔ ∀ p ∈ c.phases, c.Waits now p := by
  have hq' : (c.begin now).Quiet now := ⟨hq.settled, hq.drained, hq.delays⟩
  constructor
  · intro he p hp
    by_contra hw
    obtain ⟨index, hlt, hpi⟩ := List.mem_iff_getElem.mp hp
    obtain ⟨i, q, q', hqi, hqi', hrank⟩ := rounds_of_not_waits (c := c.begin now) hq' snapshots
      (List.getElem?_eq_some_iff.mpr ⟨hlt, hpi⟩) hw (List.mem_range.mpr hlt)
    have hi : (c.tick now snapshots).statuses[i]? = c.statuses[i]? := by rw [he]
    have hqc : c.phases[i]? = some q := hqi
    have hqt : (c.tick now snapshots).phases[i]? = some q' := hqi'
    simp only [statuses, List.getElem?_map, hqc, hqt, Option.map_some, Option.some.injEq] at hi
    rw [hi] at hrank
    exact Nat.lt_irrefl _ hrank
  · intro hw
    rw [tick, rounds_of_waits hq' snapshots hw]
    rfl

end Controller

end LoadEngine
