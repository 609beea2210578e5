import LoadEngine.Proofs.TimerOrder
import LoadEngine.Proofs.TurnLoop

/-! A shard that is watched. Beside each run of a shard stands how much has come for the last user
of every slot, and which timers are set, in the order in which they were set. The queue of the shard
has these timers in the order of their times, and what has come for a user stays within its
scenario. -/

namespace LoadEngine

open Rehearsal (issues schedules)

namespace Shard

def sets (s : Shard) (now : Nanos) (phase slot : Nat) (cause : Cause) : List Timer :=
  match s.lanes.get? phase with
  | none => []
  | some lane => schedules (lane.drive phase now slot cause.act).2.1

def heard (s : Shard) (phase slot n : Nat) (cause : Cause) : Nat :=
  match s.lanes.get? phase with
  | none => n
  | some lane =>
    match lane.sessions.get? slot with
    | none => n
    | some session => session.heard lane.scenario n cause

end Shard

/-- What is seen of a run: for each phase and slot, how much has come for the last user; and the
timers that are set, the oldest first. -/
structure Watch where
  heard : Nat → Nat → Nat
  pending : List Timer

namespace Watch

def empty : Watch := ⟨fun _ _ => 0, []⟩

/-- What is seen after a turn, which `s` is about to take. A timer that fires is set no longer. -/
def after (w : Watch) (s : Shard) (now : Nanos) (phase slot : Nat) (cause : Cause) : Watch where
  heard p j := if p = phase ∧ j = slot then s.heard phase slot (w.heard phase slot) cause
    else w.heard p j
  pending := (cause.timer?.elim w.pending w.pending.erase) ++ s.sets now phase slot cause

end Watch

namespace Shard

/-- The states that a shard can come to, each with what was seen on the way. -/
inductive Watched : Shard → Watch → Prop
  | new (id : Nat) (template : Recorder) : Watched (.new id template) .empty
  | prepare {s : Shard} {w : Watch} {phase : Nat} {d : Draft} {scenario : Scenario}
      (h : Watched s w) (hphase : s.lanes.get? phase = none) (hbuilt : d.build = .ok scenario)
      (name : String) (capacity : Nat) : Watched (s.prepare phase name scenario capacity) w
  | reset {s : Shard} {w : Watch} {phase : Nat} {lane : Lane} (h : Watched s w)
      (hlane : s.lanes.get? phase = some lane) : Watched (s.collect phase true).1 w
  | turn {s s₁ : Shard} {w : Watch} {now : Nanos} {cause : Cause} {phase slot : Nat}
      (h : Watched s w) (harises : Arises s now cause phase slot s₁) :
      Watched (s₁.turn now phase slot cause).1 (w.after s₁ now phase slot cause)

variable {s s₁ : Shard} {w : Watch} {l : Ledger} {now : Nanos} {cause : Cause} {phase slot : Nat}

lemma Watched.run (h : Watched s w) : ∃ l, Run s l := by
  induction h with
  | new id template => exact ⟨_, .new id template⟩
  | prepare _ hphase hbuilt name capacity ih =>
    obtain ⟨l, hl⟩ := ih
    exact ⟨_, hl.prepare hphase hbuilt name capacity⟩
  | reset _ hlane ih =>
    obtain ⟨l, hl⟩ := ih
    exact ⟨_, hl.reset hlane⟩
  | turn _ harises ih =>
    obtain ⟨l, hl⟩ := ih
    exact ⟨_, hl.turn harises⟩

lemma Run.watched (h : Run s l) : ∃ w, Watched s w := by
  induction h with
  | new id template => exact ⟨_, .new id template⟩
  | prepare _ hphase hbuilt name capacity ih =>
    obtain ⟨w, hw⟩ := ih
    exact ⟨_, hw.prepare hphase hbuilt name capacity⟩
  | reset _ hlane ih =>
    obtain ⟨w, hw⟩ := ih
    exact ⟨_, hw.reset hlane⟩
  | turn _ harises ih =>
    obtain ⟨w, hw⟩ := ih
    exact ⟨_, hw.turn harises⟩

lemma sets_none (hlane : s.lanes.get? phase = none) : s.sets now phase slot cause = [] := by
  simp only [sets, hlane]

lemma sets_some {lane : Lane} (hlane : s.lanes.get? phase = some lane) :
    s.sets now phase slot cause = schedules (lane.drive phase now slot cause.act).2.1 := by
  simp only [sets, hlane]

lemma heard_of_none (hlane : s.lanes.get? phase = none) (n : Nat) :
    s.heard phase slot n cause = n := by
  simp only [Shard.heard, hlane]

lemma heard_of_free {lane : Lane} (hlane : s.lanes.get? phase = some lane)
    (hs : lane.sessions.get? slot = none) (n : Nat) : s.heard phase slot n cause = n := by
  simp only [Shard.heard, hlane, hs]

lemma heard_of_some {lane : Lane} (hlane : s.lanes.get? phase = some lane) {session : Session}
    (hs : lane.sessions.get? slot = some session) (n : Nat) :
    s.heard phase slot n cause = session.heard lane.scenario n cause := by
  simp only [Shard.heard, hlane, hs]

lemma carryOut_inOrder {settings : List Timer} (effects : List Effect)
    (h : InOrder s.timers.toList settings) :
    InOrder (s.carryOut effects).1.timers.toList (settings ++ schedules effects) := by
  induction effects generalizing s settings with
  | nil => rwa [schedules_nil, List.append_nil]
  | cons e rest ih =>
    cases e with
    | schedule timer =>
      rw [carryOut_schedule, schedules_schedule, List.append_cons]
      exact ih (s := { s with timers := s.timers.schedule timer }) (h.insert timer)
    | issue operation tag =>
      rw [carryOut_issue, schedules_issue]
      exact ih h

lemma turn_inOrder {settings : List Timer} (h : InOrder s.timers.toList settings) (now : Nanos)
    (phase slot : Nat) (cause : Cause) :
    InOrder (s.turn now phase slot cause).1.timers.toList
      (settings ++ s.sets now phase slot cause) := by
  cases hlane : s.lanes.get? phase with
  | none => rwa [sets_none hlane, turn_of_none hlane, List.append_nil]
  | some lane =>
    rw [sets_some hlane]
    simp only [turn, drive, hlane]
    exact carryOut_inOrder (s := { s with lanes := s.lanes.insert phase _ }) _ h

lemma Arises.inOrder {settings : List Timer} (ha : Arises s now cause phase slot s₁)
    (h : InOrder s.timers.toList settings) :
    InOrder s₁.timers.toList (cause.timer?.elim settings settings.erase) := by
  have htimers := ha.timers
  cases ha with
  | start ha =>
    rw [htimers] at h
    exact h
  | timer ha =>
    rw [htimers] at h
    exact h.pop
  | _ => exact h

lemma Watched.inOrder (h : Watched s w) : InOrder s.timers.toList w.pending := by
  induction h with
  | new => exact .nil
  | prepare _ _ _ _ _ ih => exact ih
  | reset _ hlane ih =>
    rw [collect_reset hlane]
    exact ih
  | turn _ harises ih => exact turn_inOrder (harises.inOrder ih) _ _ _ _

lemma Arises.lane (ha : Arises s now cause phase slot s₁) {p : Nat} {lane : Lane}
    (hlane : s₁.lanes.get? p = some lane) :
    ∃ before, s.lanes.get? p = some before ∧ lane.scenario = before.scenario ∧
      ∀ j, lane.sessions.item? j = before.sessions.item? j := by
  cases ha with
  | start ha =>
    obtain ⟨before, sessions, hbefore, hsessions, rfl⟩ := acquire_eq_some ha
    obtain ⟨rfl, rfl⟩ | ⟨-, hlane⟩ := OrderedMap.get?_insert_eq_some hlane
    · refine ⟨before, hbefore, rfl, fun j => ?_⟩
      have hitem := Pool.acquire_item? (congrArg Prod.fst hsessions) j
      rwa [hsessions] at hitem
    · exact ⟨lane, hlane, rfl, fun _ => rfl⟩
  | data | complete | timer | terminate => exact ⟨lane, hlane, rfl, fun _ => rfl⟩

lemma turn_lanes_some {lane : Lane} (hlane : s.lanes.get? phase = some lane) :
    (s.turn now phase slot cause).1.lanes =
      s.lanes.insert phase (lane.drive phase now slot cause.act).1 := by
  generalize hdrive : lane.drive phase now slot cause.act = out
  obtain ⟨lane', effects, verdict⟩ := out
  obtain ⟨s', outputs, hturned, hturn⟩ := turn_eq hlane hdrive
  rw [hturn]
  exact hturned.lanes

lemma Run.arises (h : Run s l) (ha : Arises s now cause phase slot s₁) {lane : Lane}
    (hlane : s₁.lanes.get? phase = some lane) {session : Session}
    (hs : lane.sessions.get? slot = some session) :
    ∃ reached weight log, lane.scenario.Sound reached weight ∧
      Turn.Coherent lane.scenario reached weight
        ⟨session, lane.requests, lane.recorder, []⟩ ∧
      session.Logged lane.scenario log ∧ (cause = .start → session.branches = []) := by
  obtain ⟨⟨reached, weight, hbooks⟩, -⟩ := h.books.arises ha hlane
  rw [if_pos rfl] at hbooks
  obtain ⟨-, hitem⟩ := Pool.get?_eq_some.mp hs
  have hplaced := hbooks.placed slot session hitem
  obtain ⟨before, hbefore, hscenario, hitems⟩ := ha.lane hlane
  obtain ⟨log, issued, hstory⟩ := h.stories hbefore slot session (hitems slot ▸ hitem)
  rw [← hscenario] at hstory
  refine ⟨reached, weight, log, hbooks.scenario, ⟨hplaced.sound, hbooks.requests, hplaced.keeps⟩,
    (hstory.logged hbooks.scenario).2.1, ?_⟩
  rintro rfl
  refine hbooks.vacant slot session hitem (Bool.eq_false_iff.mpr fun hlive => ?_)
  exact ((hbooks.live slot session hitem).mp hlive).2 rfl

end Shard

namespace Watch

variable {w : Watch} {s : Shard} {now : Nanos} {phase slot : Nat} {cause : Cause}

lemma after_heard_of_ne {p : Nat} (hp : p ≠ phase) :
    (w.after s now phase slot cause).heard p = w.heard p := by
  funext j
  exact if_neg fun hown => hp hown.1

lemma after_heard_self : (w.after s now phase slot cause).heard phase = fun j =>
    if j = slot then s.heard phase slot (w.heard phase slot) cause else w.heard phase j := by
  funext j
  simp only [after, true_and]

lemma after_heard_of_eq (hsame : s.heard phase slot (w.heard phase slot) cause =
    w.heard phase slot) : (w.after s now phase slot cause).heard phase = w.heard phase := by
  rw [after_heard_self, hsame]
  funext j
  exact ite_eq_right_iff.mpr fun hj => by rw [hj]

end Watch

structure Lane.Heeds (lane : Lane) (heard : Nat → Nat) : Prop where
  bound : ∀ slot, heard slot ≤ lane.scenario.awaited
  sessions : ∀ slot session, lane.sessions.item? slot = some session →
    session.Heeds lane.scenario (heard slot)

namespace Lane

lemma Heeds.congr {lane before : Lane} {heard : Nat → Nat} (h : before.Heeds heard)
    (hscenario : lane.scenario = before.scenario)
    (hitems : ∀ j, lane.sessions.item? j = before.sessions.item? j) : lane.Heeds heard where
  bound slot := by
    rw [hscenario]
    exact h.bound slot
  sessions slot session hsession := by
    rw [hitems] at hsession
    rw [hscenario]
    exact h.sessions slot session hsession

lemma new_heeds (name : String) (scenario : Scenario) (capacity : Nat) (recorder : Recorder) :
    (new name scenario capacity recorder).Heeds fun _ => 0 where
  bound _ := Nat.zero_le _
  sessions slot session hsession := by
    simp only [new, Pool.new_item?] at hsession
    split at hsession
    · cases hsession
      exact ⟨.inl rfl, Nat.zero_le _⟩
    · cases hsession

end Lane

namespace Shard

variable {s s₁ : Shard} {w : Watch} {l : Ledger} {now : Nanos} {cause : Cause} {phase slot : Nat}

lemma Run.drive_heeds (h : Run s l) (ha : Arises s now cause phase slot s₁) {lane : Lane}
    (hlane : s₁.lanes.get? phase = some lane) (hheeds : lane.Heeds (w.heard phase)) :
    (lane.drive phase now slot cause.act).1.Heeds
      ((w.after s₁ now phase slot cause).heard phase) := by
  cases hs : lane.sessions.get? slot with
  | none =>
    rw [Lane.drive_of_free hs, Watch.after_heard_of_eq (heard_of_free hlane hs _)]
    exact hheeds
  | some session =>
    obtain ⟨reached, weight, log, hsc, hcoherent, hlogged, hvacant⟩ := h.arises ha hlane hs
    obtain ⟨⟨_, _, hbooks⟩, -⟩ := h.books.arises ha hlane
    have hitem := (Pool.get?_eq_some.mp hs).2
    have hnext := Turn.Coherent.heeds ⟨lane.scenario, phase, now⟩ hsc hcoherent hlogged hvacant
      (hheeds.sessions slot session hitem)
    generalize hacted : cause.act ⟨lane.scenario, phase, now⟩
      ⟨session, lane.requests, lane.recorder, []⟩ = out at hnext
    obtain ⟨t, verdict⟩ := out
    obtain ⟨sessions, hdrive, -, -, -, hitems, -⟩ :=
      Lane.drive_eq hbooks.sessions hs phase now hacted
    rw [hdrive, Watch.after_heard_self, heard_of_some hlane hs]
    refine ⟨fun j => ?_, fun j other hother => ?_⟩
    · by_cases hj : j = slot
      · rw [if_pos hj]
        exact hnext.bound
      · rw [if_neg hj]
        exact hheeds.bound j
    · simp only [hitems] at hother
      by_cases hj : j = slot
      · rw [if_pos hj] at hother ⊢
        rw [← Option.some.inj hother]
        exact hnext
      · rw [if_neg hj] at hother ⊢
        exact hheeds.sessions j other hother

structure Heeds (s : Shard) (heard : Nat → Nat → Nat) : Prop where
  lanes : ∀ phase lane, s.lanes.get? phase = some lane → lane.Heeds (heard phase)
  idle : ∀ phase, s.lanes.get? phase = none → heard phase = fun _ => 0

lemma Heeds.prepare {heard : Nat → Nat → Nat} (h : s.Heeds heard)
    (hphase : s.lanes.get? phase = none) (name : String) (scenario : Scenario) (capacity : Nat) :
    (s.prepare phase name scenario capacity).Heeds heard where
  lanes p lane hlane := by
    obtain ⟨rfl, rfl⟩ | ⟨-, hlane⟩ := OrderedMap.get?_insert_eq_some hlane
    · rw [h.idle p hphase]
      exact Lane.new_heeds name scenario capacity s.template
    · exact h.lanes p lane hlane
  idle p hnone := h.idle p (OrderedMap.get?_insert_eq_none hnone).2

lemma Heeds.reset {heard : Nat → Nat → Nat} (h : s.Heeds heard) {lane : Lane}
    (hlane : s.lanes.get? phase = some lane) : (s.collect phase true).1.Heeds heard := by
  rw [collect_reset hlane]
  refine ⟨fun p other hother => ?_,
    fun p hnone => h.idle p (OrderedMap.get?_insert_eq_none hnone).2⟩
  obtain ⟨rfl, rfl⟩ | ⟨-, hother⟩ := OrderedMap.get?_insert_eq_some hother
  · exact (h.lanes p lane hlane).congr rfl fun j => Pool.resetMarks_item? ..
  · exact h.lanes p other hother

lemma Heeds.arises {heard : Nat → Nat → Nat} (h : s.Heeds heard)
    (ha : Arises s now cause phase slot s₁) : s₁.Heeds heard where
  lanes p lane hlane := by
    obtain ⟨before, hbefore, hscenario, hitems⟩ := ha.lane hlane
    exact (h.lanes p before hbefore).congr hscenario hitems
  idle p hnone := h.idle p (ha.lanes_none.mp hnone)

lemma Heeds.turn (hrun : Run s l) (h : s.Heeds w.heard) (ha : Arises s now cause phase slot s₁) :
    (s₁.turn now phase slot cause).1.Heeds (w.after s₁ now phase slot cause).heard := by
  obtain ⟨hlanes, hidle⟩ := h.arises ha
  cases hlane : s₁.lanes.get? phase with
  | none =>
    have hheard : (w.after s₁ now phase slot cause).heard = w.heard := by
      funext p
      by_cases hp : p = phase
      · rw [hp, Watch.after_heard_of_eq (heard_of_none hlane _)]
      · rw [Watch.after_heard_of_ne hp]
    rw [turn_of_none hlane, hheard]
    exact ⟨hlanes, hidle⟩
  | some lane =>
    refine ⟨fun p other hp => ?_, fun p hp => ?_⟩
    · rw [turn_lanes_some hlane] at hp
      obtain ⟨rfl, rfl⟩ | ⟨hphase, hp⟩ := OrderedMap.get?_insert_eq_some hp
      · exact hrun.drive_heeds ha hlane (hlanes p lane hlane)
      · rw [Watch.after_heard_of_ne hphase]
        exact hlanes p other hp
    · rw [turn_lanes_some hlane] at hp
      obtain ⟨hphase, hp⟩ := OrderedMap.get?_insert_eq_none hp
      rw [Watch.after_heard_of_ne hphase]
      exact hidle p hp

theorem Watched.heeds (h : Watched s w) : s.Heeds w.heard := by
  induction h with
  | new id template => exact ⟨nofun, fun _ _ => rfl⟩
  | prepare _ hphase _ name capacity ih => exact ih.prepare hphase name _ capacity
  | reset _ hlane ih => exact ih.reset hlane
  | turn h harises ih =>
    obtain ⟨l, hrun⟩ := h.run
    exact ih.turn hrun harises

end Shard

end LoadEngine
