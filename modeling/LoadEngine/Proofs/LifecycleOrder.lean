import LoadEngine.Proofs.SimulationPasses

/-! The lives of phases in a simulation. Calls come in any order, and anything can happen between
them to the time, to the shards and to what these tell; a call that is refused half-way counts
too. -/

namespace LoadEngine

namespace Simulation

/-- What can be asked of a simulation. -/
inductive Call where
  | start (phase : String)
  | finish (phase : String)
  | tryTerminate (phase : String)
  | terminate (phase : String)
  | tick
  | turn (interval : Interval)
  | run
  | shutdown

def Call.act : Call → Sim (Option RunOutcome)
  | start phase => do
    Sim.startPhase phase
    pure none
  | finish phase => do
    Sim.finishPhase phase
    pure none
  | tryTerminate phase => do
    let _ ← Sim.tryTerminatePhase phase
    pure none
  | terminate phase => do
    Sim.terminatePhase phase
    pure none
  | tick => do
    Sim.tick
    pure none
  | turn interval => do
    let _ ← Sim.turn interval
    pure none
  | run => do
    let report ← Sim.run
    pure (some report.outcome)
  | shutdown => do
    Sim.shutdown
    pure none

/-- The phases that a call makes to end, whatever they wait for: the one it is about, those that
take too long at some time from its beginning to its end, or all. -/
def Call.Forces (s s' : Simulation) (r : Except EngineError (Option RunOutcome)) :
    Call → Controller → Nat → Prop
  | start _, _, _ | finish _, _, _ | tryTerminate _, _, _ => False
  | terminate phase, c, i => ∃ p, c.phases[i]? = some p ∧ p.name = phase
  | tick, c, i | turn _, c, i => c.isOverdue i s.now
  | run, c, i => (∃ time, s.now ≤ time ∧ time ≤ s'.now ∧ c.isOverdue i time) ∨
    ∃ cause, r = .ok (some (.aborted cause))
  | shutdown, _, _ => True

variable {settings : Settings} {benchmark : Benchmark} {services : Registry Service}
  {s s' : Simulation} {r : Except EngineError (Option RunOutcome)}

lemma Onward.then {α β : Type} {forced : Controller → Nat → Prop} {act : Sim α} {b : β}
    {r : Except EngineError β} (hact : Sim.Obeys (fun _ => Onward forced) act s)
    (h : s.perform (do let _ ← act; pure b) = some (r, s')) : Onward forced s s' :=
  Sim.Obeys.bind (Sim.lasting_onward forced) hact (fun _ _ _ => .pure (Sim.lasting_onward forced) _)
    r s' h

open Sim in
lemma Call.onward {call : Call} (h : s.perform call.act = some (r, s')) :
    Onward (call.Forces s s' r) s s' := by
  cases call with
  | start phase => exact .then ((covers_onward _).startPhase phase) h
  | finish phase => exact .then ((covers_onward _).finishPhase phase) h
  | tryTerminate phase => exact .then ((covers_onward _).tryTerminatePhase phase) h
  | terminate phase =>
    refine .then ((covers_onward _).terminatePhase fun s i hposition => ?_) h
    obtain ⟨hi, hname, -⟩ := List.findIdx?_eq_some_iff_getElem.mp hposition
    exact ⟨s.controller.phases[i], List.getElem?_eq_getElem hi, by simpa using hname⟩
  | tick => exact .then ((covers_onward fun c i => c.isOverdue i s.now).tick fun _ _ => id) h
  | turn interval =>
    exact .then ((covers_onward fun c i => c.isOverdue i s.now).turn interval fun _ _ => id) h
  | shutdown => exact .then (fun _ _ => shutdown_onward) h
  | run =>
    rcases perform_bind.mp h with ⟨e, hrun, rfl⟩ | ⟨report, s₁, hrun, hlast⟩
    · exact (run_onward hrun).mono fun c i => .imp_right fun ⟨_, h⟩ => nomatch h
    · cases hlast
      refine (run_onward hrun).mono fun c i => .imp_right ?_
      rintro ⟨cause, houtcome⟩
      exact ⟨cause, by cases report; cases houtcome; rfl⟩

lemma Call.Forces.back {call : Call} {c c₁ : Controller} {i : Nat} {p p₁ : PhaseRun}
    (hp : c.phases[i]? = some p) (hp₁ : c₁.phases[i]? = some p₁) (hphase : p₁.phase = p.phase)
    (hstarted : p₁.startedAt = p.startedAt) (hstatus : p₁.status = p.status)
    (h : call.Forces s s' r c₁ i) : call.Forces s s' r c i := by
  have hover (time : Nanos) : c₁.isOverdue i time = c.isOverdue i time := by
    have helapsed : p₁.elapsed time = p.elapsed time := by
      rw [PhaseRun.elapsed, hstarted]
      rfl
    simp only [Controller.isOverdue, hp, hp₁, Option.any_some, PhaseRun.isOverdue, helapsed,
      hphase, hstatus]
  cases call with
  | start | finish | tryTerminate => exact h
  | shutdown => exact h
  | terminate phase =>
    obtain ⟨q, hq, hname⟩ := h
    rw [hp₁, Option.some.injEq] at hq
    subst hq
    exact ⟨p, hp, (congrArg Phase.name hphase).symm.trans hname⟩
  | tick | turn => exact (hover s.now).symm.trans h
  | run =>
    apply h.imp_left
    rintro ⟨time, hlow, hhigh, h⟩
    exact ⟨time, hlow, hhigh, (hover time).symm.trans h⟩

/-- The simulations that a benchmark can come to. -/
inductive Reachable (settings : Settings) (benchmark : Benchmark) (services : Registry Service) :
    Simulation → Prop
  | begins {s : Simulation} : Simulation.new settings benchmark services = .ok s →
    Reachable settings benchmark services s
  /-- The time passes, shards do what they do, and tell of it. -/
  | elsewhere {s s' : Simulation} : Reachable settings benchmark services s →
    s'.controller = s.controller → Reachable settings benchmark services s'
  | calls {s s' : Simulation} {r : Except EngineError (Option RunOutcome)} (call : Call) :
    Reachable settings benchmark services s → s.perform call.act = some (r, s') →
    Reachable settings benchmark services s'

lemma new_ok (h : Simulation.new settings benchmark services = .ok s) :
    Controller.new settings benchmark services.contains = .ok s.controller := by
  obtain ⟨c, hc, h⟩ := bind_eq_ok.mp h
  cases h
  exact hc

lemma ordered_new (h : Simulation.new settings benchmark services = .ok s) :
    s.controller.Ordered := by
  have hfresh {p : PhaseRun} (hp : p ∈ s.controller.phases) :
      p.startedAt = none ∧ p.status = .notStarted := by
    rw [(Controller.new_ok (new_ok h)).1] at hp
    obtain ⟨phase, -, rfl⟩ := List.mem_map.mp hp
    exact ⟨rfl, rfl⟩
  constructor
  · intro p hp hsome
    rw [(hfresh hp).1] at hsome
    cases hsome
  · intro p hp _
    exact .inl (hfresh hp).2

namespace Reachable

lemma accepted (h : Reachable settings benchmark services s) : benchmark.validate = .ok () := by
  induction h with
  | begins h =>
    obtain ⟨-, -, h⟩ := bind_eq_ok.mp (new_ok h)
    obtain ⟨⟨⟩, hvalid, -⟩ := bind_eq_ok.mp h
    exact hvalid
  | elsewhere _ _ ih => exact ih
  | calls _ _ _ ih => exact ih

lemma ordered (h : Reachable settings benchmark services s) : s.controller.Ordered := by
  induction h with
  | begins h => exact ordered_new h
  | elsewhere _ hsame ih => rwa [hsame]
  | calls call _ hcall ih => exact (Call.onward hcall).steps.ordered ih

lemma runs (h : Reachable settings benchmark services s) :
    s.controller.phases.map PhaseRun.phase = benchmark.phases := by
  induction h with
  | begins h =>
    rw [(Controller.new_ok (new_ok h)).1, List.map_map]
    exact List.map_id _
  | elsewhere _ hsame ih => rwa [hsame]
  | calls call _ hcall ih => exact (Call.onward hcall).steps.runs.trans ih

/-- Phases keep their order. Each is one of the benchmark. What a phase that was started depends on
has come far enough, and one that was not started is not under way. Whatever is called, phases only
go forward, by the steps that a controller can take; and a phase that was finished and comes to its
end has waited for all that it ends after, or the call has made it end. A start that is refused,
other than by a shard that does not run, has done nothing but take in what the shards had told. -/
theorem keeps_order (h : Reachable settings benchmark services s) :
    (s.controller.phases.map PhaseRun.phase = benchmark.phases ∧
      (benchmark.phases.map Phase.name).Nodup) ∧
    (∀ p ∈ s.controller.phases,
      (p.startedAt.isSome = true → ∀ d ∈ p.phase.dependsOn, s.controller.Meets d) ∧
      (p.startedAt = none → p.status = .notStarted ∨ p.status = .terminated)) ∧
    (∀ (call : Call) (r : Except EngineError (Option RunOutcome)) (s' : Simulation),
      s.perform call.act = some (r, s') →
        Controller.Forward s.controller s'.controller ∧
        Controller.Steps (call.Forces s s' r) s.controller s'.controller ∧
        ∀ (i : Nat) (p p' : PhaseRun), s.controller.phases[i]? = some p →
          s'.controller.phases[i]? = some p' → p.status = .finished → p'.status = .terminated →
            s'.controller.EndsAfter p' ∨ call.Forces s s' r s.controller i) ∧
    ∀ (name : String) (e : EngineError) (s' : Simulation),
      s.perform (Sim.startPhase name) = some (.error e, s') →
      (∀ shard, e ≠ .shardUnavailable shard) →
        ∃ r s₁, s.perform Sim.drain = some (r, s₁) ∧ (r = .ok () ∨ r = .error e) ∧
          s'.cluster = s₁.cluster ∧ s'.controller.phases = s₁.controller.phases := by
  refine ⟨⟨h.runs, (Benchmark.validate_ok h.accepted).2.1⟩, ?_, ?_, ?_⟩
  · intro p hp
    refine ⟨fun hstarted d hd => ?_, h.ordered.unstarted p hp⟩
    have hmay := h.ordered.started p hp hstarted
    exact Controller.meets_of_progressed (List.all_eq_true.mp hmay d hd)
  · intro call r s' hcall
    have hsteps := (Call.onward hcall).steps
    refine ⟨hsteps.forward, hsteps, ?_⟩
    intro i p p' hp hp' hfinished hterminated
    -- A call that makes the phase end from a state on the way does so from the first one too.
    by_cases hforced : call.Forces s s' r s.controller i
    · exact .inr hforced
    · left
      obtain ⟨p'', hp'', -, -, hstatus⟩ := hsteps.waited hp hfinished
        fun c₁ p₁ hp₁ hphase hstarted hstatus hforces =>
          hforced (hforces.back hp hp₁ hphase hstarted (hstatus.trans hfinished.symm))
      rw [hp', Option.some.injEq] at hp''
      subst hp''
      rw [hterminated] at hstatus
      exact (hstatus.resolve_left (by decide)).2
  · intro name e s' hrefused he
    exact Sim.startPhase_refused hrefused he

def relayFirst : Phase :=
  Phase.simple "a" ⟨[⟨"s", []⟩], [0], [], [], 1, (∅ : OrderedMap Nat Nat).insert 0 1⟩ .noop

def relaySecond : Phase :=
  { Phase.simple "b" ⟨[⟨"s", []⟩], [0], [], [], 1, (∅ : OrderedMap Nat Nat).insert 0 1⟩ .noop with
    dependsOn := [⟨"a", .terminated⟩]
    terminateAfter := ["a"] }

def relay : Benchmark := ⟨"relay", [relayFirst, relaySecond]⟩

def relayStart : Simulation where
  controller := {
    settings := .default 1
    name := relay.name
    phases := [.new relayFirst 1, .new relaySecond 1]
    startedAt := none
    fault := none }
  services := .empty
  cluster := .empty
  shards := []

def relayDone : Simulation :=
  { relayStart with controller := relayStart.controller.tick 0 fun _ => .empty }

lemma relayStart_new : Simulation.new (.default 1) relay .empty = .ok relayStart := rfl

lemma relayStart_tick : relayStart.perform Call.tick.act = some (.ok none, relayDone) := rfl

theorem relay_keeps_order :
    Reachable (.default 1) relay .empty relayDone ∧
      relayDone.controller.statuses = [.terminated, .terminated] ∧
      relayDone.controller.Meets ⟨"a", .terminated⟩ ∧
      Controller.Steps (Call.tick.Forces relayStart relayDone (.ok none)) relayStart.controller
        relayDone.controller := by
  have hstart : Reachable (.default 1) relay .empty relayStart := .begins relayStart_new
  have hdone : Reachable (.default 1) relay .empty relayDone := .calls .tick hstart relayStart_tick
  obtain ⟨-, -, hcalls, -⟩ := keeps_order hstart
  obtain ⟨-, hphases, -, -⟩ := keeps_order hdone
  have hsecond := List.getElem_mem (l := relayDone.controller.phases) (n := 1) (by decide)
  refine ⟨hdone, rfl, (hphases _ hsecond).1 rfl _ List.mem_cons_self, ?_⟩
  exact (hcalls .tick _ _ relayStart_tick).2.1

end Reachable

end Simulation

end LoadEngine
