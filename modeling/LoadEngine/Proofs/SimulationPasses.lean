import LoadEngine.Proofs.Fleet
import LoadEngine.Proofs.PhaseOrder
import LoadEngine.Proofs.SimulationTick
import Mathlib.Logic.Relation

/-! All that is done in a simulation is made of few things, so a relation that these keep to is
kept by every call. One such relation: whether a call is refused half-way or not, the controller
only goes from one step to the next, and the clock never goes back. -/

namespace LoadEngine

namespace Sim

variable {α : Type} {s s' : Simulation}

def Handles (handle : Notice → Sim Unit) : Prop :=
  ∀ (notice : Notice) (s : Simulation) (r : Except EngineError Unit) (s' : Simulation),
    s.perform (handle notice) = some (r, s') →
      ∃ r', s.perform (handleNotice notice) = some (r', s')

lemma handles_handleNotice : Handles handleNotice := fun _ _ r _ h => ⟨r, h⟩

lemma handles_absorb : Handles absorb := by
  intro notice s r s' h
  rcases perform_bind.mp h with ⟨e, htry, -⟩ | ⟨a, s₁, htry, hrest⟩
  · obtain ⟨r', hr', -⟩ := perform_attempt.mp htry
    cases hr'
  · obtain ⟨r', -, hhandle⟩ := perform_attempt.mp htry
    refine ⟨r', ?_⟩
    cases a with
    | ok =>
      cases hrest
      exact hhandle
    | error e =>
      dsimp only at hrest
      split at hrest
      · cases hrest
        exact hhandle
      · cases hrest
        exact hhandle

lemma perform_takeNotice {handle : Notice → Sim Unit} {r : Except EngineError Bool}
    (h : s.perform (takeNotice handle) = some (r, s')) :
    (s.cluster.notices = [] ∧ s' = s) ∨
      ∃ notice rest r', s.cluster.notices = notice :: rest ∧
        { s with cluster := { s.cluster with notices := rest } }.perform (handle notice) =
          some (r', s') := by
  rcases perform_bind.mp h with ⟨e, hnext, -⟩ | ⟨next, s₁, hnext, h⟩
  · cases hnext
  · obtain ⟨rfl, rfl⟩ := yields_modifyGet.1 hnext
    cases hn : s.cluster.notices with
    | nil =>
      simp only [hn] at h
      cases h
      exact .inl ⟨rfl, rfl⟩
    | cons notice rest =>
      simp only [hn] at h
      rcases perform_bind.mp h with ⟨e, hhandle, -⟩ | ⟨u, s₁, hhandle, hlast⟩
      · exact .inr ⟨notice, rest, _, rfl, hhandle⟩
      · cases hlast
        exact .inr ⟨notice, rest, _, rfl, hhandle⟩

end Sim

/-- A phase that is made to end can be ended, or need not be waited for since a contract is
broken. -/
def Controller.IsClosing (c : Controller) (index : Nat) : Prop :=
  ∃ p, c.phases[index]? = some p ∧ p.status = .terminating ∧
    (p.canTerminate = true ∨ c.fault.isSome = true)

namespace Sim

/-- A relation is kept by the few things that all others are made of, phases being made to end only
where `may` allows it. -/
structure Covers (R : Bool → Simulation → Simulation → Prop) (may : Simulation → Nat → Prop) :
    Prop where
  lasting : Lasting R
  begins (time : Nanos) (s : Simulation) :
    R false s { s with controller := s.controller.begin time }
  starts (index : Nat) (time : Nanos) (s : Simulation) :
    Obeys (fun _ => R false) (follow fun c => c.startOnDemand index time) s
  advances (index : Nat) (time : Nanos) (s : Simulation) :
    Obeys (fun _ => R false) (follow fun c => c.advance index time) s
  finishes (index : Nat) (time : Nanos) (s : Simulation) :
    R false s { s with controller := (s.controller.finish index time).1 }
  hears {s s' : Simulation} {notice : Notice} {rest : List Notice} {r : Except EngineError Unit} :
    s.cluster.notices = notice :: rest →
    { s with cluster := { s.cluster with notices := rest } }.perform (handleNotice notice) =
      some (r, s') → R false s s'
  waits (limit : Option Nat) (s : Simulation) : Obeys (fun _ => R false) (wait limit) s
  terminates {index : Nat} {s : Simulation} :
    may s index → Obeys (fun _ => R false) (beginTermination index) s
  concludes {index : Nat} {s : Simulation} :
    s.controller.isReady index = true → Obeys R (conclude index) s
  closes {index : Nat} {s : Simulation} : s.controller.IsClosing index → Obeys R (conclude index) s

namespace Covers

variable {R : Bool → Simulation → Simulation → Prop} {may : Simulation → Nat → Prop}
  {handle : Notice → Sim Unit} {index : Nat} {time : Nanos}

variable (h : Covers R may)

include h

lemma takeNotice (hhandle : Handles handle) : Obeys R (takeNotice handle) s := by
  refine .calm h.lasting fun r s' htake => ?_
  rcases perform_takeNotice htake with ⟨-, rfl⟩ | ⟨notice, rest, r', hn, hact⟩
  · exact h.lasting.refl _
  · obtain ⟨r'', hact⟩ := hhandle _ _ _ _ hact
    exact h.hears hn hact

lemma takeNotices (hhandle : Handles handle) (fuel : Nat) :
    Obeys R (takeNotices handle fuel) s := by
  induction fuel generalizing s with
  | zero => exact .pure h.lasting _
  | succ fuel ih =>
    refine .bind h.lasting (h.takeNotice hhandle) fun more s₁ _ => ?_
    cases more with
    | false => exact .pure h.lasting _
    | true => exact ih

lemma awaitNotice (hhandle : Handles handle) : Obeys R (awaitNotice handle) s := by
  have htake (s : Simulation) : Obeys R (do let _ ← Sim.takeNotice handle) s :=
    .bind h.lasting (h.takeNotice hhandle) fun _ _ _ => .pure h.lasting _
  refine .get_bind ?_
  split
  · exact .bind h.lasting (.calm h.lasting (h.waits none s)) fun _ _ _ => htake _
  · exact htake s

lemma drain : Obeys R drain s := by
  refine .get_bind ?_
  cases s.controller.fault with
  | none => exact h.takeNotices handles_handleNotice _
  | some cause =>
    exact .bind h.lasting (.throw h.lasting _) fun _ _ _ =>
      h.takeNotices handles_handleNotice _

lemma endPhase : Obeys R (endPhase index) s := by
  refine .get_bind ?_
  split
  · exact .pure h.lasting _
  · split
    · rename_i hready
      exact .bind h.lasting (h.concludes hready) fun _ _ _ => .pure h.lasting _
    · exact .pure h.lasting _

lemma startPhase (name : String) : Obeys R (startPhase name) s :=
  .bind h.lasting h.drain fun _ _ _ => .bind h.lasting (.shards h.lasting) fun _ _ _ =>
    .bind h.lasting (.index h.lasting _) fun _ _ _ =>
      .bind h.lasting (.now h.lasting) fun _ _ _ => .calm h.lasting (h.starts _ _ _)

lemma finishPhase (name : String) : Obeys R (finishPhase name) s :=
  .bind h.lasting h.drain fun _ _ _ => .bind h.lasting (.index h.lasting _) fun _ _ _ =>
    .bind h.lasting (.now h.lasting) fun _ _ _ =>
      .bind h.lasting (.control (h.finishes _ _ _)) fun _ _ _ => .orThrow h.lasting _

lemma tryTerminatePhase (name : String) : Obeys R (tryTerminatePhase name) s :=
  .bind h.lasting h.drain fun _ _ _ => .bind h.lasting (.index h.lasting _) fun _ _ _ =>
    h.endPhase

lemma awaitEnd (fuel : Nat) : Obeys R (awaitEnd index fuel) s := by
  induction fuel generalizing s with
  | zero => exact .stall
  | succ fuel ih =>
    refine .bind h.lasting h.endPhase fun ended s₁ _ => ?_
    cases ended with
    | true => exact .pure h.lasting _
    | false =>
      exact .bind h.lasting (h.awaitNotice handles_handleNotice) fun _ _ _ => ih

lemma terminatePhase {name : String}
    (hmay : ∀ s i, s.controller.position? name = some i → may s i) :
    Obeys R (terminatePhase name) s := by
  refine .bind h.lasting h.drain fun _ s₁ _ =>
    .bind h.lasting (.index h.lasting name) fun i s₂ hindex => ?_
  obtain ⟨rfl, hposition⟩ := yields_index hindex
  exact .bind h.lasting (.calm h.lasting (h.terminates (hmay _ i hposition))) fun _ _ _ =>
    h.awaitEnd _

lemma round (hmay : ∀ s i, s.controller.isOverdue i time = true → may s i) :
    Obeys R (round index time) s := by
  refine .bind h.lasting (.calm h.lasting (h.advances _ _ _)) fun _ s₁ _ => .get_bind ?_
  have hend (s : Simulation) : Obeys R (do let _ ← Sim.endPhase index) s :=
    .bind h.lasting h.endPhase fun _ _ _ => .pure h.lasting _
  split
  · rename_i hover
    exact .bind h.lasting (.calm h.lasting (h.terminates (hmay _ _ hover))) fun _ _ _ => hend _
  · exact hend _

lemma tick (hmay : ∀ (s₁ : Simulation) i, s₁.controller.isOverdue i s.now = true → may s₁ i) :
    Obeys R tick s := by
  refine .bind h.lasting h.drain fun _ s₁ hdrain =>
    .bind h.lasting (.now h.lasting) fun time s₂ hnow => ?_
  obtain ⟨rfl, rfl⟩ := yields_now.1 hnow
  rw [(yields_drain hdrain).2]
  exact .bind h.lasting (.control (h.begins _ _)) fun _ _ _ =>
    .get_bind (.forM h.lasting (fun _ _ => h.round hmay) _)

lemma turn (interval : Interval)
    (hmay : ∀ (s₁ : Simulation) i, s₁.controller.isOverdue i s.now = true → may s₁ i) :
    Obeys R (turn interval) s := by
  refine .get_bind ?_
  split
  · exact .bind h.lasting (h.tick hmay) fun _ _ _ => .pure h.lasting _
  · refine .bind h.lasting (h.takeNotice handles_handleNotice) fun taken _ _ => ?_
    cases taken with
    | true => exact .pure h.lasting _
    | false =>
      exact .bind h.lasting (.calm h.lasting (h.waits _ _)) fun _ _ _ => .pure h.lasting _

lemma abort (hmay : ∀ s i, may s i) : Obeys R abort s :=
  .get_bind (.forM h.lasting (fun i s => .bind h.lasting
    (.calm h.lasting (.attempt (h.terminates (hmay s i)))) fun _ _ _ => .pure h.lasting _) _)

lemma awaitDrained (fuel : Nat) : Obeys R (awaitDrained index fuel) s := by
  induction fuel generalizing s with
  | zero => exact .stall
  | succ fuel ih =>
    refine .get_bind ?_
    dsimp only
    split
    · exact .pure h.lasting _
    · exact .bind h.lasting (h.awaitNotice handles_absorb) fun _ _ _ => ih

end Covers

end Sim

namespace Simulation

structure Onward (forced : Controller → Nat → Prop) (s s' : Simulation) : Prop where
  steps : Controller.Steps forced s.controller s'.controller
  now : s.now ≤ s'.now

variable {forced forced' : Controller → Nat → Prop} {s s' s'' : Simulation}

namespace Onward

lemma mono (himp : ∀ c i, forced c i → forced' c i) (h : Onward forced s s') :
    Onward forced' s s' := ⟨h.steps.mono himp, h.now⟩

lemma refl (s : Simulation) : Onward forced s s := ⟨.refl, le_rfl⟩

lemma trans (h : Onward forced s s') (h' : Onward forced s' s'') : Onward forced s s'' :=
  ⟨h.steps.trans h'.steps, h.now.trans h'.now⟩

lemma of_step {c : Controller} (hstep : Controller.Step forced s.controller c)
    (hc : s'.controller = c) (hnow : s'.now = s.now) : Onward forced s s' :=
  ⟨.single (hc ▸ hstep), hnow.ge⟩

lemma of_controller (hc : s'.controller = s.controller) (hnow : s.now ≤ s'.now) :
    Onward forced s s' := ⟨hc ▸ .refl, hnow⟩

end Onward

end Simulation

namespace Sim

open Simulation (Onward)

variable {α : Type} {forced : Controller → Nat → Prop} {index : Nat} {s s' : Simulation}

lemma lasting_onward (forced : Controller → Nat → Prop) : Lasting fun _ => Onward forced where
  refl := Onward.refl
  trans := Onward.trans
  widen := id

lemma covers_onward (forced : Controller → Nat → Prop) :
    Covers (fun _ => Onward forced) fun s i => forced s.controller i where
  lasting := lasting_onward forced
  begins time s := .of_step (c := s.controller.begin time) (.of_phases_eq rfl) rfl rfl
  finishes i time s := .of_step (s.controller.finish_step i time) rfl rfl
  starts i time s r s' h := by
    obtain ⟨hc, hnow, -⟩ := perform_follow h
    exact .of_step (s.controller.startOnDemand_step i time) hc hnow
  advances i time s r s' h := by
    obtain ⟨hc, hnow, -⟩ := perform_follow h
    exact .of_step (s.controller.advance_step i time) hc hnow
  hears {s s' notice rest r} _ h := by
    obtain ⟨hc, hnow, -⟩ := perform_handleNotice h
    exact .of_step (s.controller.onNotice_step s.now notice) hc hnow
  waits limit s := .onCluster fun cluster a h => by
    obtain ⟨c, hwait, he⟩ := Option.map_eq_some_iff.mp h
    cases he
    exact .of_controller rfl (Nat.mul_le_mul_right _ (Cluster.waitNotice_le hwait))
  terminates hforced r s' h := by
    obtain ⟨hc, hnow⟩ := perform_beginTermination h
    exact .of_step (Controller.terminate_step hforced _) hc hnow
  concludes {i s} hready r s' h := by
    obtain ⟨⟨-, hkeep⟩ | ⟨snapshot, hc⟩, hnow⟩ := perform_conclude h
    · exact .of_controller hkeep hnow.ge
    · exact .of_step (Controller.complete_step hready snapshot) hc hnow
  closes {i s} hclosing r s' h := by
    obtain ⟨p, hp, hstatus, -⟩ := hclosing
    obtain ⟨⟨-, hkeep⟩ | ⟨snapshot, hc⟩, hnow⟩ := perform_conclude h
    · exact .of_controller hkeep hnow.ge
    · refine .of_step (Controller.close_step (fun q hq => ?_) snapshot) hc hnow
      rw [hp, Option.some.injEq] at hq
      rwa [← hq]

lemma yields_awaitDrained {fuel : Nat} {u : Unit} (h : Yields (awaitDrained index fuel) s u s') :
    s'.controller.fault.isSome = true ∨ s'.controller.canTerminate index = true ∨
      s'.controller.isTerminated index = true := by
  induction fuel generalizing s with
  | zero => cases h
  | succ fuel ih =>
    rw [awaitDrained, Yields, perform_get_bind] at h
    dsimp only at h
    split at h
    · rename_i hover
      cases h
      simpa [or_assoc] using hover
    · obtain ⟨u₁, s₁, -, hrest⟩ := yields_bind.1 h
      exact ih hrest

lemma isClosing_of_awaitDrained {s₁ s₂ : Simulation} {u u' : Unit} {fuel : Nat}
    (hlt : index < s.controller.phases.length) (hbegin : Yields (beginTermination index) s u s₁)
    (hawait : Yields (awaitDrained index fuel) s₁ u' s₂)
    (hopen : s₂.controller.isTerminated index = false) : s₂.controller.IsClosing index := by
  have hforward := ((covers_onward fun _ _ => False).awaitDrained fuel _ _ hawait).steps.forward
  rw [(perform_beginTermination hbegin).1] at hforward
  have hlt₂ : index < s₂.controller.phases.length := by
    rw [hforward.1, s.controller.terminate_length]
    exact hlt
  have hp := List.getElem?_eq_getElem hlt₂
  refine ⟨_, hp, hforward.terminating hopen hp, ?_⟩
  rcases yields_awaitDrained hawait with hfault | hready | hover
  · exact .inr hfault
  · rw [Controller.canTerminate, hp] at hready
    exact .inl hready
  · rw [hopen] at hover
    cases hover

variable {R : Bool → Simulation → Simulation → Prop} {may : Simulation → Nat → Prop}

lemma Covers.closePhase (h : Covers R may) (hmay : ∀ s i, may s i)
    (hlt : index < s.controller.phases.length) : Obeys R (closePhase index) s := by
  refine .get_bind ?_
  split
  · exact .pure h.lasting _
  · refine .bind h.lasting (.calm h.lasting (h.terminates (hmay s index))) fun _ s₁ hbegin => ?_
    refine .bind h.lasting (h.awaitDrained _) fun _ s₂ hawait => .get_bind ?_
    split
    · exact .pure h.lasting _
    · rename_i hopen
      exact h.closes (isClosing_of_awaitDrained hlt hbegin hawait (by simpa using hopen))

lemma Covers.closeEach (h : Covers R may) (hmay : ∀ s i, may s i) {indices : List Nat}
    (hlt : ∀ i ∈ indices, i < s.controller.phases.length) :
    Obeys R (indices.forM Sim.closePhase) s := by
  induction indices generalizing s with
  | nil => exact .pure h.lasting _
  | cons i rest ih =>
    obtain ⟨hi, hrest⟩ := List.forall_mem_cons.mp hlt
    refine .bind h.lasting (h.closePhase hmay hi) fun _ s₁ hclose => ih ?_
    have honward := (covers_onward fun _ _ => True).closePhase (fun _ _ => trivial) hi _ _ hclose
    rwa [honward.steps.forward.1]

lemma Covers.closePhases (h : Covers R may) (hmay : ∀ s i, may s i) : Obeys R closePhases s :=
  .get_bind (.bind h.lasting (h.takeNotices handles_absorb _) fun _ _ _ =>
    .get_bind (h.closeEach hmay fun _ hi => List.mem_range.mp hi))

lemma keeps_stopShards : Keeps steady stopShards := by
  have hlasts := lasting_keeps steady
  intro s
  refine .get_bind (.bind hlasts (.modifyGet ?_) fun _ s₁ _ => .onCluster fun c a hc => ?_)
  · have hsend (hosts : List Nat) (c : Cluster) :
        (hosts.foldl (fun c host => (c.send host .shutdown).getD c) c).now = c.now := by
      induction hosts generalizing c with
      | nil => rfl
      | cons i rest ih =>
        refine (ih _).trans ?_
        dsimp only
        cases hc : c.send i .shutdown with
        | none => rfl
        | some c' => exact Cluster.send_now hc
    exact congrArg (Prod.mk s.controller) (congrArg Nanos.ofMillis (hsend _ _))
  · obtain ⟨c', hsettle, he⟩ := Option.map_eq_some_iff.mp hc
    cases he
    exact congrArg (Prod.mk s₁.controller) (congrArg Nanos.ofMillis (Cluster.settle_now hsettle))

lemma forM_not_refused {f : α → Sim PUnit} {e : EngineError}
    (hf : ∀ (a : α) (s : Simulation), s.perform (f a) ≠ some (.error e, s')) (l : List α)
    (s : Simulation) : s.perform (l.forM f) ≠ some (.error e, s') := by
  induction l generalizing s with
  | nil =>
    intro h
    cases h
  | cons a rest ih =>
    intro h
    rcases perform_bind.mp h with ⟨e', ha, he⟩ | ⟨_, s₁, -, hrest⟩
    · cases he
      exact hf a s ha
    · exact ih s₁ hrest

lemma abort_not_refused (s : Simulation) (e : EngineError) :
    s.perform abort ≠ some (.error e, s') := by
  refine forM_not_refused (fun i s h => ?_) _ s
  rcases perform_bind.mp h with ⟨e', htry, -⟩ | ⟨_, s₁, -, hnone⟩
  · obtain ⟨r, hr, -⟩ := perform_attempt.mp htry
    cases hr
  · cases hnone

lemma keeps_startShards : Keeps steady startShards := by
  have hlasts := lasting_keeps steady
  intro s
  refine .get_bind ?_
  split
  · refine .forM hlasts (fun shard s => .bind hlasts (.modifyGet rfl) fun _ _ _ => ?_) _
    refine .get_bind (.forM hlasts (fun command s r s' h => ?_) _)
    exact congrArg Prod.fst (keeps_send shard command s r s' h)
  · exact .pure hlasts _

def Turned : Simulation → Simulation → Prop :=
  Relation.ReflTransGen fun s s' => ∃ interval next, Yields (turn interval) s next s'

lemma perform_course {fuel : Nat} {interval : Interval} {r : Except EngineError RunOutcome}
    (h : s.perform (course fuel interval) = some (r, s')) :
    ∃ s₁, Turned s s₁ ∧
      (r = .ok .completed ∧ s' = s₁ ∧ s'.controller.isComplete = true ∨
        ∃ interval e s₂, s₁.perform (turn interval) = some (.error e, s₂) ∧
          (e.isInternalFault = true ∧ r = .ok (.aborted e.message) ∧ Yields abort s₂ () s' ∨
            e.isInternalFault = false ∧ r = .error e ∧ s' = s₂)) := by
  induction fuel generalizing s interval with
  | zero => cases h
  | succ fuel ih =>
    rcases perform_bind.mp h with ⟨e, htry, -⟩ | ⟨result, s₁, htry, hrest⟩
    · obtain ⟨r', hr', -⟩ := perform_attempt.mp htry
      cases hr'
    · obtain ⟨r', hr', hturn⟩ := perform_attempt.mp htry
      cases hr'
      cases result with
      | ok next =>
        dsimp only at hrest
        rw [perform_get_bind] at hrest
        split at hrest
        · rename_i hcomplete
          cases hrest
          exact ⟨_, .single ⟨interval, next, hturn⟩, .inl ⟨rfl, rfl, hcomplete⟩⟩
        · obtain ⟨s₂, hturned, hend⟩ := ih hrest
          exact ⟨s₂, .head ⟨interval, next, hturn⟩ hturned, hend⟩
      | error e =>
        refine ⟨s, .refl, .inr ⟨interval, e, s₁, hturn, ?_⟩⟩
        dsimp only at hrest
        split at hrest
        · rename_i hfault
          rcases perform_bind.mp hrest with ⟨e', habort, -⟩ | ⟨u, s₂, habort, hlast⟩
          · exact absurd habort (abort_not_refused s₁ e')
          · cases hlast
            exact .inl ⟨hfault, rfl, habort⟩
        · rename_i hfault
          cases hrest
          exact .inr ⟨by simpa using hfault, rfl, rfl⟩

lemma turn_onward {interval : Interval} {r : Except EngineError Interval}
    (h : s.perform (turn interval) = some (r, s')) :
    Onward (fun c i => c.isOverdue i s.now = true) s s' :=
  (covers_onward fun c i => c.isOverdue i s.now = true).turn interval (fun _ _ => id) _ _ h

lemma Turned.onward (h : Turned s s') {low high : Nanos} (hlow : low ≤ s.now)
    (hhigh : s'.now ≤ high) :
    Onward (fun c i => ∃ time, low ≤ time ∧ time ≤ high ∧ c.isOverdue i time = true) s s' := by
  induction h using Relation.ReflTransGen.head_induction_on with
  | refl => exact .refl _
  | head hturn _ ih =>
    obtain ⟨interval, next, hturn⟩ := hturn
    have hfirst := turn_onward hturn
    have hrest := ih (hlow.trans hfirst.now)
    refine .trans (hfirst.mono fun c i hover => ?_) hrest
    exact ⟨_, hlow, hfirst.now.trans (hrest.now.trans hhigh), hover⟩

lemma course_onward {fuel : Nat} {interval : Interval} {r : Except EngineError RunOutcome}
    (h : s.perform (course fuel interval) = some (r, s')) :
    Onward (fun c i => (∃ time, s.now ≤ time ∧ time ≤ s'.now ∧ c.isOverdue i time = true) ∨
      ∃ cause, r = .ok (.aborted cause)) s s' := by
  obtain ⟨s₁, hturned, ⟨-, rfl, -⟩ | ⟨interval', e, s₂, hturn, hlast⟩⟩ := perform_course h
  · exact (hturned.onward le_rfl le_rfl).mono fun _ _ => .inl
  · have hbefore := (hturned.onward le_rfl le_rfl).now
    have hfirst := turn_onward hturn
    have hafter : Onward (fun _ _ => ∃ cause, r = .ok (.aborted cause)) s₂ s' := by
      obtain ⟨-, rfl, habort⟩ | ⟨-, -, rfl⟩ := hlast
      · exact (covers_onward _).abort (fun _ _ => ⟨_, rfl⟩) _ _ habort
      · exact .refl _
    have hend := hfirst.now.trans hafter.now
    refine ((hturned.onward le_rfl hend).mono fun _ _ => .inl).trans ?_
    refine (hfirst.mono fun c i hover => ?_).trans (hafter.mono fun _ _ => .inr)
    exact .inl ⟨_, hbefore, hend, hover⟩

lemma perform_run {r : Except EngineError RunReport} (h : s.perform run = some (r, s')) :
    (∃ e, r = .error e ∧ s.perform startShards = some (.error e, s')) ∨
      ∃ s₁ fuel interval, Yields startShards s () s₁ ∧
        { s₁ with controller := s₁.controller.begin s₁.now }.perform (course fuel interval) =
          some (r.map RunReport.outcome, s') := by
  rcases perform_bind.mp h with ⟨e, hstart, rfl⟩ | ⟨u, s₁, hstart, h⟩
  · exact .inl ⟨e, rfl, hstart⟩
  · rw [perform_bind_ok (yields_now.2 ⟨rfl, rfl⟩), perform_bind_ok (yields_control.2 ⟨rfl, rfl⟩),
      perform_get_bind] at h
    rcases perform_bind.mp h with ⟨e, hcourse, rfl⟩ | ⟨outcome, s₃, hcourse, hreport⟩
    · exact .inr ⟨s₁, _, _, hstart, hcourse⟩
    · cases hreport
      exact .inr ⟨s₁, _, _, hstart, hcourse⟩

lemma run_onward {r : Except EngineError RunReport} (h : s.perform run = some (r, s')) :
    Onward (fun c i => (∃ time, s.now ≤ time ∧ time ≤ s'.now ∧ c.isOverdue i time = true) ∨
      ∃ cause, r.map RunReport.outcome = .ok (.aborted cause)) s s' := by
  obtain ⟨e, -, hstart⟩ | ⟨s₁, fuel, interval, hstart, hcourse⟩ := perform_run h
  · have hkeep := keeps_startShards _ _ _ hstart
    simp only [steady, Prod.mk.injEq] at hkeep
    exact .of_controller hkeep.1 hkeep.2.ge
  · have hkeep := keeps_startShards _ _ _ hstart
    simp only [steady, Prod.mk.injEq] at hkeep
    have hbegin : Onward (fun _ _ => False) s
        { s₁ with controller := s₁.controller.begin s₁.now } :=
      .of_step (c := s₁.controller.begin s₁.now) (.of_phases_eq (by rw [← hkeep.1]; rfl)) rfl
        hkeep.2
    refine (hbegin.mono fun _ _ => False.elim).trans ?_
    refine (course_onward hcourse).mono fun c i => .imp_left ?_
    rintro ⟨time, hlow, hhigh, hover⟩
    exact ⟨time, hbegin.now.trans hlow, hhigh, hover⟩

lemma shutdown_onward {r : Except EngineError Unit} (h : s.perform shutdown = some (r, s')) :
    Onward (fun _ _ => True) s s' := by
  refine Obeys.bind (lasting_onward _) ?_ (fun _ s₁ _ => ?_) r s' h
  · exact (covers_onward _).closePhases fun _ _ => trivial
  · intro r' s₂ hstop
    have hkeep := keeps_stopShards _ _ _ hstop
    simp only [steady, Prod.mk.injEq] at hkeep
    exact .of_controller hkeep.1 hkeep.2.ge

lemma dispatch_refused {dispatches : List Dispatch} {e : EngineError}
    (hshards : s.shards.isEmpty = false)
    (h : s.perform (dispatch dispatches) = some (.error e, s')) :
    ∃ shard, e = .shardUnavailable shard := by
  induction dispatches generalizing s with
  | nil => cases h
  | cons d rest ih =>
    have hd : s.perform (send d.1 d.2 >>= fun _ => dispatch rest) = some (.error e, s') :=
      (perform_bind_ok (yields_shards hshards)).symm.trans h
    have hsend := perform_send s d.1 d.2
    cases hqueue : s.shards[d.1]? >>= fun host => s.cluster.send host d.2 with
    | none =>
      rw [hqueue] at hsend
      rw [perform_bind_error hsend] at hd
      cases hd
      exact ⟨d.1, rfl⟩
    | some cluster =>
      rw [hqueue] at hsend
      rw [perform_bind_ok hsend] at hd
      exact ih (s := { s with cluster }) hshards hd

lemma startPhase_refused {name : String} {e : EngineError}
    (h : s.perform (startPhase name) = some (.error e, s'))
    (he : ∀ shard, e ≠ .shardUnavailable shard) :
    ∃ r s₁, s.perform drain = some (r, s₁) ∧ (r = .ok () ∨ r = .error e) ∧
      s'.cluster = s₁.cluster ∧ s'.controller.phases = s₁.controller.phases := by
  rcases perform_bind.mp h with ⟨e₁, hdrain, hr⟩ | ⟨_, s₁, hdrain, h₁⟩
  · cases hr
    exact ⟨_, s', hdrain, .inr rfl, rfl, rfl⟩
  · refine ⟨_, s₁, hdrain, .inl rfl, ?_⟩
    cases hshards : s₁.shards.isEmpty with
    | true =>
      rw [perform_bind_error (shards_refused hshards)] at h₁
      cases h₁
      exact ⟨rfl, rfl⟩
    | false =>
      rw [perform_bind_ok (yields_shards hshards)] at h₁
      have hindex := perform_index s₁ name
      cases hposition : s₁.controller.position? name with
      | none =>
        rw [hposition] at hindex
        rw [perform_bind_error hindex] at h₁
        cases h₁
        exact ⟨rfl, rfl⟩
      | some i =>
        rw [hposition] at hindex
        rw [perform_bind_ok hindex] at h₁
        let s₂ : Simulation :=
          { s₁ with controller := (s₁.controller.startOnDemand i s₁.now).1 }
        have hstart : s₂.perform (orThrow (s₁.controller.startOnDemand i s₁.now).2 >>= dispatch) =
            some (.error e, s') := h₁
        cases hresult : (s₁.controller.startOnDemand i s₁.now).2 with
        | error cause =>
          rw [hresult] at hstart
          obtain ⟨-, rfl⟩ := Prod.mk.inj (Option.some.inj hstart)
          exact ⟨rfl, Controller.startOnDemand_refused hresult⟩
        | ok dispatches =>
          rw [hresult] at hstart
          obtain ⟨shard, hshard⟩ := dispatch_refused (s := s₂) hshards hstart
          exact absurd hshard (he shard)

end Sim

end LoadEngine
