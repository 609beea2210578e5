import LoadEngine.Proofs.ClusterMoves
import LoadEngine.Proofs.SchedulerRound
import LoadEngine.Proofs.SimulationActs

/-! A tick of a simulation is a tick of its controller. Whatever the shards do meanwhile, sending
commands and collecting statistics change neither the controller nor the time; so the statistics
that the shards answer with are all that a tick of the controller has to be given. -/

namespace LoadEngine

namespace Cluster

lemma react_now (c : Cluster) (i : Nat) (tag : Tag) (r : Response) :
    (c.react i tag r).1.now = c.now := by
  unfold react
  cases r.ending with
  | crash => rfl
  | forget => rfl
  | hold => rfl
  | answer after data completion =>
    simp only
    split <;> rfl

lemma call_now (c : Cluster) (i : Nat) (operation : Operation BoundValidator) (tag : Tag) :
    (c.call i operation tag).1.now = c.now := by
  unfold call
  cases hh : c.hosts[i]? with
  | none => rfl
  | some h =>
    cases hs : h.services.get? operation.plugin with
    | none => simp only [hs]; rfl
    | some inst =>
      simp only [hs]
      exact react_now _ i tag _

lemma route_call (i : Nat) (c : Cluster) (operation : Operation BoundValidator) (tag : Tag)
    (rest : List Output) : route i c (.call operation tag :: rest) =
      if (c.call i operation tag).2 then route i (c.call i operation tag).1 rest
      else (c.call i operation tag).1 := by
  generalize hcall : c.call i operation tag = out
  obtain ⟨c', alive⟩ := out
  cases alive <;> simp [route, hcall]

lemma route_now (i : Nat) (c : Cluster) (outputs : List Output) :
    (route i c outputs).now = c.now := by
  induction outputs generalizing c with
  | nil => rfl
  | cons output rest ih =>
    cases output with
    | notice notice => exact ih _
    | snapshot phase snapshot => exact ih _
    | crash => rfl
    | call operation tag =>
      have hcall := c.call_now i operation tag
      rw [route_call]
      split
      · exact (ih _).trans hcall
      · exact hcall

lemma advanceTo_now (c : Cluster) (i : Nat) (h : Host) (node : Node) (outputs : List Output) :
    (c.advanceTo i h node outputs).now = c.now := by
  unfold advanceTo
  simp only
  split
  · exact route_now i _ outputs
  · exact route_now i _ outputs

lemma Moves.now {c c' : Cluster} {i : Nat} (h : Moves i c c') : c'.now = c.now := by
  cases h with
  | step h | command h =>
    obtain ⟨host, -, h⟩ := Option.bind_eq_some_iff.mp h
    obtain ⟨r, -, h⟩ := Option.bind_eq_some_iff.mp h
    cases h
    exact advanceTo_now c i host r.1 r.2

lemma now_eq_of {R : Cluster → Cluster → Prop} (hR : ∀ c c', R c c' → c'.now = c.now)
    {c c' : Cluster} (h : Relation.ReflTransGen R c c') : c'.now = c.now := by
  induction h with
  | refl => rfl
  | tail _ hlast ih => exact (hR _ _ hlast).trans ih

lemma Works.now {c c' : Cluster} (h : Works c c') : c'.now = c.now := by
  obtain ⟨i, hmoves⟩ := h
  exact hmoves.now

lemma catchUp_now (c : Cluster) (i : Nat) : (c.catchUp i).now = c.now :=
  now_eq_of (fun _ _ => Moves.now) (c.catchUp_moves i)

lemma send_now {c c' : Cluster} {i : Nat} {command : Command} (h : c.send i command = some c') :
    c'.now = c.now := by
  obtain ⟨host, -, h⟩ := Option.bind_eq_some_iff.mp h
  obtain ⟨node, -, h⟩ := Option.bind_eq_some_iff.mp h
  cases h
  rfl

lemma collect_now (phase : Nat) (reset : Bool) (c : Cluster) (i : Nat) :
    (collect phase reset c i).1.now = c.now := by
  unfold collect
  cases h : c.send i (.collect phase reset) with
  | none => rfl
  | some c' => exact (catchUp_now c' i).trans (send_now h)

lemma settle_now {c c' : Cluster} (h : c.settle = some c') : c'.now = c.now :=
  now_eq_of (fun _ _ => Works.now) (settle_works h)

lemma le_jump_now (c : Cluster) (time : Nat) : c.now ≤ (c.jump time).now := by
  have hdeliver (parcels : List Parcel) (c : Cluster) :
      (parcels.foldl (fun c p => c.deliver p.host p.events) c).now = c.now := by
    induction parcels generalizing c with
    | nil => rfl
    | cons p rest ih => exact ih _
  unfold jump
  simp only [hdeliver]
  exact le_max_left _ _

lemma waitNotice_le {limit : Option Nat} {fuel : Nat} {c c' : Cluster}
    (h : waitNotice limit fuel c = some c') : c.now ≤ c'.now := by
  have hpasses := waitNotice_passes h
  clear h
  induction hpasses with
  | refl => exact le_rfl
  | @tail c₁ c₂ _ hlast ih =>
    apply ih.trans
    cases hlast with
    | works hworks => exact hworks.now.ge
    | jumps time => exact le_jump_now c₁ time

lemma askAll_now {α : Type} {ask : Cluster → Nat → Cluster × Option α}
    (hask : ∀ c i, (ask c i).1.now = c.now) {c c' : Cluster} {hosts : List Nat}
    {answers : List (Option α)} (h : askAll ask c hosts = some (c', answers)) : c'.now = c.now := by
  refine now_eq_of (fun c c' hc => ?_) (askAll_asks h)
  cases hc with
  | works hworks => exact hworks.now
  | asks i => exact hask c i

end Cluster

def Controller.takeIn (c : Controller) (now : Nanos) (notices : List Notice) : Controller :=
  notices.foldl (fun c notice => (c.onNotice now notice).1) c

namespace Sim

def steady (s : Simulation) : Controller × Nanos := (s.controller, s.now)

lemma keeps_send (shard : Nat) (command : Command) :
    Keeps (fun s => (steady s, s.cluster.notices)) (send shard command) := by
  intro s r s' h
  rw [perform_send, Option.some.injEq] at h
  cases hsend : s.shards[shard]? >>= fun host => s.cluster.send host command with
  | none =>
    rw [hsend] at h
    cases h
    rfl
  | some cluster =>
    rw [hsend] at h
    obtain ⟨host, -, hsend⟩ := Option.bind_eq_some_iff.mp hsend
    obtain ⟨h', -, hsend⟩ := Option.bind_eq_some_iff.mp hsend
    obtain ⟨node, -, hsend⟩ := Option.bind_eq_some_iff.mp hsend
    cases hsend
    cases h
    rfl

lemma keeps_dispatch (dispatches : List Dispatch) :
    Keeps (fun s => (steady s, s.cluster.notices)) (dispatch dispatches) := by
  have hlasts := lasting_keeps fun s : Simulation => (steady s, s.cluster.notices)
  intro s
  induction dispatches generalizing s with
  | nil => exact .pure hlasts _
  | cons d rest ih =>
    exact .bind hlasts (.shards hlasts) fun _ _ _ =>
      .bind hlasts (keeps_send _ _ _) fun _ _ _ => ih _

lemma keeps_broadcast (command : Command) :
    Keeps (fun s => (steady s, s.cluster.notices)) (broadcast command) :=
  fun _ => .get_bind (.forM (lasting_keeps _) (fun _ _ => keeps_send _ command _) _)

lemma keeps_collect (index : Nat) (reset : Bool) : Keeps steady (collect index reset) := by
  have hlasts := lasting_keeps steady
  refine fun s => .bind hlasts (fun r s' h => ?_) fun snapshots _ _ => ?_
  · obtain ⟨cluster, answers, hask, rfl, -⟩ := perform_askAll h
    have hnow := Cluster.askAll_now (Cluster.collect_now index reset) hask
    exact congrArg (Prod.mk s.controller) (congrArg Nanos.ofMillis hnow)
  · cases PhaseSnapshot.merge snapshots with
    | ok sum => exact .pure hlasts _
    | error fault => exact .throw hlasts _

lemma perform_follow {decide : Controller → Controller × Except EngineError (List Dispatch)}
    {s s' : Simulation} {r : Except EngineError Unit}
    (h : s.perform (follow decide) = some (r, s')) :
    s'.controller = (decide s.controller).1 ∧ s'.now = s.now ∧
      s'.cluster.notices = s.cluster.notices := by
  have hlasts := lasting_keeps fun s : Simulation => (steady s, s.cluster.notices)
  rw [follow, perform_bind_ok (yields_control.2 ⟨rfl, rfl⟩)] at h
  have hsent := Obeys.bind hlasts (.orThrow hlasts _) (fun d _ _ => keeps_dispatch d _) _ _ h
  simp only [steady, Prod.mk.injEq] at hsent
  exact ⟨hsent.1.1, hsent.1.2, hsent.2⟩

lemma perform_handleNotice {notice : Notice} {s s' : Simulation} {r : Except EngineError Unit}
    (h : s.perform (handleNotice notice) = some (r, s')) :
    s'.controller = (s.controller.onNotice s.now notice).1 ∧ s'.now = s.now ∧
      s'.cluster.notices = s.cluster.notices := by
  rw [handleNotice, perform_bind_ok (yields_now.2 ⟨rfl, rfl⟩)] at h
  exact perform_follow h

lemma yields_takeNotices {fuel : Nat} {s s' : Simulation} {u : Unit}
    (h : Yields (takeNotices handleNotice fuel) s u s') :
    s'.controller = s.controller.takeIn s.now (s.cluster.notices.take fuel) ∧ s'.now = s.now := by
  induction fuel generalizing s with
  | zero =>
    obtain ⟨-, rfl⟩ := yields_pure.1 h
    exact ⟨rfl, rfl⟩
  | succ fuel ih =>
    obtain ⟨more, s₂, htake, h⟩ := yields_bind.1 h
    obtain ⟨next, s₁, hnext, htake⟩ := yields_bind.1 htake
    obtain ⟨rfl, rfl⟩ := yields_modifyGet.1 hnext
    cases hn : s.cluster.notices with
    | nil =>
      simp only [hn] at htake
      obtain ⟨rfl, rfl⟩ := yields_pure.1 htake
      obtain ⟨-, rfl⟩ := yields_pure.1 h
      exact ⟨rfl, rfl⟩
    | cons notice rest =>
      simp only [hn] at htake
      obtain ⟨u₁, s₁, hhandle, hmore⟩ := yields_bind.1 htake
      obtain ⟨rfl, rfl⟩ := yields_pure.1 hmore
      obtain ⟨hc, ht, hns⟩ := perform_handleNotice hhandle
      obtain ⟨hc', ht'⟩ := ih h
      refine ⟨?_, ht'.trans ht⟩
      rw [hc', hc, ht, hns]
      rfl

lemma yields_drain {s s' : Simulation} {u : Unit} (h : Yields drain s u s') :
    s'.controller = s.controller.takeIn s.now s.cluster.notices ∧ s'.now = s.now := by
  obtain ⟨s₁, s₂, hget, h⟩ := yields_bind.1 h
  obtain ⟨rfl, rfl⟩ := yields_get.1 hget
  have htake : Yields (takeNotices handleNotice s.cluster.notices.length) s u s' := by
    cases hf : s.controller.fault with
    | none => simpa only [hf] using h
    | some cause =>
      simp only [hf] at h
      obtain ⟨u₁, s₁, hthrow, -⟩ := yields_bind.1 h
      exact absurd hthrow not_yields_throw
  simpa using yields_takeNotices htake

lemma perform_beginTermination {index : Nat} {s s' : Simulation} {r : Except EngineError Unit}
    (h : s.perform (beginTermination index) = some (r, s')) :
    s'.controller = (s.controller.terminate index s.now).1 ∧ s'.now = s.now := by
  rw [beginTermination, perform_bind_ok (yields_now.2 ⟨rfl, rfl⟩),
    perform_bind_ok (yields_control.2 ⟨rfl, rfl⟩)] at h
  split at h
  · have hsent := keeps_broadcast _ _ _ _ h
    simp only [steady, Prod.mk.injEq] at hsent
    exact hsent.1
  · cases h
    exact ⟨rfl, rfl⟩

lemma perform_conclude {index : Nat} {s s' : Simulation} {r : Except EngineError Unit}
    (h : s.perform (conclude index) = some (r, s')) :
    ((∃ e, r = .error e) ∧ s'.controller = s.controller ∨
      ∃ snapshot, s'.controller = s.controller.complete index snapshot) ∧ s'.now = s.now := by
  rcases perform_bind.mp h with ⟨e, hcollect, rfl⟩ | ⟨snapshot, s₁, hcollect, h⟩
  · have hkeep := keeps_collect index true _ _ _ hcollect
    simp only [steady, Prod.mk.injEq] at hkeep
    exact ⟨.inl ⟨⟨e, rfl⟩, hkeep.1⟩, hkeep.2⟩
  · cases h
    have hkeep := keeps_collect index true _ _ _ hcollect
    simp only [steady, Prod.mk.injEq] at hkeep
    exact ⟨.inr ⟨snapshot, congrArg (Controller.complete · index snapshot) hkeep.1⟩, hkeep.2⟩

lemma yields_endPhase {index : Nat} {s s' : Simulation} {ended : Bool}
    (h : Yields (endPhase index) s ended s') :
    (∃ snapshot, s'.controller = s.controller.settle index snapshot) ∧ s'.now = s.now := by
  obtain ⟨s₁, s₂, hget, h⟩ := yields_bind.1 h
  obtain ⟨rfl, rfl⟩ := yields_get.1 hget
  unfold Controller.settle
  split at h
  · rename_i hterm
    obtain ⟨-, rfl⟩ := yields_pure.1 h
    exact ⟨⟨.empty, by rw [if_pos hterm]⟩, rfl⟩
  · rename_i hterm
    split at h
    · rename_i hready
      obtain ⟨u, s₁, hconclude, h⟩ := yields_bind.1 h
      obtain ⟨-, rfl⟩ := yields_pure.1 h
      obtain ⟨⟨⟨e, he⟩, -⟩ | ⟨snapshot, hc⟩, ht⟩ := perform_conclude hconclude
      · cases he
      · exact ⟨⟨snapshot, by rw [if_neg hterm, if_pos hready, hc]⟩, ht⟩
    · rename_i hready
      obtain ⟨-, rfl⟩ := yields_pure.1 h
      exact ⟨⟨.empty, by rw [if_neg hterm, if_neg hready]⟩, rfl⟩

lemma yields_round {index : Nat} {s s' : Simulation} {u : Unit}
    (h : Yields (round index s.now) s u s') :
    (∃ snapshot, s'.controller = s.controller.round index s.now snapshot) ∧
      s'.now = s.now := by
  obtain ⟨u₁, s₃, hfollow, h⟩ := yields_bind.1 h
  obtain ⟨hc₃, ht, -⟩ := perform_follow hfollow
  obtain ⟨s₄, s₅, hget, h⟩ := yields_bind.1 h
  obtain ⟨rfl, rfl⟩ := yields_get.1 hget
  have hover : ∃ s₆, s₆.controller = s₃.controller.terminateIfOverdue index s.now ∧
      s₆.now = s.now ∧ ∃ ended, Yields (endPhase index) s₆ ended s' := by
    unfold Controller.terminateIfOverdue
    split at h
    · rename_i hover
      obtain ⟨u₂, s₆, hbegin, h⟩ := yields_bind.1 h
      obtain ⟨ended, s₇, hend, h⟩ := yields_bind.1 h
      obtain ⟨-, rfl⟩ := yields_pure.1 h
      obtain ⟨hc₆, ht₆⟩ := perform_beginTermination hbegin
      rw [if_pos hover]
      exact ⟨s₆, ht ▸ hc₆, ht₆.trans ht, ended, hend⟩
    · rename_i hover
      obtain ⟨ended, s₇, hend, h⟩ := yields_bind.1 h
      obtain ⟨-, rfl⟩ := yields_pure.1 h
      rw [if_neg hover]
      exact ⟨s₃, rfl, ht, ended, hend⟩
  obtain ⟨s₆, hc₆, ht₆, ended, hend⟩ := hover
  obtain ⟨⟨snapshot, hc⟩, ht'⟩ := yields_endPhase hend
  refine ⟨⟨snapshot, ?_⟩, ht'.trans ht₆⟩
  rw [hc, hc₆, hc₃]
  rfl

lemma rounds_congr {now : Nanos} {snapshots snapshots' : Nat → PhaseSnapshot} {c : Controller}
    {indices : List Nat} (h : ∀ i ∈ indices, snapshots i = snapshots' i) :
    c.rounds now snapshots indices = c.rounds now snapshots' indices := by
  induction indices generalizing c with
  | nil => rfl
  | cons i rest ih =>
    have hrest := ih (c := c.round i now (snapshots' i)) fun j hj => h j (List.mem_cons_of_mem _ hj)
    have hi : snapshots i = snapshots' i := h i List.mem_cons_self
    simpa only [Controller.rounds, List.foldl_cons, hi] using hrest

lemma yields_rounds {indices : List Nat} (hnodup : indices.Nodup) {s s' : Simulation} {u : PUnit}
    (h : Yields (indices.forM fun index => round index s.now) s u s') :
    ∃ snapshots, s'.controller = s.controller.rounds s.now snapshots indices := by
  induction indices generalizing s with
  | nil =>
    obtain ⟨-, rfl⟩ := yields_pure.1 h
    exact ⟨fun _ => .empty, rfl⟩
  | cons i rest ih =>
    rw [List.nodup_cons] at hnodup
    obtain ⟨u₁, s₁, hround, h⟩ := yields_bind.1 h
    obtain ⟨⟨snapshot, hc⟩, ht⟩ := yields_round hround
    obtain ⟨snapshots, hrest⟩ := ih hnodup.2 (s := s₁) (by rwa [ht])
    refine ⟨fun j => if j = i then snapshot else snapshots j, ?_⟩
    have hcongr : ∀ j ∈ rest, snapshots j = if j = i then snapshot else snapshots j := by
      intro j hj
      rw [if_neg]
      rintro rfl
      exact hnodup.1 hj
    rw [hrest, ht, hc, rounds_congr hcongr]
    simp [Controller.rounds]

/-- A tick that is not refused does to the controller what a tick of the controller alone does once
everything that the shards had told is taken in. -/
theorem tick_controller {s s' : Simulation} {u : PUnit} (h : Yields tick s u s') :
    ∃ snapshots, s'.controller =
      (s.controller.takeIn s.now s.cluster.notices).tick s.now snapshots := by
  obtain ⟨u₁, s₁, hdrain, h⟩ := yields_bind.1 h
  obtain ⟨hc₁, ht₁⟩ := yields_drain hdrain
  obtain ⟨t, s₂, hnow, h⟩ := yields_bind.1 h
  obtain ⟨rfl, rfl⟩ := yields_now.1 hnow
  obtain ⟨u₂, s₃, hcontrol, h⟩ := yields_bind.1 h
  obtain ⟨-, rfl⟩ := yields_control.1 hcontrol
  obtain ⟨s₄, s₅, hget, h⟩ := yields_bind.1 h
  obtain ⟨rfl, rfl⟩ := yields_get.1 hget
  obtain ⟨snapshots, hrounds⟩ := yields_rounds List.nodup_range h
  refine ⟨snapshots, ?_⟩
  rw [hrounds, ← hc₁, ← ht₁]
  rfl

end Sim

end LoadEngine
