import LoadEngine.Proofs.ClusterAnswers
import LoadEngine.Proofs.FinalStatistics
import LoadEngine.Proofs.LifecycleOrder

/-! Whatever is done in a simulation between the start of its shards and their end happens to the
fleet of its controller and its nodes. So what holds of fleets holds of runs. -/

namespace LoadEngine

namespace Cluster

variable {c c' : Cluster} {i : Nat} {command : Command}

lemma Quiet.send (hquiet : c.Quiet) (hc : questions [command] = [])
    (h : c.send i command = some c') : c'.Quiet ∧ c'.nodes.length = c.nodes.length := by
  obtain ⟨node, hnode, -, hnodes, -, hreplies⟩ := send_some h
  refine ⟨⟨hreplies.trans hquiet.replies, ?_⟩, by rw [hnodes, List.length_set]⟩
  rw [hnodes]
  refine forall_mem_set hquiet.unasked ?_
  rw [questions_append, hquiet.unasked node (List.mem_of_getElem? hnode), hc]
  rfl

lemma exists_send {node : Node} (hnode : c.nodes[i]? = some node) (hrunning : node.running = true)
    (command : Command) : ∃ c', c.send i command = some c' := by
  cases hsend : c.send i command with
  | some c' => exact ⟨c', rfl⟩
  | none =>
    rw [send_none hsend hnode] at hrunning
    cases hrunning

end Cluster

lemma Fleet.move_conclude {f : Fleet} {q : Inquiry} {sum : PhaseSnapshot} (hq : f.inquiry = some q)
    (hsum : q.sum? = some (.ok sum)) : f.move .conclude = some ({ f with
      controller := if q.reset then f.controller.complete q.index sum else f.controller
      inquiry := none }, []) := by
  simp only [move, hq, hsum, Option.bind_eq_bind, Option.bind_some]

namespace Simulation

variable {s s' : Simulation} {broken : Bool}

/-- The controller with its nodes and what these have told. No question is open between two
calls. -/
def fleet (s : Simulation) : Fleet := ⟨s.controller, s.cluster.nodes, s.cluster.notices, none⟩

/-- The shards have been started, and no question is on its way to them. -/
structure Wired (s : Simulation) : Prop where
  shards : s.shards = List.range s.cluster.nodes.length
  started : 0 < s.cluster.nodes.length
  quiet : s.cluster.Quiet

def Goes (broken : Bool) (s s' : Simulation) : Prop :=
  s.Wired → s'.Wired ∧ s.fleet.Course broken s'.fleet

lemma lasting_goes : Sim.Lasting Goes where
  refl _ hw := ⟨hw, .refl⟩
  trans h h' hw := by
    obtain ⟨hw', hfirst⟩ := h hw
    obtain ⟨hw'', hrest⟩ := h' hw'
    exact ⟨hw'', hfirst.widen.trans hrest⟩
  widen h hw := (h hw).imp_right Fleet.Course.widen

lemma mapIdx_id (nodes : List Node) : nodes.mapIdx (fun _ => id) = nodes := by
  refine List.ext_getElem? fun i => ?_
  rw [List.getElem?_mapIdx]
  cases nodes[i]? <;> rfl

lemma fleet_eq (s : Simulation) : s.cluster.fleet s.controller (fun _ => id) none = s.fleet := by
  rw [Cluster.fleet, mapIdx_id]
  rfl

lemma Wired.of_cluster {cluster : Cluster} (hw : s.Wired) (hquiet : cluster.Quiet)
    (hlength : cluster.nodes.length = s.cluster.nodes.length) (controller : Controller) :
    Wired { s with controller, cluster } :=
  ⟨hw.shards.trans (congrArg List.range hlength.symm), hlength.symm ▸ hw.started, hquiet⟩

lemma Wired.isEmpty_shards (hw : s.Wired) : s.shards.isEmpty = false := by
  obtain ⟨n, hn⟩ := Nat.exists_eq_succ_of_ne_zero hw.started.ne'
  rw [hw.shards, hn, List.range_succ]
  simp

lemma goes_of_drifts {cluster : Cluster} (h : s.cluster.Quiet → s.cluster.Drifts cluster) :
    Goes false s { s with cluster } := by
  intro hw
  obtain ⟨hquiet, hlength, hcourse⟩ := h hw.quiet
  refine ⟨hw.of_cluster hquiet hlength s.controller, ?_⟩
  have hgoes := hcourse s.controller
  rwa [fleet_eq, fleet_eq { s with cluster }] at hgoes

lemma goes_of_move {m : Fleet.Move} {controller : Controller}
    (h : s.fleet.move m = some ({ s with controller : Simulation }.fleet, [])) :
    Goes false s { s with controller } :=
  fun hw => ⟨hw.of_cluster hw.quiet rfl controller, .move h⟩

end Simulation

namespace Sim

open Simulation (Goes Wired lasting_goes goes_of_drifts goes_of_move)

variable {s s' : Simulation} {r : Except EngineError Unit}

lemma fleet_send (s : Simulation) (shard : Nat) (command : Command) :
    s.fleet.send shard command =
      (s.cluster.send shard command).map fun cluster => { s with cluster : Simulation }.fleet := by
  simp only [Fleet.send, Simulation.fleet, Cluster.nodes, List.getElem?_map, Cluster.send]
  cases s.cluster.hosts[shard]? with
  | none => rfl
  | some host =>
    simp only [Option.map_some, Option.bind_eq_bind, Option.bind_some]
    cases host.node.send command with
    | none => rfl
    | some node => simp [Cluster.setHost, List.map_set]

lemma wired_send (hw : s.Wired) (shard : Nat) (command : Command) :
    (s.shards[shard]? >>= fun host => s.cluster.send host command) =
      s.cluster.send shard command := by
  rw [hw.shards]
  by_cases hlt : shard < s.cluster.nodes.length
  · rw [List.getElem?_range hlt]
    rfl
  · have hnone : s.cluster.hosts[shard]? = none := by
      rw [Cluster.nodes, List.length_map] at hlt
      exact List.getElem?_eq_none (by omega)
    rw [List.getElem?_eq_none (by simpa using hlt)]
    simp [Cluster.send, hnone]

lemma perform_dispatch {sent : List Dispatch} (hw : s.Wired)
    (hsent : ∀ d ∈ sent, ∃ index, d.2.concerns index = true)
    (h : s.perform (dispatch sent) = some (r, s')) :
    s'.Wired ∧ s'.fleet = s.fleet.dispatch sent := by
  induction sent generalizing s with
  | nil =>
    cases h
    exact ⟨hw, rfl⟩
  | cons d rest ih =>
    obtain ⟨shard, command⟩ := d
    obtain ⟨hcommand, hrest⟩ := List.forall_mem_cons.mp hsent
    have hd : s.perform (send shard command >>= fun _ => dispatch rest) = some (r, s') :=
      (perform_bind_ok (yields_shards hw.isEmpty_shards)).symm.trans h
    have hsend := perform_send s shard command
    rw [wired_send hw] at hsend
    rw [Fleet.dispatch_cons, fleet_send]
    cases hqueue : s.cluster.send shard command with
    | none =>
      rw [hqueue] at hsend
      rw [perform_bind_error hsend] at hd
      cases hd
      exact ⟨hw, rfl⟩
    | some cluster =>
      rw [hqueue] at hsend
      rw [perform_bind_ok hsend] at hd
      have hquestions : questions [command] = [] :=
        questions_of_concerns (List.forall_mem_singleton.mpr hcommand)
      obtain ⟨hquiet, hlength⟩ := hw.quiet.send hquestions hqueue
      exact ih (hw.of_cluster hquiet hlength s.controller) hrest hd

lemma perform_sends (hshards : s.shards.isEmpty = false) (command : Command) (l : List Nat) :
    s.perform (l.forM fun shard => send shard command) =
      s.perform (dispatch (l.map fun shard => (shard, command))) := by
  induction l generalizing s with
  | nil => rfl
  | cons i rest ih =>
    have hd : s.perform (dispatch ((i, command) :: rest.map fun shard => (shard, command))) =
        s.perform (send i command >>= fun _ => dispatch (rest.map fun shard => (shard, command))) :=
      perform_bind_ok (yields_shards hshards)
    have hf : s.perform ((i :: rest).forM fun shard => send shard command) =
        s.perform (send i command >>= fun _ => rest.forM fun shard => send shard command) := rfl
    have hsend := perform_send s i command
    rw [List.map_cons, hd, hf]
    cases hqueue : s.shards[i]? >>= fun host => s.cluster.send host command with
    | none =>
      rw [hqueue] at hsend
      rw [perform_bind_error hsend, perform_bind_error hsend]
    | some cluster =>
      rw [hqueue] at hsend
      rw [perform_bind_ok hsend, perform_bind_ok hsend]
      exact ih (s := { s with cluster }) hshards

lemma wired_follow {decide : Controller → Controller × Except EngineError (List Dispatch)}
    {nodes : Nat} (hw : s.Wired) (hreturns : s.controller.Returns nodes (decide s.controller))
    (h : s.perform (follow decide) = some (r, s')) :
    s'.Wired ∧ s'.fleet = s.fleet.follow (decide s.controller) := by
  rw [follow, perform_bind_ok (yields_control.2 ⟨rfl, rfl⟩)] at h
  generalize decide s.controller = out at h hreturns
  have hw' := hw.of_cluster hw.quiet rfl out.1
  cases hreturns with
  | refuses hd e =>
    cases h
    exact ⟨hw', rfl⟩
  | sends hd => exact perform_dispatch hw' hd.pointed h

lemma goes_beginTermination (index : Nat) (s : Simulation) :
    Obeys (fun _ => Goes false) (beginTermination index) s := by
  intro r s' h hw
  rw [beginTermination, perform_bind_ok (yields_now.2 ⟨rfl, rfl⟩),
    perform_bind_ok (yields_control.2 ⟨rfl, rfl⟩)] at h
  have hdirects := s.controller.terminate_directs index s.now s.cluster.nodes.length
  -- Both branches are the one move, so the move is named before the result is taken apart.
  suffices hgoes : s'.Wired ∧ s.fleet.move (.terminate index s.now) = some (s'.fleet, []) from
    hgoes.imp_right .move
  have hmove : s.fleet.move (.terminate index s.now) =
      some (if (s.controller.terminate index s.now).2 then
        { s.fleet with controller := (s.controller.terminate index s.now).1 }.broadcast
          (.terminate index)
        else { s.fleet with controller := (s.controller.terminate index s.now).1 }, []) := rfl
  rw [hmove]
  generalize s.controller.terminate index s.now = out at h hdirects
  obtain ⟨controller, tell⟩ := out
  have hw' := hw.of_cluster hw.quiet rfl controller
  cases tell with
  | false =>
    cases h
    exact ⟨hw', rfl⟩
  | true =>
    simp only [if_true] at h
    have hlength : s.shards.length = s.cluster.nodes.length := by
      rw [hw.shards, List.length_range]
    rw [broadcast, perform_get_bind, perform_sends hw'.isEmpty_shards] at h
    simp only [hlength] at h
    obtain ⟨hw'', hfleet⟩ := perform_dispatch hw' hdirects.pointed h
    exact ⟨hw'', congrArg (fun f => some (f, [])) hfleet.symm⟩

lemma fleet_asked (s : Simulation) (index : Nat) (reset : Bool) (q : Option Inquiry) {n : Nat}
    (h : s.cluster.nodes.length ≤ n) :
    s.cluster.fleet s.controller (Cluster.asking index reset n) q =
      { s.fleet with inquiry := q } := by
  refine congrArg (fun nodes => Fleet.mk s.controller nodes s.cluster.notices q)
    (List.ext_getElem? fun i => ?_)
  rw [List.getElem?_mapIdx]
  cases hi : s.cluster.nodes[i]? with
  | none => exact hi.symm
  | some node =>
    rw [Cluster.asking_before ((List.getElem?_eq_some_iff.mp hi).1.trans_le h)]
    exact hi.symm

lemma fleet_ask (s : Simulation) (index : Nat) (reset : Bool) :
    s.cluster.fleet s.controller (Cluster.asking index reset 0)
      (some ⟨index, reset, [] ++ List.replicate s.cluster.nodes.length none⟩) =
      s.fleet.ask index reset := by
  refine congrArg (fun nodes => Fleet.mk s.controller nodes s.cluster.notices
    (some (.new index reset s.cluster.nodes.length))) (List.ext_getElem? fun i => ?_)
  simp only [List.getElem?_mapIdx, List.getElem?_map, Simulation.fleet]
  rfl

lemma wired_askAll {index : Nat} {reset : Bool} {cluster : Cluster}
    {answers : List (Option PhaseSnapshot)} (hw : s.Wired)
    (h : s.cluster.askAll (Cluster.collect index reset) s.shards = some (cluster, answers)) :
    Wired { s with cluster } ∧
      (∀ j : Nat, answers[j]? = some none → ∃ node : Node, cluster.nodes[j]? = some node ∧
        node.running = false) ∧
      (s.fleet.ask index reset).Course false { { s with cluster : Simulation }.fleet with
        inquiry := some ⟨index, reset, answers⟩ } := by
  rw [hw.shards, List.range_eq_range'] at h
  obtain ⟨hquiet, hlength, -, -, hdown, hcourse⟩ :=
    Cluster.askAll_answered hw.quiet (Nat.zero_add _) h [] rfl
  refine ⟨hw.of_cluster hquiet hlength s.controller, fun j hj => ?_, ?_⟩
  · obtain ⟨node, hnode, hoff⟩ := hdown j hj
    rw [Nat.zero_add] at hnode
    exact ⟨node, hnode, hoff⟩
  · have hlast := hcourse s.controller
    rwa [fleet_ask, fleet_asked { s with cluster } index reset _
      (by rw [hlength, Nat.zero_add])] at hlast

lemma perform_collect {index : Nat} {reset : Bool} {r : Except EngineError PhaseSnapshot}
    (hw : s.Wired) (hask : s.fleet.Course false (s.fleet.ask index reset))
    (h : s.perform (collect index reset) = some (r, s')) :
    s'.Wired ∧ s'.controller = s.controller ∧
      (∀ sum, r = .ok sum → s.fleet.Course false { s'.fleet with
        controller := if reset then s.controller.complete index sum else s.controller }) ∧
      ∀ e, r = .error e → s.fleet.Course (isBreach e) s'.fleet := by
  rcases perform_bind.mp h with ⟨e, hanswers, rfl⟩ | ⟨snapshots, s₁, hanswers, hmerge⟩
  · obtain ⟨cluster, answers, hcollect, rfl, ⟨-, hr⟩ | ⟨hnone, shard, hr⟩⟩ :=
      perform_askAll hanswers
    · cases hr
    · cases hr
      obtain ⟨hw', hdown, hcourse⟩ := wired_askAll hw hcollect
      obtain ⟨j, hj⟩ := List.mem_iff_getElem?.mp hnone
      obtain ⟨node, hnode, hoff⟩ := hdown j hj
      refine ⟨hw', rfl, nofun, fun e he => ?_⟩
      cases he
      exact (hask.trans hcourse).step (.giveUp rfl hnode hoff hj)
  · obtain ⟨cluster, answers, hcollect, rfl, ⟨hall, hr⟩ | ⟨-, shard, hr⟩⟩ :=
      perform_askAll hanswers
    · cases hr
      obtain ⟨hw', -, hcourse⟩ := wired_askAll hw hcollect
      have hsum : Inquiry.sum? ⟨index, reset, answers⟩ =
          some (PhaseSnapshot.merge (answers.filterMap id)) := if_pos hall
      cases hmerged : PhaseSnapshot.merge (answers.filterMap id) with
      | ok sum =>
        rw [hmerged] at hmerge hsum
        cases hmerge
        refine ⟨hw', rfl, fun sum' he => ?_, nofun⟩
        cases he
        exact (hask.trans hcourse).trans (.move (Fleet.move_conclude rfl hsum))
      | error fault =>
        rw [hmerged] at hmerge hsum
        cases hmerge
        refine ⟨hw', rfl, nofun, fun e he => ?_⟩
        cases he
        exact (hask.trans hcourse).widen.happens (.refuse rfl hsum) fun _ => rfl
    · cases hr

lemma goes_conclude {index : Nat}
    (hask : s.Wired → s.fleet.Course false (s.fleet.ask index true)) :
    Obeys Goes (conclude index) s := by
  intro r s' h hw
  rcases perform_bind.mp h with ⟨e, hcollect, rfl⟩ | ⟨sum, s₁, hcollect, hlast⟩
  · obtain ⟨hw', -, -, hrefused⟩ := perform_collect hw (hask hw) hcollect
    exact ⟨hw', hrefused e rfl⟩
  · obtain ⟨hw', hc, hconcluded, -⟩ := perform_collect hw (hask hw) hcollect
    cases hlast
    refine ⟨hw'.of_cluster hw'.quiet rfl _, ?_⟩
    have hcourse := hconcluded sum rfl
    rwa [if_pos rfl, ← hc] at hcourse

lemma asks_of_canTerminate {index : Nat} (h : s.controller.canTerminate index = true) :
    s.fleet.Course false (s.fleet.ask index true) := by
  refine .move (m := .ask index true) ?_
  have hcan : s.fleet.controller.canTerminate index = true := h
  simp only [Fleet.move, hcan]
  rfl

lemma canTerminate_of_isReady {c : Controller} {index : Nat} (h : c.isReady index = true) :
    c.canTerminate index = true := by
  unfold Controller.isReady at h
  unfold Controller.canTerminate
  cases hp : c.phases[index]? with
  | none =>
    rw [hp] at h
    cases h
  | some p =>
    rw [hp, Option.any_some, Bool.and_eq_true] at h
    exact h.1

lemma asks_of_isClosing {index : Nat} (h : s.controller.IsClosing index) :
    s.fleet.Course false (s.fleet.ask index true) := by
  obtain ⟨p, hp, hstatus, hcan | hfault⟩ := h
  · refine asks_of_canTerminate ?_
    rw [Controller.canTerminate, hp]
    exact hcan
  · exact .step .refl (.windUp rfl hfault hp hstatus)

lemma covers_goes : Covers Goes fun _ _ => True where
  lasting := lasting_goes
  begins time s := goes_of_move (m := .begin time) rfl
  finishes i time s := goes_of_move (m := .finish i time) rfl
  starts i time s r s' h hw := by
    obtain ⟨hw', hfleet⟩ := wired_follow hw (s.controller.startOnDemand_returns i time 0) h
    exact ⟨hw', .move (m := .start i time) (congrArg (fun f => some (f, [])) hfleet.symm)⟩
  advances i time s r s' h hw := by
    obtain ⟨hw', hfleet⟩ := wired_follow hw (s.controller.advance_returns i time 0) h
    exact ⟨hw', .move (m := .advance i time) (congrArg (fun f => some (f, [])) hfleet.symm)⟩
  hears {s s' notice rest r} hn h hw := by
    rw [handleNotice, perform_bind_ok (yields_now.2 ⟨rfl, rfl⟩)] at h
    have hquiet : Cluster.Quiet { s.cluster with notices := rest } :=
      ⟨hw.quiet.replies, hw.quiet.unasked⟩
    have hw₁ := hw.of_cluster hquiet rfl s.controller
    obtain ⟨hw', hfleet⟩ := wired_follow hw₁ (s.controller.onNotice_returns s.now notice 0) h
    have hnotices : s.fleet.notices = notice :: rest := hn
    refine ⟨hw', .move (m := .notice s.now) ?_⟩
    simp only [Fleet.move, hnotices]
    exact congrArg (fun f => some (f, [])) hfleet.symm
  waits limit s := .onCluster fun cluster a h => by
    obtain ⟨c, hwait, he⟩ := Option.map_eq_some_iff.mp h
    cases he
    exact goes_of_drifts fun hquiet => Cluster.waitNotice_drifts hquiet hwait
  terminates _ := goes_beginTermination _ _
  concludes hready := goes_conclude fun _ => asks_of_canTerminate (canTerminate_of_isReady hready)
  closes hclosing := goes_conclude fun _ => asks_of_isClosing hclosing

lemma yields_sends {shard : Nat} {node : Node} (commands : List Command)
    (hshard : s.shards[shard]? = some shard) (hnode : s.cluster.nodes[shard]? = some node)
    (hrunning : node.running = true) :
    ∃ cluster, Yields (commands.forM (send shard)) s () { s with cluster } ∧
      cluster.nodes = s.cluster.nodes.set shard
        { node with commands := node.commands ++ commands } ∧
      cluster.notices = s.cluster.notices ∧ cluster.replies = s.cluster.replies := by
  have hlt := (List.getElem?_eq_some_iff.mp hnode).1
  induction commands generalizing s node with
  | nil =>
    refine ⟨s.cluster, rfl, ?_, rfl, rfl⟩
    obtain ⟨hlt, rfl⟩ := List.getElem?_eq_some_iff.mp hnode
    rw [List.append_nil]
    exact (List.set_getElem_self hlt).symm
  | cons command rest ih =>
    obtain ⟨c₁, hsend⟩ := Cluster.exists_send hnode hrunning command
    obtain ⟨node', hnode', -, hnodes, hnotices, hreplies⟩ := Cluster.send_some hsend
    rw [hnode, Option.some.injEq] at hnode'
    subst hnode'
    have hfirst : Yields (send shard command) s () { s with cluster := c₁ } := by
      rw [Yields, perform_send, hshard, Option.bind_eq_bind, Option.bind_some, hsend]
      rfl
    have hnode₁ : c₁.nodes[shard]? =
        some { node with commands := node.commands ++ [command] } := by
      rw [hnodes, List.getElem?_set_self hlt]
    have hlt₁ := (List.getElem?_eq_some_iff.mp hnode₁).1
    obtain ⟨cluster, hrest, hlast, hnotices', hreplies'⟩ :=
      ih (s := { s with cluster := c₁ }) hshard hnode₁ hrunning hlt₁
    refine ⟨cluster, (perform_bind_ok hfirst).trans hrest, ?_, hnotices'.trans hnotices,
      hreplies'.trans hreplies⟩
    rw [hlast]
    simp only [hnodes, List.set_set, List.append_assoc, List.singleton_append]

structure Started (c : Controller) (upTo : Nat) (s : Simulation) : Prop where
  controller : s.controller = c
  shards : s.shards = List.range upTo
  nodes : s.cluster.nodes = (List.range upTo).map fun shard =>
    { Node.new shard (.empty c.settings.shape) with commands := c.preparations shard }
  notices : s.cluster.notices = []
  replies : s.cluster.replies = []

variable {c : Controller} {upTo : Nat}

lemma Started.length (h : Started c upTo s) : s.cluster.nodes.length = upTo := by
  rw [h.nodes, List.length_map, List.length_range]

lemma Started.next (h : Started c upTo s) :
    ∃ s', Yields (startShard 0 upTo) s () s' ∧ Started c (upTo + 1) s' := by
  let s₁ : Simulation := { s with
    cluster := s.cluster.spawn upTo (.empty s.controller.settings.shape) s.services
    shards := s.shards ++ [0 + upTo] }
  have hspawn : s.perform (startShard 0 upTo) =
      s₁.perform ((s.controller.preparations upTo).forM (send upTo)) := rfl
  have hshards : s₁.shards = List.range (upTo + 1) := by
    simp only [s₁, h.shards, Nat.zero_add, List.range_succ]
  have hnodes : s₁.cluster.nodes = s.cluster.nodes ++ [.new upTo (.empty c.settings.shape)] := by
    simp [s₁, h.controller, Cluster.nodes, Cluster.spawn]
  have hlength := h.length
  have hshard : s₁.shards[upTo]? = some upTo := by
    rw [hshards]
    simp
  have hnode : s₁.cluster.nodes[upTo]? = some (.new upTo (.empty c.settings.shape)) := by
    rw [hnodes]
    simp [hlength]
  obtain ⟨cluster, hsends, hlast, hnotices, hreplies⟩ :=
    yields_sends (s.controller.preparations upTo) hshard hnode rfl
  refine ⟨_, hspawn.trans hsends, h.controller, hshards, hlast.trans ?_,
    hnotices.trans h.notices, hreplies.trans h.replies⟩
  rw [hnodes, h.controller, List.range_succ, List.map_append, ← h.nodes]
  nth_rewrite 2 [← hlength]
  rw [List.set_append_right _ _ le_rfl, Nat.sub_self]
  rfl

lemma Started.rest (h : Started c upTo s) (more : Nat) :
    ∃ s', Yields ((List.range' upTo more).forM (startShard 0)) s () s' ∧
      Started c (upTo + more) s' := by
  induction more generalizing upTo s with
  | zero => exact ⟨s, rfl, h⟩
  | succ more ih =>
    obtain ⟨s₁, hfirst, h₁⟩ := h.next
    obtain ⟨s', hrest, h'⟩ := ih h₁
    refine ⟨s', (perform_bind_ok hfirst).trans hrest, ?_⟩
    rwa [Nat.add_right_comm] at h'

lemma Started.wired (h : Started c upTo s) (hpos : 0 < upTo) : s.Wired := by
  have hlength := h.length
  refine ⟨h.shards.trans (congrArg List.range hlength.symm), hlength.symm ▸ hpos, h.replies, ?_⟩
  rw [h.nodes]
  refine List.forall_mem_map.mpr fun shard _ => ?_
  exact Fleet.questions_preparations c shard

lemma Started.fleet (h : Started c c.settings.shards s) :
    s.fleet = Fleet.new c (.empty c.settings.shape) := by
  rw [Simulation.fleet, h.controller, h.nodes, h.notices]
  rfl

lemma yields_startShards {settings : Settings} {benchmark : Benchmark}
    {services : Registry Service} (hnew : Simulation.new settings benchmark services = .ok s) :
    ∃ s', Yields startShards s () s' ∧ s'.Wired ∧
      s'.fleet = Fleet.new s.controller (.empty settings.shape) := by
  have hcontroller := Simulation.new_ok hnew
  obtain ⟨-, hsettings⟩ := Controller.new_ok hcontroller
  obtain ⟨c, hc, h⟩ := bind_eq_ok.mp hnew
  cases h
  have hbegin : Started c 0 ⟨c, services, .empty, []⟩ := ⟨rfl, rfl, rfl, rfl, rfl⟩
  obtain ⟨s', hstart, h'⟩ := hbegin.rest c.settings.shards
  rw [Nat.zero_add] at h'
  refine ⟨s', ?_, h'.wired (hsettings ▸ Fleet.shards_pos hcontroller), hsettings ▸ h'.fleet⟩
  rw [← List.range_eq_range'] at hstart
  exact hstart

lemma startShards_wired (hw : s.Wired) : Yields startShards s () s := by
  rw [Yields, startShards, perform_get_bind, hw.isEmpty_shards]
  rfl

end Sim

namespace Simulation

open Sim

inductive Request where
  | statistics (phase : String)
  | sessions
  | connections
  | connect
  | sleep (millis : Nat)
  | answer (n : Option Nat) (data : List (List UInt8)) (completion : Option Completion)

def Request.act : Request → Sim Unit
  | statistics phase => discard (Sim.statistics phase)
  | sessions => discard visitSessions
  | connections => discard connectionStats
  | connect => openConnections
  | sleep millis => Sim.sleep millis
  | answer n data completion => discard (Sim.answer n data completion)

def Call.fails : Except EngineError (Option RunOutcome) → Bool
  | .ok (some (.aborted _)) => true
  | r => breaks r

/-- The simulations that a benchmark comes to between the start of its shards and their end,
whatever is asked and whether it is refused or not, and whether the engine has broken down. -/
inductive Live (settings : Settings) (benchmark : Benchmark) (services : Registry Service) :
    Bool → Simulation → Prop
  | starts {s s' : Simulation} (hnew : Simulation.new settings benchmark services = .ok s)
      (h : Yields startShards s () s') : Live settings benchmark services false s'
  | calls {broken : Bool} {s s' : Simulation} {r : Except EngineError (Option RunOutcome)}
      (call : Call) (h : Live settings benchmark services broken s) (hcall : call ≠ .shutdown)
      (hact : s.perform call.act = some (r, s')) :
      Live settings benchmark services (broken || Call.fails r) s'
  | requests {broken : Bool} {s s' : Simulation} {r : Except EngineError Unit} (request : Request)
      (h : Live settings benchmark services broken s)
      (hact : s.perform request.act = some (r, s')) :
      Live settings benchmark services (broken || breaks r) s'
  /-- The first half of a shutdown. -/
  | closes {broken : Bool} {s s' : Simulation} {r : Except EngineError Unit}
      (h : Live settings benchmark services broken s)
      (hact : s.perform closePhases = some (r, s')) :
      Live settings benchmark services (broken || breaks r) s'

variable {settings : Settings} {benchmark : Benchmark} {services : Registry Service} {index : Nat}
  {s s' : Simulation} {broken : Bool}

lemma goes_collect (index : Nat) (s : Simulation) : Obeys Goes (collect index false) s := by
  intro r s' h hw
  have hask : s.fleet.Course false (s.fleet.ask index false) := .move (m := .ask index false) rfl
  obtain ⟨hw', hc, hsummed, hrefused⟩ := perform_collect hw hask h
  refine ⟨hw', ?_⟩
  cases r with
  | ok sum =>
    have hcourse := hsummed sum rfl
    rwa [if_neg Bool.false_ne_true, ← hc] at hcourse
  | error e => exact hrefused e rfl

lemma goes_askAll {α : Type} {ask : Cluster → Nat → Cluster × Option α}
    (hask : ∀ (c : Cluster) (i : Nat), c.Quiet → c.Drifts (ask c i).1) (s : Simulation) :
    Obeys Goes (askAll ask) s := by
  intro r s' h
  obtain ⟨cluster, answers, hc, rfl, -⟩ := perform_askAll h
  exact lasting_goes.any _ (goes_of_drifts fun hquiet => Cluster.askAll_drifts hask hquiet hc)

lemma Request.goes (request : Request) (s : Simulation) : Obeys Goes request.act s := by
  have hask {α β : Type} {ask : Cluster → Nat → Cluster × Option α}
      (hdrifts : ∀ (c : Cluster) (i : Nat), c.Quiet → c.Drifts (ask c i).1) (f : List α → β)
      (s : Simulation) :
      Obeys Goes (do let _ ← Sim.shards; let answers ← askAll ask; pure (f answers)) s :=
    .bind lasting_goes (.shards lasting_goes) fun _ _ _ =>
      .bind lasting_goes (goes_askAll hdrifts _) fun _ _ _ => .pure lasting_goes _
  have hdone {α : Type} {act : Sim α} (hact : Obeys Goes act s) : Obeys Goes (discard act) s :=
    .bind lasting_goes hact fun _ _ _ => .pure lasting_goes _
  cases request with
  | sessions => exact hdone (hask (Cluster.inspect_drifts _) List.flatten s)
  | connections => exact hdone (hask (Cluster.inspect_drifts _) List.flatten s)
  | statistics phase =>
    refine hdone (.bind lasting_goes (.index lasting_goes phase) fun i s₁ _ => .get_bind ?_)
    dsimp only
    split
    · exact .pure lasting_goes _
    · refine .bind lasting_goes (goes_collect i s₁) fun live s₂ _ => ?_
      split
      · exact .pure lasting_goes _
      · exact .throw lasting_goes _
  | connect =>
    refine .bind lasting_goes (.shards lasting_goes) fun hosts s₁ _ =>
      .bind lasting_goes (.onCluster fun cluster answers hc => ?_) fun answers s₂ _ => ?_
    · exact goes_of_drifts fun hquiet => Cluster.openConnections_drifts hquiet hc
    · refine .forM lasting_goes ?_ _
      rintro ⟨_ | ⟨_ | _⟩, shard⟩ s₃
      · exact .throw lasting_goes _
      · exact .throw lasting_goes _
      · exact .pure lasting_goes _
  | sleep millis =>
    have hgoes : Obeys Goes (Sim.sleep millis) s := .onCluster fun cluster a hc => by
      obtain ⟨c, hsleep, he⟩ := Option.map_eq_some_iff.mp hc
      cases he
      exact goes_of_drifts fun hquiet => Cluster.sleep_drifts hquiet hsleep
    exact hgoes
  | answer n data completion =>
    refine hdone (.onCluster fun cluster a hc => ?_)
    obtain rfl : (s.cluster.answer n data completion).1 = cluster :=
      congrArg Prod.fst (Option.some.inj hc)
    exact goes_of_drifts fun hquiet => Cluster.answer_drifts hquiet n data completion

lemma goes_turn (interval : Interval) (s : Simulation) : Obeys Goes (turn interval) s :=
  covers_goes.turn interval fun _ _ _ => trivial

lemma Turned.goes (h : Turned s s') : Goes false s s' := by
  induction h using Relation.ReflTransGen.head_induction_on with
  | refl => exact lasting_goes.refl _
  | head hturn _ ih =>
    obtain ⟨interval, next, hturn⟩ := hturn
    exact lasting_goes.trans (goes_turn interval _ _ _ hturn) ih

lemma goes_course {fuel : Nat} {interval : Interval} {r : Except EngineError RunOutcome}
    (h : s.perform (course fuel interval) = some (r, s')) :
    Goes (Call.fails (r.map some)) s s' := by
  obtain ⟨s₁, hturned, ⟨rfl, rfl, -⟩ | ⟨interval', e, s₂, hturn, hlast⟩⟩ := perform_course h
  · exact Turned.goes hturned
  · have hgoes := lasting_goes.trans (Turned.goes hturned) (goes_turn interval' _ _ _ hturn)
    obtain ⟨-, rfl, habort⟩ | ⟨-, rfl, rfl⟩ := hlast
    · intro hw
      obtain ⟨hw₂, hbefore⟩ := hgoes hw
      obtain ⟨hw', hafter⟩ := covers_goes.abort (fun _ _ => trivial) _ _ habort hw₂
      exact ⟨hw', (hbefore.mono fun _ => rfl).trans hafter.widen⟩
    · exact hgoes

lemma goes_run {r : Except EngineError RunReport} (h : s.perform run = some (r, s')) :
    Goes (Call.fails (r.map fun report => some report.outcome)) s s' := by
  intro hw
  -- The shards are there already, so a run does not start them once more.
  have hagain : Yields startShards s () s := startShards_wired hw
  obtain ⟨e, -, hstart⟩ | ⟨s₁, fuel, interval, hstart, hcourse⟩ := perform_run h
  · rw [Yields, hstart] at hagain
    cases hagain
  · rw [Yields, hstart] at hagain
    cases hagain
    have hcourse := goes_course hcourse
    cases r <;> exact lasting_goes.trans (covers_goes.begins _ _) hcourse hw

lemma Call.goes {call : Call} {r : Except EngineError (Option RunOutcome)}
    (hcall : call ≠ .shutdown) (h : s.perform call.act = some (r, s')) :
    Goes (Call.fails r) s s' := by
  have hplain {α : Type} {act : Sim α} (hact : Obeys Goes act s)
      (h : s.perform (do let _ ← act; pure none) = some (r, s')) : Goes (Call.fails r) s s' := by
    rcases perform_bind.mp h with ⟨e, hrefused, rfl⟩ | ⟨a, s₁, hdone, hlast⟩
    · exact hact _ _ hrefused
    · cases hlast
      exact hact _ _ hdone
  cases call with
  | start phase => exact hplain (covers_goes.startPhase phase) h
  | finish phase => exact hplain (covers_goes.finishPhase phase) h
  | tryTerminate phase => exact hplain (covers_goes.tryTerminatePhase phase) h
  | terminate phase => exact hplain (covers_goes.terminatePhase fun _ _ _ => trivial) h
  | tick => exact hplain (covers_goes.tick fun _ _ _ => trivial) h
  | turn interval => exact hplain (goes_turn interval s) h
  | shutdown => exact absurd rfl hcall
  | run =>
    rcases perform_bind.mp h with ⟨e, hrun, rfl⟩ | ⟨report, s₁, hrun, hlast⟩
    · exact goes_run hrun
    · cases hlast
      exact goes_run hrun

namespace Live

theorem course (h : Live settings benchmark services broken s) : s.Wired ∧
    ∃ c, Controller.new settings benchmark services.contains = .ok c ∧
      (Fleet.new c (.empty settings.shape)).Course broken s.fleet := by
  have hnext {b b' : Bool} {s s' : Simulation} (hgoes : Goes b' s s')
      (h : s.Wired ∧ ∃ c, Controller.new settings benchmark services.contains = .ok c ∧
        (Fleet.new c (.empty settings.shape)).Course b s.fleet) :
      s'.Wired ∧ ∃ c, Controller.new settings benchmark services.contains = .ok c ∧
        (Fleet.new c (.empty settings.shape)).Course (b || b') s'.fleet := by
    obtain ⟨hw, c, hc, hbefore⟩ := h
    obtain ⟨hw', hafter⟩ := hgoes hw
    refine ⟨hw', c, hc, (hbefore.mono fun hb => ?_).trans (hafter.mono fun hb' => ?_)⟩
    · rw [hb, Bool.true_or]
    · rw [hb', Bool.or_true]
  induction h with
  | starts hnew h =>
    obtain ⟨s₁, hstart, hw, hfleet⟩ := yields_startShards hnew
    rw [Yields, hstart] at h
    cases h
    exact ⟨hw, _, new_ok hnew, hfleet ▸ .refl⟩
  | calls call _ hcall hact ih => exact hnext (Call.goes hcall hact) ih
  | requests request _ hact ih => exact hnext (request.goes _ _ _ hact) ih
  | closes _ hact ih => exact hnext (covers_goes.closePhases (fun _ _ => trivial) _ _ hact) ih

theorem chronicle (h : Live settings benchmark services broken s) (index : Nat) :
    ∃ log, Fleet.Chronicle index s.fleet log ∧ (broken = false → Lossless log) := by
  obtain ⟨-, c, hc, hcourse⟩ := h.course
  have hbegin : Fleet.Chronicle index (Fleet.new c (.empty settings.shape)) _ := .new hc _
  obtain ⟨more, hlog, hlossless⟩ := hcourse.chronicle hbegin
  refine ⟨_, hlog, fun hsound => List.forall_mem_append.mpr ⟨?_, hlossless hsound⟩⟩
  exact List.forall_mem_singleton.mpr rfl

/-- While nothing is broken, what is done in a simulation is what its fleet does by itself. -/
theorem later (h : Live settings benchmark services false s) (hintact : s.fleet.Intact) :
    ∃ c, Controller.new settings benchmark services.contains = .ok c ∧
      (Fleet.new c (.empty settings.shape)).Later s.fleet := by
  obtain ⟨-, c, hc, hcourse⟩ := h.course
  exact ⟨c, hc, hcourse.later hintact⟩

theorem balanced (h : Live settings benchmark services false s) (hintact : s.fleet.Intact)
    {p : PhaseRun} (hp : s.controller.phases[index]? = some p) : s.fleet.Balanced index p := by
  obtain ⟨c, hc, hlater⟩ := h.later hintact
  exact ((Fleet.Reachable.new hc _).later hlater).sane.balanced index p hp

/-- Whatever breaks down, a phase never has more sessions than it may, and tells of no more when it
has ended. If nothing broke down it tells of no less than there are. -/
theorem within_capacity (h : Live settings benchmark services broken s) {p : PhaseRun}
    (hp : s.controller.phases[index]? = some p) :
    s.fleet.alive index ≤ p.phase.sessionCapacity ∧
      (p.status = .terminated → p.maxUsed ≤ p.phase.sessionCapacity ∧
        (broken = false → s.fleet.alive index ≤ p.maxUsed)) := by
  obtain ⟨log, hlog, hlossless⟩ := h.chronicle index
  have hp' : s.fleet.controller.phases[index]? = some p := hp
  have hlogged := hlog.logged hp'
  have hmarked := hlog.marked hp'
  have halive := Fleet.alive_le_peaks hlogged.roomed hlogged.mark
  refine ⟨halive.trans hlogged.peaks_le, fun hover => ?_⟩
  obtain ⟨hle, heq⟩ := hmarked.ended hover
  exact ⟨hle.trans hlogged.peaks_le, fun hsound => halive.trans (heq (hlossless hsound)).ge⟩

/-- If nothing broke down, the statistics of a phase that has ended are what all operations come to
that its shards ever issued in it, by books that were kept of them from the start. -/
theorem statistics_complete (h : Live settings benchmark services false s)
    (hintact : s.fleet.Intact)
    (hbuilt : ∀ phase ∈ benchmark.phases, ∃ d : Draft, d.build = .ok phase.scenario) :
    ∃ ls told, Fleet.Audited settings.shape s.fleet ls told ∧
      ∀ (index : Nat) (p : PhaseRun) (metric : String),
        s.controller.phases[index]? = some p → p.status = .terminated →
        p.statistics.get? metric = tally settings.shape ls index metric := by
  obtain ⟨c, hc, hlater⟩ := h.later hintact
  have hbuilt : (Fleet.new c (.empty settings.shape)).Built := by
    intro p hp
    have hp : p ∈ c.phases := hp
    rw [(Controller.new_ok hc).1] at hp
    obtain ⟨phase, hphase, rfl⟩ := List.mem_map.mp hp
    exact hbuilt phase hphase
  have hbuilt := hlater.built (.new hc _) hbuilt
  obtain ⟨ls, told, haudited⟩ := (Fleet.Audited.new hc).later hlater
  refine ⟨ls, told, haudited, fun index p metric hp hover => ?_⟩
  rw [(haudited.settled hbuilt).kept index p metric hp hover]
  exact tallied_eq_tally settings.shape (fun l hl => haudited.run hbuilt hl) index metric

theorem before_shutdown {r : Except EngineError Unit}
    (h : Live settings benchmark services broken s) (hact : s.perform shutdown = some (r, s')) :
    ∃ r₁ s₁, s.perform closePhases = some (r₁, s₁) ∧
      Live settings benchmark services (broken || breaks r₁) s₁ ∧
      s'.controller = s₁.controller := by
  rcases perform_bind.mp hact with ⟨e, hclose, -⟩ | ⟨u, s₁, hclose, hstop⟩
  · exact ⟨_, s', hclose, .closes h hclose, rfl⟩
  · exact ⟨_, s₁, hclose, .closes h hclose, congrArg Prod.fst (keeps_stopShards s₁ r s' hstop)⟩

end Live

theorem live_of_run {r : Except EngineError RunReport}
    (hnew : Simulation.new settings benchmark services = .ok s)
    (h : s.perform run = some (r, s')) :
    Live settings benchmark services (Call.fails (r.map fun report => some report.outcome)) s' := by
  obtain ⟨s₁, hstart, hw, -⟩ := yields_startShards hnew
  have hagain : s₁.perform run = some (r, s') := by
    have hsame : s₁.perform run = s.perform run := by
      rw [run, perform_bind_ok hstart, perform_bind_ok (startShards_wired hw)]
    exact hsame.trans h
  have hact : s₁.perform Call.run.act =
      some (r.map fun report => some report.outcome, s') := by
    cases r with
    | error e => exact perform_bind_error hagain
    | ok report => exact perform_bind_ok hagain
  have hlive := Live.calls .run (.starts hnew hstart) nofun hact
  rwa [Bool.false_or] at hlive

/-- A run that comes to its end has ended all phases, and nothing has broken down in it. -/
theorem live_of_completed {report : RunReport}
    (hnew : Simulation.new settings benchmark services = .ok s)
    (h : s.perform run = some (.ok report, s')) (hdone : report.outcome = .completed) :
    Live settings benchmark services false s' ∧ s'.controller.isComplete = true := by
  have hlive := live_of_run hnew h
  rw [Except.map, hdone] at hlive
  refine ⟨hlive, ?_⟩
  obtain ⟨e, he, -⟩ | ⟨s₁, fuel, interval, -, hcourse⟩ := perform_run h
  · cases he
  · rw [Except.map, hdone] at hcourse
    obtain ⟨s₂, -, ⟨-, -, hcomplete⟩ | ⟨_, e, _, -, ⟨-, he, -⟩ | ⟨-, he, -⟩⟩⟩ :=
      perform_course hcourse
    · exact hcomplete
    · cases he
    · cases he

end Simulation

end LoadEngine
