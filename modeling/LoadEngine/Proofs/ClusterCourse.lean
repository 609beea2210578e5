import LoadEngine.Proofs.FleetCourse
import LoadEngine.Proofs.SimulationTick

/-! The nodes of a cluster as a fleet. Whatever a node of a cluster does, with what its services
answer and what takes it down, happens to the fleet, and so does the passing of time. -/

namespace LoadEngine

namespace Fleet

variable {f : Fleet}

def served (f : Fleet) (shard : Nat) (node : Node) (outputs : List Output) : Fleet :=
  ⟨f.controller, f.nodes.set shard node, f.notices ++ noticesOf outputs,
    f.inquiry.map fun q => q.hear shard outputs⟩

lemma serve_eq {shard : Nat} {step : Node → Option (Node × List Output)} {node node' : Node}
    {outputs : List Output} (hnode : f.nodes[shard]? = some node)
    (hstep : step node = some (node', outputs)) :
    f.serve shard step = some (f.served shard node' outputs, outputs) := by
  simp only [serve, hnode, hstep, Option.bind_eq_bind, Option.bind_some]
  rfl

end Fleet

namespace Node

variable {n n' : Node} {now : Nanos} {deed : Deed} {outputs : List Output}

def Moves (n : Node) (now : Nanos) (deed : Deed) (n' : Node) (outputs : List Output) : Prop :=
  ∀ (f : Fleet) (shard : Nat), f.nodes[shard]? = some n →
    ∃ m, f.move m = some (f.served shard n' outputs, outputs) ∧ f.deed? m = some (shard, now, deed)

lemma command?_moves (h : n.command? now = some (n', outputs)) :
    ∃ c, n.commands.head? = some c ∧ n.Acts now (.command c) n' outputs ∧
      n.Moves now (.command c) n' outputs := by
  obtain ⟨c, hhead, hacts⟩ := command?_acts h
  refine ⟨c, hhead, hacts, fun f shard hnode => ⟨.command shard now, Fleet.serve_eq hnode h, ?_⟩⟩
  simp [Fleet.deed?, hnode, hhead]

lemma step?_moves (h : n.step? now = some (n', outputs)) :
    ∃ deed, (∀ c, deed = .command c → n.commands.head? = some c) ∧
      n.Acts now deed n' outputs ∧ n.Moves now deed n' outputs := by
  unfold step? at h
  cases hcommand : n.command? now with
  | some out =>
    rw [hcommand] at h
    cases h
    obtain ⟨c, hhead, hacts, hmoves⟩ := command?_moves hcommand
    refine ⟨.command c, fun c' hc => ?_, hacts, hmoves⟩
    cases hc
    exact hhead
  | none =>
    cases hevent : n.event? now with
    | some out =>
      rw [hcommand, hevent] at h
      cases h
      obtain ⟨e, hhead, hacts⟩ := event?_acts hevent
      refine ⟨.event e, fun _ hc => (by cases hc), hacts, fun f shard hnode =>
        ⟨.event shard now, Fleet.serve_eq hnode hevent, ?_⟩⟩
      simp [Fleet.deed?, hnode, hhead]
    | none =>
      rw [hcommand, hevent] at h
      exact ⟨.timers, fun _ hc => (by cases hc), timers?_acts h, fun f shard hnode =>
        ⟨.timers shard now, Fleet.serve_eq hnode h, rfl⟩⟩

lemma deliver_deliver (n : Node) (events more : List Event) :
    (n.deliver events).deliver more = n.deliver (events ++ more) := by
  unfold deliver
  split <;> simp_all

lemma stop_deliver (n : Node) (events : List Event) : (n.deliver events).stop = n.stop := by
  unfold deliver
  split <;> rfl

end Node

namespace Cluster

open Relation (ReflTransGen)

variable {c c' c'' : Cluster} {i : Nat}

def nodes (c : Cluster) : List Node := c.hosts.map Host.node

def fleet (c : Cluster) (controller : Controller) (edit : Nat → Node → Node)
    (q : Option Inquiry) : Fleet :=
  ⟨controller, c.nodes.mapIdx edit, c.notices, q⟩

lemma nodes_setHost (c : Cluster) (i : Nat) (h : Host) :
    (c.setHost i h).nodes = c.nodes.set i h.node := List.map_set

lemma nodes_onNode (c : Cluster) (i : Nat) (f : Node → Node) :
    (c.onNode i f).nodes = c.nodes.modify i f := by
  apply List.ext_getElem?
  intro j
  simp only [nodes, onNode, List.getElem?_map, List.getElem?_modify]
  cases c.hosts[j]? with
  | none => rfl
  | some h =>
    simp only [Option.map_some]
    split <;> rfl

lemma mapIdx_modify (edit : Nat → Node → Node) (hedit : edit i = id) (nodes : List Node)
    (f : Node → Node) : (nodes.modify i f).mapIdx edit = (nodes.mapIdx edit).modify i f := by
  apply List.ext_getElem?
  intro j
  simp only [List.getElem?_mapIdx, List.getElem?_modify]
  cases nodes[j]? with
  | none => rfl
  | some node =>
    by_cases hj : i = j
    · subst hj
      simp [hedit]
    · simp [hj]

lemma mapIdx_set {edit : Nat → Node → Node} (hedit : edit i = id) (nodes : List Node)
    (node : Node) : (nodes.set i node).mapIdx edit = (nodes.mapIdx edit).set i node := by
  apply List.ext_getElem?
  intro j
  simp only [List.getElem?_mapIdx, List.getElem?_set, List.length_mapIdx]
  by_cases hj : i = j
  · subst hj
    split <;> simp [hedit]
  · simp [hj]

inductive Routed (c : Cluster) (i : Nat) (outputs : List Output) (c' : Cluster) : Prop
  | goes {events : List Event} (hup : .crash ∉ outputs)
      (hnodes : c'.nodes = c.nodes.modify i fun node => node.deliver events)
      (hnotices : c'.notices = c.notices ++ noticesOf outputs)
      (hreplies : c'.replies = c.replies ++ outputs.filterMap Output.snapshot?) :
      Routed c i outputs c'
  | falls (told lost : List Output) (hsplit : outputs = told ++ lost)
      (hnodes : c'.nodes = c.nodes.modify i Node.stop)
      (hnotices : c'.notices = c.notices ++ noticesOf told)
      (hreplies : c'.replies = c.replies ++ told.filterMap Output.snapshot?) :
      Routed c i outputs c'

lemma modify_deliver_deliver (nodes : List Node) (events more : List Event) :
    ((nodes.modify i fun node => node.deliver events).modify i fun node => node.deliver more) =
      nodes.modify i fun node => node.deliver (events ++ more) := by
  rw [List.modify_modify_eq]
  exact congrArg (nodes.modify i) (funext fun node => node.deliver_deliver events more)

lemma modify_deliver_stop (nodes : List Node) (events : List Event) :
    (nodes.modify i fun node => node.deliver events).modify i Node.stop =
      nodes.modify i Node.stop := by
  rw [List.modify_modify_eq]
  exact congrArg (nodes.modify i) (funext fun node => node.stop_deliver events)

lemma react_routed (c : Cluster) (i : Nat) (tag : Tag) (r : Response) :
    (c.react i tag r).1.notices = c.notices ∧ (c.react i tag r).1.replies = c.replies ∧
      ∃ events, (c.react i tag r).1.nodes =
        if (c.react i tag r).2 then c.nodes.modify i fun node => node.deliver events
        else c.nodes.modify i Node.stop := by
  have hearly := nodes_onNode c i fun node => node.deliver (answerEvents tag r.early none)
  unfold react
  cases r.ending with
  | crash =>
    refine ⟨rfl, rfl, [], ?_⟩
    rw [if_neg (by simp), ← modify_deliver_stop c.nodes (answerEvents tag r.early none), ← hearly]
    exact nodes_onNode _ i Node.stop
  | forget | hold => exact ⟨rfl, rfl, _, hearly⟩
  | answer after data completion =>
    dsimp only
    split
    · refine ⟨rfl, rfl,
        answerEvents tag r.early none ++ answerEvents tag data (some completion), ?_⟩
      rw [if_pos rfl, ← modify_deliver_deliver c.nodes (answerEvents tag r.early none), ← hearly]
      exact nodes_onNode _ i _
    · exact ⟨rfl, rfl, _, hearly⟩

lemma call_routed (c : Cluster) (i : Nat) (operation : Operation BoundValidator) (tag : Tag) :
    (c.call i operation tag).1.notices = c.notices ∧
      (c.call i operation tag).1.replies = c.replies ∧
      ∃ events, (c.call i operation tag).1.nodes =
        if (c.call i operation tag).2 then c.nodes.modify i fun node => node.deliver events
        else c.nodes.modify i Node.stop := by
  unfold call
  cases hh : c.hosts[i]? with
  | none =>
    have hnode : c.nodes[i]? = none := by rw [nodes, List.getElem?_map, hh]; rfl
    refine ⟨rfl, rfl, [], ?_⟩
    rw [if_pos rfl, List.modify_eq_self (List.getElem?_eq_none_iff.mp hnode)]
  | some h =>
    cases hs : h.services.get? operation.plugin with
    | none =>
      simp only [hs]
      exact ⟨rfl, rfl, _, nodes_onNode c i _⟩
    | some inst =>
      simp only [hs]
      have hkeep : Cluster.nodes { c.setHost i { h with
            services := h.services.insert operation.plugin { inst with issued := inst.issued + 1 } }
          with log := c.log ++ [⟨h.node.shard.id, c.now, operation.plugin, operation.metric⟩] } =
          c.nodes := map_set_of_eq hh rfl
      rw [← hkeep]
      exact react_routed _ i tag (inst.service.respond inst.issued operation.payload)

lemma Routed.of_deliver {c₁ : Cluster} {events : List Event} {outputs : List Output}
    (hnodes : c₁.nodes = c.nodes.modify i fun node => node.deliver events)
    (hnotices : c₁.notices = c.notices) (hreplies : c₁.replies = c.replies)
    (h : c₁.Routed i outputs c') : c.Routed i outputs c' := by
  cases h with
  | goes hup hn hns hrs =>
    rw [hnodes, modify_deliver_deliver] at hn
    exact .goes hup hn (hnotices ▸ hns) (hreplies ▸ hrs)
  | falls told lost hsplit hn hns hrs =>
    rw [hnodes, modify_deliver_stop] at hn
    exact .falls told lost hsplit hn (hnotices ▸ hns) (hreplies ▸ hrs)

lemma route_routed (i : Nat) (c : Cluster) (outputs : List Output) :
    c.Routed i outputs (route i c outputs) := by
  induction outputs generalizing c with
  | nil =>
    have hnone : c.nodes = c.nodes.modify i fun node => node.deliver [] := by
      have hid : (fun node : Node => node.deliver []) = id := by
        funext node
        simp [Node.deliver]
      rw [hid, List.modify_id]
    exact .goes List.not_mem_nil hnone (List.append_nil _).symm (List.append_nil _).symm
  | cons output rest ih =>
    cases output with
    | notice notice =>
      cases ih { c with notices := c.notices ++ [notice] } with
      | goes hup hn hns hrs =>
        refine .goes (by simpa using hup) hn (hns.trans ?_) hrs
        simp
      | falls told lost hsplit hn hns hrs =>
        refine .falls (.notice notice :: told) lost (by rw [hsplit]; rfl) hn (hns.trans ?_) hrs
        simp
    | snapshot phase snapshot =>
      cases ih { c with replies := c.replies ++ [snapshot] } with
      | goes hup hn hns hrs =>
        refine .goes (by simpa using hup) hn hns (hrs.trans ?_)
        simp [Output.snapshot?]
      | falls told lost hsplit hn hns hrs =>
        refine .falls (.snapshot phase snapshot :: told) lost (by rw [hsplit]; rfl) hn hns
          (hrs.trans ?_)
        simp [Output.snapshot?]
    | crash =>
      exact .falls [] (.crash :: rest) rfl (nodes_onNode c i Node.stop)
        (List.append_nil _).symm (List.append_nil _).symm
    | call operation tag =>
      obtain ⟨hnotices, hreplies, events, hnodes⟩ := c.call_routed i operation tag
      rw [route_call]
      split
      · rename_i halive
        rw [if_pos halive] at hnodes
        cases Routed.of_deliver hnodes hnotices hreplies (ih _) with
        | goes hup hn hns hrs => exact .goes (by simpa using hup) hn hns hrs
        | falls told lost hsplit hn hns hrs =>
          exact .falls (.call operation tag :: told) lost (by rw [hsplit]; rfl) hn hns hrs
      · rename_i hdown
        rw [if_neg hdown] at hnodes
        exact .falls [] (.call operation tag :: rest) rfl hnodes
          (hnotices.trans (List.append_nil _).symm) (hreplies.trans (List.append_nil _).symm)

structure Advanced (c : Cluster) (i : Nat) (node : Node) (outputs told : List Output)
    (c' : Cluster) : Prop where
  front : told <+: outputs
  replies : c'.replies = c.replies ++ told.filterMap Output.snapshot?
  node : c'.nodes = c.nodes.set i node.stop ∨
    told = outputs ∧ ∃ events, c'.nodes = c.nodes.set i (node.deliver events)
  course : ∀ (controller : Controller) (edit : Nat → Node → Node) (q : Option Inquiry),
    edit i = id → (c.fleet controller edit q).Course false
      (c'.fleet controller edit (q.map fun q => q.hear i told))

lemma set_modify (nodes : List Node) (i : Nat) (node : Node) (f : Node → Node) :
    (nodes.set i node).modify i f = nodes.set i (f node) := by
  apply List.ext_getElem?
  intro j
  simp only [List.getElem?_modify, List.getElem?_set]
  by_cases hj : i = j
  · subst hj
    split <;> simp
  · simp [hj]

lemma advanceTo_frame (c : Cluster) (i : Nat) (h : Host) (node : Node) (outputs : List Output) :
    (c.advanceTo i h node outputs).nodes =
        (route i (c.setHost i { h with node }) outputs).nodes ∧
      (c.advanceTo i h node outputs).notices =
        (route i (c.setHost i { h with node }) outputs).notices ∧
      (c.advanceTo i h node outputs).replies =
        (route i (c.setHost i { h with node }) outputs).replies := by
  unfold advanceTo
  dsimp only
  split <;> exact ⟨rfl, rfl, rfl⟩

lemma advanceTo_advanced {h : Host} {now : Nanos} {deed : Deed} {node : Node}
    {outputs : List Output} (hh : c.hosts[i]? = some h)
    (hmoves : h.node.Moves now deed node outputs) :
    ∃ told, c.Advanced i node outputs told (c.advanceTo i h node outputs) := by
  obtain ⟨hnodes, hnotices, hreplies⟩ := c.advanceTo_frame i h node outputs
  have hset := c.nodes_setHost i { h with node }
  have hserved (controller : Controller) (edit : Nat → Node → Node) (q : Option Inquiry)
      (hedit : edit i = id) : ∃ m,
      (c.fleet controller edit q).move m =
          some ((c.fleet controller edit q).served i node outputs, outputs) ∧
        (c.fleet controller edit q).deed? m = some (i, now, deed) := by
    refine hmoves _ i ?_
    rw [fleet, List.getElem?_mapIdx, nodes, List.getElem?_map, hh, hedit]
    rfl
  cases route_routed i (c.setHost i { h with node }) outputs with
  | @goes events hup hn hns hrs =>
    rw [← hnodes, hset, set_modify] at hn
    refine ⟨outputs, List.prefix_refl _, hreplies.trans hrs, .inr ⟨rfl, events, hn⟩, ?_⟩
    intro controller edit q hedit
    obtain ⟨m, hm, -⟩ := hserved controller edit q hedit
    have hcourse : (c.fleet controller edit q).Course false
        ((c.fleet controller edit q).served i node outputs) :=
      .step .refl (.move hm hup)
    refine hcourse.trans (.move (m := .deliver i events) ?_)
    simp only [Fleet.move, Fleet.served, fleet, hn, hnotices.trans hns, set_modify,
      mapIdx_set hedit]
    rfl
  | falls told lost hsplit hn hns hrs =>
    rw [← hnodes, hset, set_modify] at hn
    refine ⟨told, hsplit ▸ List.prefix_append told lost, hreplies.trans hrs, .inl hn, ?_⟩
    intro controller edit q hedit
    obtain ⟨m, hm, hdeed⟩ := hserved controller edit q hedit
    rw [hsplit] at hm
    refine .step .refl (.fall hm hdeed ?_)
    simp only [Fleet.served, fleet, hn, hnotices.trans hns, set_modify, mapIdx_set hedit]
    rfl

structure Quiet (c : Cluster) : Prop where
  replies : c.replies = []
  unasked : ∀ node ∈ c.nodes, questions node.commands = []

structure Alone (i : Nat) (c c' : Cluster) : Prop where
  quiet : c'.Quiet
  length : c'.nodes.length = c.nodes.length
  others : ∀ j, i ≠ j → c'.nodes[j]? = c.nodes[j]?
  course : ∀ (controller : Controller) (edit : Nat → Node → Node) (q : Option Inquiry),
    edit i = id → (c.fleet controller edit q).Course false (c'.fleet controller edit q)

lemma Alone.refl (h : c.Quiet) : Alone i c c := ⟨h, rfl, fun _ _ => rfl, fun _ _ _ _ => .refl⟩

lemma Alone.trans (h : Alone i c c') (h' : Alone i c' c'') : Alone i c c'' where
  quiet := h'.quiet
  length := h'.length.trans h.length
  others j hj := (h'.others j hj).trans (h.others j hj)
  course controller edit q hedit :=
    (h.course controller edit q hedit).trans (h'.course controller edit q hedit)

lemma Advanced.final {node : Node} {outputs told : List Output}
    (h : c.Advanced i node outputs told c') : ∃ final, c'.nodes = c.nodes.set i final ∧
      (final.commands = [] ∧ final.running = false ∨
        told = outputs ∧ final.commands = node.commands ∧ final.running = node.running) := by
  obtain hstop | ⟨hall, events, hgoes⟩ := h.node
  · exact ⟨_, hstop, .inl ⟨rfl, rfl⟩⟩
  · obtain ⟨hcommands, -, hrunning⟩ := Fleet.deliver_frame node events
    exact ⟨_, hgoes, .inr ⟨hall, hcommands, hrunning⟩⟩

lemma Advanced.silent {node : Node} {outputs told : List Output}
    (h : c.Advanced i node outputs told c') (hsilent : Silent outputs) :
    c'.replies = c.replies ∧ ∀ q : Inquiry, q.hear i told = q := by
  have htold : Silent told := fun o ho => hsilent o (h.front.subset ho)
  constructor
  · rw [h.replies, List.filterMap_eq_nil_iff.mpr htold, List.append_nil]
  · exact fun q => Fleet.hear_of_silent q i (List.findSome?_eq_none_iff.mpr htold)

lemma Advanced.alone {node : Node} {outputs told : List Output}
    (h : c.Advanced i node outputs told c') (hquiet : c.Quiet) (hsilent : Silent outputs)
    (hnode : questions node.commands = []) : Alone i c c' := by
  obtain ⟨hreplies, hhear⟩ := h.silent hsilent
  obtain ⟨final, hfinal, hcommands⟩ := h.final
  refine ⟨⟨hreplies.trans hquiet.replies, ?_⟩, ?_, fun j hj => ?_,
    fun controller edit q hedit => ?_⟩
  · rw [hfinal]
    refine forall_mem_set hquiet.unasked ?_
    obtain ⟨hnone, -⟩ | ⟨-, hsame, -⟩ := hcommands
    · rw [hnone]
      rfl
    · rwa [hsame]
  · rw [hfinal, List.length_set]
  · rw [hfinal, List.getElem?_set_ne hj]
  · have hcourse := h.course controller edit q hedit
    simpa only [hhear, Option.map_id'] using hcourse

lemma questions_of_acts {n n' : Node} {now : Nanos} {deed : Deed} {outputs : List Output}
    (h : n.Acts now deed n' outputs) (hn : questions n.commands = []) :
    questions n'.commands = [] := by
  obtain ⟨rest, hqueue, hrest⟩ := h.queue
  rw [hqueue, questions_append, List.append_eq_nil_iff] at hn
  obtain ⟨hsame, -⟩ | ⟨hnone, -⟩ := hrest
  · rw [hsame]
    exact hn.2
  · rw [hnone]
    rfl

lemma silent_of_acts {n n' : Node} {now : Nanos} {deed : Deed} {outputs : List Output}
    (hacts : n.Acts now deed n' outputs)
    (hother : ∀ phase reset, deed ≠ .command (.collect phase reset)) : Silent outputs := by
  rw [hacts.told]
  exact Shard.perform_silent hother n.shard now

lemma advanceTo_alone {host : Host} {now : Nanos} {deed : Deed} {node : Node}
    {outputs : List Output} (hquiet : c.Quiet) (hh : c.hosts[i]? = some host)
    (hhead : ∀ c, deed = .command c → host.node.commands.head? = some c)
    (hacts : host.node.Acts now deed node outputs)
    (hmoves : host.node.Moves now deed node outputs) :
    Alone i c (c.advanceTo i host node outputs) := by
  obtain ⟨told, hadvanced⟩ := advanceTo_advanced hh hmoves
  have hn : questions host.node.commands = [] :=
    hquiet.unasked _ (List.mem_map_of_mem (List.mem_of_getElem? hh))
  have hsilent : Silent outputs := silent_of_acts hacts fun phase reset hdeed => by
    obtain ⟨rest, hrest⟩ := List.head?_eq_some_iff.mp (hhead _ hdeed)
    rw [hrest] at hn
    cases hn
  exact hadvanced.alone hquiet hsilent (questions_of_acts hacts hn)

lemma Moves.alone (h : Moves i c c') (hquiet : c.Quiet) : Alone i c c' := by
  cases h with
  | step h =>
    obtain ⟨host, hh, h⟩ := Option.bind_eq_some_iff.mp h
    obtain ⟨⟨node, outputs⟩, hstep, h⟩ := Option.bind_eq_some_iff.mp h
    cases h
    obtain ⟨deed, hhead, hacts, hmoves⟩ := Node.step?_moves hstep
    exact advanceTo_alone hquiet hh hhead hacts hmoves
  | command h =>
    obtain ⟨host, hh, h⟩ := Option.bind_eq_some_iff.mp h
    obtain ⟨⟨node, outputs⟩, hcommand, h⟩ := Option.bind_eq_some_iff.mp h
    cases h
    obtain ⟨command, hhead, hacts, hmoves⟩ := Node.command?_moves hcommand
    exact advanceTo_alone hquiet hh (fun _ hc => Deed.command.inj hc ▸ hhead) hacts hmoves

lemma alone_of_moves (h : ReflTransGen (Moves i) c c') (hquiet : c.Quiet) : Alone i c c' := by
  induction h with
  | refl => exact .refl hquiet
  | tail _ hlast ih => exact ih.trans (hlast.alone ih.quiet)

structure Drifts (c c' : Cluster) : Prop where
  quiet : c'.Quiet
  length : c'.nodes.length = c.nodes.length
  course : ∀ controller : Controller, (c.fleet controller (fun _ => id) none).Course false
    (c'.fleet controller (fun _ => id) none)

lemma Alone.drifts (h : Alone i c c') : Drifts c c' :=
  ⟨h.quiet, h.length, fun controller => h.course controller _ none rfl⟩

lemma Drifts.refl (h : c.Quiet) : Drifts c c := ⟨h, rfl, fun _ => .refl⟩

lemma Drifts.trans (h : Drifts c c') (h' : Drifts c' c'') : Drifts c c'' :=
  ⟨h'.quiet, h'.length.trans h.length, fun controller =>
    (h.course controller).trans (h'.course controller)⟩

lemma Drifts.of_nodes (hquiet : c.Quiet) (hnodes : c'.nodes = c.nodes)
    (hnotices : c'.notices = c.notices) (hreplies : c'.replies = c.replies) : Drifts c c' := by
  refine ⟨⟨hreplies.trans hquiet.replies, hnodes ▸ hquiet.unasked⟩, congrArg _ hnodes, ?_⟩
  intro controller
  rw [fleet, fleet, hnodes, hnotices]
  exact .refl

lemma foldl_drifts {α : Type} {f : Cluster → α → Cluster}
    (hf : ∀ (c : Cluster) (a : α), c.Quiet → Drifts c (f c a)) (hquiet : c.Quiet) (l : List α) :
    Drifts c (l.foldl f c) := by
  induction l generalizing c with
  | nil => exact .refl hquiet
  | cons a rest ih =>
    have hfirst := hf c a hquiet
    exact hfirst.trans (ih hfirst.quiet)

lemma deliver_drifts (hquiet : c.Quiet) (i : Nat) (events : List Event) :
    Drifts c (c.deliver i events) := by
  have hnodes := c.nodes_onNode i fun node => node.deliver events
  refine ⟨⟨hquiet.replies, fun node hnode => ?_⟩, ?_, fun controller => ?_⟩
  · rw [deliver, hnodes] at hnode
    obtain ⟨j, hj⟩ := List.mem_iff_getElem?.mp hnode
    obtain ⟨old, hold, rfl | rfl⟩ := Fleet.deliver_node_back hj
    · exact hquiet.unasked _ (List.mem_of_getElem? hold)
    · rw [(Fleet.deliver_frame old events).1]
      exact hquiet.unasked _ (List.mem_of_getElem? hold)
  · rw [deliver, hnodes, List.length_modify]
  · refine .move (m := .deliver i events) ?_
    simp only [Fleet.move, fleet, deliver, hnodes, mapIdx_modify (fun _ => id) rfl]
    rfl

lemma Works.drifts (h : Works c c') (hquiet : c.Quiet) : Drifts c c' := by
  obtain ⟨i, hmoves⟩ := h
  exact (hmoves.alone hquiet).drifts

lemma jump_drifts (hquiet : c.Quiet) (time : Nat) : Drifts c (c.jump time) := by
  have hfirst : Drifts c { c with
      now := max c.now time
      parcels := (c.parcels.partition fun p => p.due ≤ time).2 } := .of_nodes hquiet rfl rfl rfl
  exact hfirst.trans (foldl_drifts (fun c p hc => deliver_drifts hc p.host p.events) hfirst.quiet _)

lemma Passes.drifts (h : Passes c c') (hquiet : c.Quiet) : Drifts c c' := by
  cases h with
  | works hworks => exact hworks.drifts hquiet
  | jumps time => exact jump_drifts hquiet time

lemma drifts_of {R : Cluster → Cluster → Prop} (hR : ∀ c c', R c c' → c.Quiet → Drifts c c')
    (h : ReflTransGen R c c') (hquiet : c.Quiet) : Drifts c c' := by
  induction h with
  | refl => exact .refl hquiet
  | tail _ hlast ih => exact ih.trans (hR _ _ hlast ih.quiet)

lemma waitNotice_drifts {limit : Option Nat} {fuel : Nat} (hquiet : c.Quiet)
    (h : waitNotice limit fuel c = some c') : Drifts c c' :=
  drifts_of (fun _ _ => Passes.drifts) (waitNotice_passes h) hquiet

lemma passTo_drifts {target fuel : Nat} (hquiet : c.Quiet) (h : passTo target fuel c = some c') :
    Drifts c c' := by
  obtain ⟨c₁, hpasses, rfl⟩ := passTo_passes h
  have hfirst := drifts_of (fun _ _ => Passes.drifts) hpasses hquiet
  exact hfirst.trans (.of_nodes hfirst.quiet rfl rfl rfl)

lemma sleep_drifts {millis : Nat} (hquiet : c.Quiet) (h : c.sleep millis = some c') :
    Drifts c c' := by
  unfold sleep at h
  split at h
  · exact passTo_drifts hquiet h
  · cases h

lemma answerOne_drifts (hquiet : c.Quiet) (data : List (List UInt8))
    (completion : Option Completion) (n : Nat) : Drifts c (answerOne data completion c n).1 := by
  unfold answerOne
  cases hheld : c.held[n]? with
  | none => exact .refl hquiet
  | some held =>
    dsimp only
    split
    · exact .refl hquiet
    · have hfirst : Drifts c { c with held := c.held.set n { held with taken := true } } :=
        .of_nodes hquiet rfl rfl rfl
      exact hfirst.trans (deliver_drifts hfirst.quiet _ _)

lemma answer_drifts (hquiet : c.Quiet) (n : Option Nat) (data : List (List UInt8))
    (completion : Option Completion) : Drifts c (c.answer n data completion).1 := by
  have hnumbers (numbers : List Nat) (c : Cluster) (count : Nat) (hquiet : c.Quiet) :
      Drifts c (numbers.foldl (fun (x : Cluster × Nat) n =>
        ((answerOne data completion x.1 n).1, x.2 + (answerOne data completion x.1 n).2))
        (c, count)).1 := by
    induction numbers generalizing c count with
    | nil => exact .refl hquiet
    | cons n rest ih =>
      have hfirst := answerOne_drifts hquiet data completion n
      exact hfirst.trans (ih _ _ hfirst.quiet)
  exact hnumbers _ c 0 hquiet

lemma askAll_drifts {α : Type} {ask : Cluster → Nat → Cluster × Option α}
    (hask : ∀ (c : Cluster) (i : Nat), c.Quiet → Drifts c (ask c i).1) {hosts : List Nat}
    {answers : List (Option α)} (hquiet : c.Quiet)
    (h : askAll ask c hosts = some (c', answers)) : Drifts c c' := by
  refine drifts_of (fun c c' hc hquiet => ?_) (askAll_asks h) hquiet
  cases hc with
  | works hworks => exact hworks.drifts hquiet
  | asks i => exact hask c i hquiet

lemma inspect_drifts {α : Type} (look : Host → α) (c : Cluster) (i : Nat) (hquiet : c.Quiet) :
    Drifts c (inspect look c i).1 :=
  (alone_of_moves (c.catchUp_moves i) hquiet).drifts

lemma openConnections_drifts {hosts : List Nat}
    {answers : List (Option (Except PluginError Unit))} (hquiet : c.Quiet)
    (h : c.openConnections hosts = some (c', answers)) : Drifts c c' := by
  obtain ⟨⟨c₁, durations⟩, hask, h⟩ := Option.bind_eq_some_iff.mp h
  obtain ⟨c₂, hsleep, h⟩ := Option.bind_eq_some_iff.mp h
  cases h
  have hfirst := askAll_drifts (inspect_drifts hostConnect) hquiet hask
  exact hfirst.trans (sleep_drifts hfirst.quiet hsleep)

end Cluster

end LoadEngine
