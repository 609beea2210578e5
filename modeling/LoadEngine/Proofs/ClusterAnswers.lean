import LoadEngine.Proofs.ClusterCourse

/-! A question to all nodes of a cluster. The nodes are asked one after the other, where a fleet
asks all at once; since a node that has not been asked stands still meanwhile, it makes no
difference. A node is asked behind everything that it was sent, so it has answered when it has
caught up, unless it is down. -/

namespace LoadEngine

namespace Inquiry

def put (q : Inquiry) (i : Nat) (answer : Option PhaseSnapshot) : Inquiry :=
  { q with answers := q.answers.set i answer }

variable {q : Inquiry} {i : Nat}

lemma put_none (h : q.answers[i]? = some none) : q.put i none = q := by
  obtain ⟨hlt, hget⟩ := List.getElem?_eq_some_iff.mp h
  simp only [put, ← hget, List.set_getElem_self]

end Inquiry

namespace Cluster

variable {c c' : Cluster} {i index : Nat} {reset : Bool} {answer : Option PhaseSnapshot}

structure Answered (i : Nat) (c c' : Cluster) (answer : Option PhaseSnapshot) : Prop where
  length : c'.nodes.length = c.nodes.length
  others : ∀ j, i ≠ j → c'.nodes[j]? = c.nodes[j]?
  node : ∃ node, c'.nodes[i]? = some node ∧ questions node.commands = [] ∧
    (answer = none → node.running = false)
  course : ∀ (controller : Controller) (edit : Nat → Node → Node) (q : Inquiry), edit i = id →
    q.answers[i]? = some none →
      (c.fleet controller edit (some q)).Course false
        (c'.fleet controller edit (some (q.put i answer)))

lemma exists_host {node : Node} (h : c.nodes[i]? = some node) :
    ∃ host, c.hosts[i]? = some host ∧ host.node = node := by
  rw [nodes, List.getElem?_map] at h
  exact Option.map_eq_some_iff.mp h

lemma command?_of_down {node : Node} (h : c.nodes[i]? = some node) (hdown : node.running = false) :
    c.command? i = none := by
  obtain ⟨host, hh, rfl⟩ := exists_host h
  have hnone : host.node.command? c.time = none := by
    unfold Node.command?
    rw [hdown]
  simp only [command?, hh, hnone, Option.bind_eq_bind, Option.bind_some, Option.bind_none]

lemma step?_of_down {node : Node} (h : c.nodes[i]? = some node) (hdown : node.running = false) :
    c.step? i = none := by
  obtain ⟨host, hh, rfl⟩ := exists_host h
  have hnone : host.node.step? c.time = none := by
    simp [Node.step?, Node.command?, Node.event?, Node.timers?, hdown]
  simp only [step?, hh, hnone, Option.bind_eq_bind, Option.bind_some, Option.bind_none]

lemma command?_advanced {node : Node} {command : Command} {rest : List Command}
    (h : c.nodes[i]? = some node) (hcommands : node.commands = command :: rest)
    (hrunning : node.running = true) :
    ∃ node' outputs told c₁, c.command? i = some c₁ ∧
      node.Acts c.time (.command command) node' outputs ∧ c.Advanced i node' outputs told c₁ := by
  obtain ⟨host, hh, rfl⟩ := exists_host h
  have hsome : ∃ out, host.node.command? c.time = some out := by
    unfold Node.command?
    rw [hrunning, hcommands]
    cases command <;> exact ⟨_, rfl⟩
  obtain ⟨⟨node', outputs⟩, hcommand⟩ := hsome
  obtain ⟨command', hhead, hacts, hmoves⟩ := Node.command?_moves hcommand
  rw [hcommands, List.head?_cons, Option.some.injEq] at hhead
  subst hhead
  obtain ⟨told, hadvanced⟩ := advanceTo_advanced hh hmoves
  refine ⟨node', outputs, told, _, ?_, hacts, hadvanced⟩
  simp only [command?, hh, hcommand, Option.bind_eq_bind, Option.bind_some]

lemma Advanced.next {node node' : Node} {now : Nanos} {command : Command} {rest : List Command}
    {outputs told : List Output} (h : c.Advanced i node' outputs told c')
    (hacts : node.Acts now (.command command) node' outputs)
    (hcommands : node.commands = command :: rest) :
    ∃ final, c'.nodes = c.nodes.set i final ∧
      (final.commands = [] ∧ final.running = false ∨
        told = outputs ∧ final.commands = rest ∧ final.running = true) := by
  obtain ⟨final, hfinal, hcases⟩ := h.final
  refine ⟨final, hfinal, ?_⟩
  obtain hdown | ⟨hall, hsame, hup⟩ := hcases
  · exact .inl hdown
  · rw [hsame, hup]
    obtain ⟨rest', hqueue, ⟨hleft, hon⟩ | hoff⟩ := hacts.queue
    · rw [hcommands] at hqueue
      exact .inr ⟨hall, hleft.trans (List.cons.inj hqueue).2.symm, hon⟩
    · exact .inl hoff

lemma Answered.of_set {final : Node} (hlt : i < c.nodes.length)
    (hfinal : c'.nodes = c.nodes.set i final) (hcommands : final.commands = [])
    (hdown : answer = none → final.running = false)
    (hcourse : ∀ (controller : Controller) (edit : Nat → Node → Node) (q : Inquiry), edit i = id →
      q.answers[i]? = some none → (c.fleet controller edit (some q)).Course false
        (c'.fleet controller edit (some (q.put i answer)))) : Answered i c c' answer where
  length := by rw [hfinal, List.length_set]
  others j hj := by rw [hfinal, List.getElem?_set_ne hj]
  node := ⟨final, by rw [hfinal, List.getElem?_set_self hlt], by rw [hcommands]; rfl, hdown⟩
  course := hcourse

lemma command?_collect {node : Node} (h : c.nodes[i]? = some node)
    (hcommands : node.commands = [.collect index reset]) (hrunning : node.running = true)
    (hreplies : c.replies = []) :
    ∃ c₁ answer, c.command? i = some c₁ ∧ c₁.replies = Option.toList answer ∧
      Answered i c c₁ answer := by
  have hlt := (List.getElem?_eq_some_iff.mp h).1
  obtain ⟨node', outputs, told, c₁, hcommand, hacts, hadvanced⟩ :=
    command?_advanced h hcommands hrunning
  have houtputs : outputs = [.snapshot index (node.shard.collect index reset).2] := hacts.told
  obtain ⟨final, hfinal, hcases⟩ := hadvanced.next hacts hcommands
  have hdone : final.commands = [] := hcases.elim And.left fun h => h.2.1
  have hreply := hadvanced.replies
  rw [hreplies, List.nil_append] at hreply
  have hfront := hadvanced.front
  rw [houtputs, List.prefix_cons_iff] at hfront
  -- `Advanced` only says that some front of the outputs was passed on.
  obtain rfl | ⟨told', rfl, hempty⟩ := hfront
  · have hdown : final.running = false := by
      obtain ⟨-, hdown⟩ | ⟨hall, -⟩ := hcases
      · exact hdown
      · rw [houtputs] at hall
        cases hall
    refine ⟨c₁, none, hcommand, hreply, .of_set hlt hfinal hdone (fun _ => hdown) ?_⟩
    intro controller edit q hedit hq
    rw [Inquiry.put_none hq]
    exact hadvanced.course controller edit (some q) hedit
  · obtain rfl := List.prefix_nil.mp hempty
    refine ⟨c₁, some (node.shard.collect index reset).2, hcommand, hreply,
      .of_set hlt hfinal hdone (fun hnone => by cases hnone)
        fun controller edit q hedit _ => ?_⟩
    exact hadvanced.course controller edit (some q) hedit

lemma command?_other {node : Node} {command : Command} {rest : List Command}
    (h : c.nodes[i]? = some node) (hcommands : node.commands = command :: rest)
    (hunasked : questions [command] = []) (hrunning : node.running = true) :
    ∃ c₁ final, c.command? i = some c₁ ∧ c₁.replies = c.replies ∧
      c₁.nodes = c.nodes.set i final ∧
      (final.commands = [] ∧ final.running = false ∨
        final.commands = rest ∧ final.running = true) ∧
      ∀ (controller : Controller) (edit : Nat → Node → Node) (q : Option Inquiry), edit i = id →
        (c.fleet controller edit q).Course false (c₁.fleet controller edit q) := by
  obtain ⟨node', outputs, told, c₁, hcommand, hacts, hadvanced⟩ :=
    command?_advanced h hcommands hrunning
  have hsilent : Silent outputs := silent_of_acts hacts fun phase reset hdeed => by
    cases hdeed
    cases hunasked
  obtain ⟨hreplies, hhear⟩ := hadvanced.silent hsilent
  obtain ⟨final, hfinal, hcases⟩ := hadvanced.next hacts hcommands
  refine ⟨c₁, final, hcommand, hreplies, hfinal, hcases.imp_right And.right, ?_⟩
  intro controller edit q hedit
  have hcourse := hadvanced.course controller edit q hedit
  simpa only [hhear, Option.map_id'] using hcourse

lemma handleCommands_answered {commands : List Command} {node : Node}
    (h : c.nodes[i]? = some node) (hcommands : node.commands = commands ++ [.collect index reset])
    (hunasked : questions commands = []) (hrunning : node.running = true)
    (hreplies : c.replies = []) :
    ∃ answer : Option PhaseSnapshot,
      (handleCommands i (commands.length + 1) c).replies = answer.toList ∧
        Answered i c (handleCommands i (commands.length + 1) c) answer := by
  induction commands generalizing c node with
  | nil =>
    obtain ⟨c₁, answer, hcommand, hanswer⟩ := command?_collect h hcommands hrunning hreplies
    rw [List.length_nil, handleCommands_some hcommand]
    exact ⟨answer, hanswer⟩
  | cons command rest ih =>
    have hlt := (List.getElem?_eq_some_iff.mp h).1
    rw [← List.singleton_append, questions_append, List.append_eq_nil_iff] at hunasked
    obtain ⟨c₁, final, hcommand, hreply, hfinal, hgoes, hcourse⟩ :=
      command?_other h hcommands hunasked.1 hrunning
    have hnode : c₁.nodes[i]? = some final := by rw [hfinal, List.getElem?_set_self hlt]
    rw [hreplies] at hreply
    rw [List.length_cons, handleCommands_some hcommand]
    obtain ⟨hnone, hdown⟩ | ⟨hleft, hon⟩ := hgoes
    · rw [handleCommands_none (command?_of_down hnode hdown)]
      refine ⟨none, hreply, .of_set hlt hfinal hnone (fun _ => hdown) ?_⟩
      intro controller edit q hedit hq
      rw [Inquiry.put_none hq]
      exact hcourse controller edit (some q) hedit
    · obtain ⟨answer, hanswer, hlater⟩ := ih hnode hleft hunasked.2 hon hreply
      refine ⟨answer, hanswer, ?_, fun j hj => ?_, hlater.node, ?_⟩
      · rw [hlater.length, hfinal, List.length_set]
      · rw [hlater.others j hj, hfinal, List.getElem?_set_ne hj]
      · intro controller edit q hedit hq
        have hfirst := hcourse controller edit (some q) hedit
        exact hfirst.trans (hlater.course controller edit q hedit hq)

lemma send_some {command : Command} (h : c.send i command = some c') :
    ∃ node, c.nodes[i]? = some node ∧ node.running = true ∧
      c'.nodes = c.nodes.set i { node with commands := node.commands ++ [command] } ∧
      c'.notices = c.notices ∧ c'.replies = c.replies := by
  obtain ⟨host, hh, h⟩ := Option.bind_eq_some_iff.mp h
  obtain ⟨node, hsend, h⟩ := Option.bind_eq_some_iff.mp h
  cases h
  unfold Node.send at hsend
  split at hsend
  · rename_i hrunning
    cases hsend
    refine ⟨host.node, ?_, hrunning, c.nodes_setHost i _, rfl, rfl⟩
    rw [nodes, List.getElem?_map, hh]
    rfl
  · cases hsend

lemma send_none {command : Command} (h : c.send i command = none) {node : Node}
    (hnode : c.nodes[i]? = some node) : node.running = false := by
  obtain ⟨host, hh, rfl⟩ := exists_host hnode
  cases hrunning : host.node.running with
  | false => rfl
  | true => simp [send, hh, Node.send, hrunning] at h

/-- The nodes up to some place have been asked in the cluster, all of them in the fleet. -/
def asking (index : Nat) (reset : Bool) (upTo : Nat) (i : Nat) (node : Node) : Node :=
  if i < upTo then node else (node.send (.collect index reset)).getD node

lemma asking_before {upTo : Nat} (h : i < upTo) : asking index reset upTo i = id :=
  funext fun _ => if_pos h

lemma fleet_asking {node node' : Node} (hnode : c.nodes[i]? = some node)
    (hasked : (node.send (.collect index reset)).getD node = node')
    (hnodes : c'.nodes = c.nodes.set i node') (hnotices : c'.notices = c.notices)
    (controller : Controller) (q : Option Inquiry) :
    c'.fleet controller (asking index reset (i + 1)) q =
      c.fleet controller (asking index reset i) q := by
  rw [fleet, fleet, hnotices, hnodes]
  refine congrArg (fun nodes => Fleet.mk controller nodes c.notices q) ?_
  refine List.ext_getElem? fun j => ?_
  rw [List.getElem?_mapIdx, List.getElem?_mapIdx, List.getElem?_set]
  by_cases hj : i = j
  · subst hj
    rw [if_pos rfl, if_pos (List.getElem?_eq_some_iff.mp hnode).1, hnode]
    simp [asking, hasked]
  · rw [if_neg hj]
    have hlt : j < i + 1 ↔ j < i := by omega
    cases c.nodes[j]? with
    | none => rfl
    | some other => simp [asking, hlt]

lemma collect_answered (hquiet : c.Quiet) (hlt : i < c.nodes.length)
    (h : collect index reset c i = (c', answer)) :
    c'.Quiet ∧ c'.nodes.length = c.nodes.length ∧ (∀ j, i ≠ j → c'.nodes[j]? = c.nodes[j]?) ∧
      (answer = none → ∃ node, c'.nodes[i]? = some node ∧ node.running = false) ∧
      ∀ (controller : Controller) (q : Inquiry), q.answers[i]? = some none →
        (c.fleet controller (asking index reset i) (some q)).Course false
          (c'.fleet controller (asking index reset (i + 1)) (some (q.put i answer))) := by
  obtain ⟨node, hnode⟩ : ∃ node, c.nodes[i]? = some node := ⟨_, List.getElem?_eq_getElem hlt⟩
  unfold collect at h
  cases hsend : c.send i (.collect index reset) with
  | none =>
    rw [hsend] at h
    cases h
    have hdown := send_none hsend hnode
    refine ⟨hquiet, rfl, fun _ _ => rfl, fun _ => ⟨node, hnode, hdown⟩, fun controller q hq => ?_⟩
    have hset : c.nodes = c.nodes.set i node := by
      obtain ⟨hlt, rfl⟩ := List.getElem?_eq_some_iff.mp hnode
      exact (List.set_getElem_self hlt).symm
    rw [Inquiry.put_none hq, fleet_asking hnode (by simp [Node.send, hdown]) hset rfl]
    exact .refl
  | some c₁ =>
    rw [hsend] at h
    obtain ⟨node', hnode', hrunning, hnodes, hnotices, hreplies⟩ := send_some hsend
    rw [hnode, Option.some.injEq] at hnode'
    subst hnode'
    have hnode₁ : c₁.nodes[i]? =
        some { node with commands := node.commands ++ [.collect index reset] } := by
      rw [hnodes, List.getElem?_set_self hlt]
    obtain ⟨host, hh, hhost⟩ := exists_host hnode₁
    have hlength : host.node.commands.length = node.commands.length + 1 := by
      rw [hhost, List.length_append]
      rfl
    have hcatch : c₁.catchUp i = handleCommands i (node.commands.length + 1) c₁ := by
      simp only [catchUp, hh, hlength]
    obtain ⟨answer', hanswer, hanswered⟩ := handleCommands_answered hnode₁ rfl
      (hquiet.unasked node (List.mem_of_getElem? hnode)) hrunning (hreplies.trans hquiet.replies)
    simp only [hcatch, hanswer, Prod.mk.injEq] at h
    obtain ⟨rfl, hlast⟩ := h
    have hsame : answer' = answer := by
      cases answer' with
      | none => exact hlast
      | some snapshot => exact hlast
    subst hsame
    have hothers (j : Nat) (hj : i ≠ j) :
        (handleCommands i (node.commands.length + 1) c₁).nodes[j]? = c.nodes[j]? := by
      rw [hanswered.others j hj, hnodes, List.getElem?_set_ne hj]
    obtain ⟨final, hfinal, hunasked, hdown⟩ := hanswered.node
    refine ⟨⟨rfl, fun n hn => ?_⟩, ?_, hothers, fun hnone => ⟨final, hfinal, hdown hnone⟩, ?_⟩
    · obtain ⟨j, hj⟩ := List.mem_iff_getElem?.mp hn
      by_cases hij : i = j
      · subst hij
        obtain rfl := Option.some.inj (hj.symm.trans hfinal)
        exact hunasked
      · exact hquiet.unasked n (List.mem_of_getElem? ((hothers j hij).symm.trans hj))
    · exact hanswered.length.trans (by rw [hnodes, List.length_set])
    · intro controller q hq
      rw [← fleet_asking hnode (by simp [Node.send, hrunning]) hnodes hnotices]
      exact hanswered.course controller _ q (asking_before (Nat.lt_succ_self i)) hq

lemma askAll_answered {more k : Nat} {answers : List (Option PhaseSnapshot)}
    (hquiet : c.Quiet) (hlength : k + more = c.nodes.length)
    (h : askAll (collect index reset) c (List.range' k more) = some (c', answers))
    (before : List (Option PhaseSnapshot)) (hbefore : before.length = k) :
    c'.Quiet ∧ c'.nodes.length = c.nodes.length ∧ (∀ j < k, c'.nodes[j]? = c.nodes[j]?) ∧
      answers.length = more ∧
      (∀ j, answers[j]? = some none → ∃ node, c'.nodes[k + j]? = some node ∧
        node.running = false) ∧
      ∀ controller : Controller,
        (c.fleet controller (asking index reset k)
            (some ⟨index, reset, before ++ List.replicate more none⟩)).Course false
          (c'.fleet controller (asking index reset (k + more))
            (some ⟨index, reset, before ++ answers⟩)) := by
  -- The nodes below `k` have been asked and have answered; the others have the question only in
  -- the fleet, which asks all at once.
  induction more generalizing c k answers before with
  | zero =>
    cases h
    exact ⟨hquiet, rfl, fun _ _ => rfl, rfl, nofun, fun _ => .refl⟩
  | succ more ih =>
    rw [List.range'_succ, askAll_cons] at h
    obtain ⟨c₂, hsettle, h⟩ := Option.bind_eq_some_iff.mp h
    obtain ⟨⟨c₃, rest⟩, hrest, h⟩ := Option.bind_eq_some_iff.mp h
    cases h
    obtain ⟨c₁, answer, hcollect⟩ : ∃ c₁ answer, collect index reset c k = (c₁, answer) :=
      ⟨_, _, rfl⟩
    rw [hcollect] at hsettle ⊢
    obtain ⟨hquiet₁, hlength₁, hothers₁, hdown₁, hcourse₁⟩ :=
      collect_answered hquiet (by omega) hcollect
    have halone := alone_of_moves (settleHost_moves hsettle) hquiet₁
    obtain ⟨hquiet₂, hlength₂, hkept, hsize, hdown, hcourse⟩ := ih (k := k + 1) halone.quiet
      (by rw [halone.length, hlength₁]; omega) hrest (before ++ [answer]) (by simp [hbefore])
    refine ⟨hquiet₂, hlength₂.trans (halone.length.trans hlength₁), fun j hj => ?_, ?_, ?_, ?_⟩
    · rw [hkept j (by omega), halone.others j (by omega), hothers₁ j (by omega)]
    · simp [hsize]
    · intro j hj
      cases j with
      | zero =>
        obtain ⟨node, hnode, hoff⟩ := hdown₁ (by simpa using hj)
        rw [settleHost_none (step?_of_down hnode hoff)] at hsettle
        cases hsettle
        exact ⟨node, (hkept k (Nat.lt_succ_self k)).trans hnode, hoff⟩
      | succ j =>
        obtain ⟨node, hnode, hoff⟩ := hdown j (by simpa using hj)
        exact ⟨node, by rwa [Nat.add_right_comm] at hnode, hoff⟩
    · intro controller
      have hopen : (before ++ List.replicate (more + 1) none)[k]? =
          some (none : Option PhaseSnapshot) := by
        rw [← hbefore, List.getElem?_append_right le_rfl, Nat.sub_self]
        rfl
      have hput : Inquiry.put ⟨index, reset, before ++ List.replicate (more + 1) none⟩ k answer =
          ⟨index, reset, before ++ [answer] ++ List.replicate more none⟩ := by
        rw [Inquiry.put, ← hbefore, List.set_append_right _ _ le_rfl, Nat.sub_self,
          List.replicate_succ, List.set_cons_zero, List.append_assoc]
        rfl
      have hfirst := hcourse₁ controller
        ⟨index, reset, before ++ List.replicate (more + 1) none⟩ hopen
      rw [hput] at hfirst
      have hstill : asking index reset (k + 1) k = id := asking_before (Nat.lt_succ_self k)
      have hsecond := halone.course controller _
        (some ⟨index, reset, before ++ [answer] ++ List.replicate more none⟩) hstill
      have hlast := (hfirst.trans hsecond).trans (hcourse controller)
      rw [List.append_assoc, Nat.add_right_comm] at hlast
      exact hlast

end Cluster

end LoadEngine
