import LoadEngine.Proofs.ForcedEnd

/-! The moves of any fleet, whether or not contracts were broken and nodes are down. To a phase the
controller does one of few things in a move, and the starts that are sent are those that the phase
asked for; of what is sent each node that is up takes what comes before the first that cannot be
sent. -/

namespace LoadEngine

def Notice.phase? : Notice → Option Nat
  | started index _ _ _ | ended index _ _ => some index
  | fault _ _ => none

def startsOf (index : Nat) (sent : List Dispatch) : Starts :=
  sent.filterMap fun d =>
    match d.2 with
    | .start phase count => if phase = index then some (d.1, count) else none
    | _ => none

lemma startsOf_dispatches (index phase : Nat) (starts : Starts) :
    startsOf index (Controller.dispatches phase starts) = if phase = index then starts else [] := by
  rw [startsOf, Controller.dispatches, List.filterMap_map]
  split
  · rename_i hp
    refine (List.filterMap_congr fun s _ => ?_).trans List.filterMap_some
    simp [hp]
  · rename_i hp
    refine List.filterMap_eq_nil_iff.mpr fun s _ => ?_
    simp [hp]

lemma startsOf_everyone {c : Command} (index nodes : Nat)
    (hc : ∀ phase count, c ≠ .start phase count) : startsOf index (everyone nodes c) = [] := by
  refine List.filterMap_eq_nil_iff.mpr fun d hd => ?_
  rw [(mem_everyone.mp hd).2]
  cases c with
  | start phase count => exact absurd rfl (hc phase count)
  | _ => rfl

namespace PhaseRun

inductive Acts (p : PhaseRun) (index : Nat) : Option Notice → Starts → PhaseRun → Prop
  | rests {heard : Option Notice} (h : ∀ n ∈ heard, n.phase? ≠ some index) : Acts p index heard [] p
  | starts {now : Nanos} {p' : PhaseRun} {starts : Starts} (h : p.start now = .ok (p', starts)) :
      Acts p index none starts p'
  | ticks (now : Nanos) : Acts p index none (p.tick now).2 (p.tick now).1
  | finishes {now : Nanos} {p' : PhaseRun} (h : p.finish now = .ok p') : Acts p index none [] p'
  | closes (now : Nanos) : Acts p index none [] (p.beginTermination now).1
  | hears (shard started blocked : Nat) :
      Acts p index (some (.started index shard started blocked)) [] (p.onStarted started blocked)
  | replaces (shard : Nat) (how : SessionEnd) (now : Nanos) :
      Acts p index (some (.ended index shard how)) (p.onEnded shard how now).2
        (p.onEnded shard how now).1

variable {p p' : PhaseRun} {index : Nat} {heard : Option Notice} {starts : Starts} {now : Nanos}

@[simp] lemma finishIfDone_maxUsed (p : PhaseRun) (now : Nanos) :
    (p.finishIfDone now).maxUsed = p.maxUsed := by
  rcases p.finishIfDone_eq now with h | ⟨-, -, h⟩ <;> rw [h]

@[simp] lemma finishIfDone_counters (p : PhaseRun) (now : Nanos) :
    (p.finishIfDone now).counters = p.counters := by
  rcases p.finishIfDone_eq now with h | ⟨-, -, h⟩ <;> rw [h]

@[simp] lemma finishIfDone_inFlight (p : PhaseRun) (now : Nanos) :
    (p.finishIfDone now).inFlight = p.inFlight := by
  rcases p.finishIfDone_eq now with h | ⟨-, -, h⟩ <;> rw [h]

@[simp] lemma finishIfDone_throttled (p : PhaseRun) (now : Nanos) :
    (p.finishIfDone now).throttled = p.throttled := by
  rcases p.finishIfDone_eq now with h | ⟨-, -, h⟩ <;> rw [h]

lemma beginTermination_eq (p : PhaseRun) (now : Nanos) :
    ∃ endedAt status, (p.beginTermination now).1 = { p with endedAt, status } := by
  unfold beginTermination
  cases p.status with
  | notStarted => exact ⟨p.endedAt, .terminated, rfl⟩
  | running | finished => exact ⟨_, .terminating, rfl⟩
  | terminating | terminated => exact ⟨p.endedAt, p.status, rfl⟩

lemma beginTermination_not_running (p : PhaseRun) (now : Nanos) :
    (p.beginTermination now).1.status ≠ .running := by
  unfold beginTermination
  cases hp : p.status with
  | notStarted | running | finished => exact nofun
  | terminating | terminated =>
    simp only [hp]
    exact nofun

lemma finishIfDone_running (h : (p.finishIfDone now).status = .running) :
    p.finishIfDone now = p ∧ p.status = .running ∧ p.iterationsLeft ≠ some 0 := by
  unfold finishIfDone at h ⊢
  split at h
  · cases h
  · rename_i hdone
    have hnot : p.isDone now = false := Bool.eq_false_iff.mpr fun hd => hdone ⟨h, hd⟩
    refine ⟨if_neg hdone, h, fun hleft => ?_⟩
    unfold isDone at hnot
    rw [hleft] at hnot
    cases hs : p.phase.strategy <;> rw [hs] at hnot <;> simp at hnot

lemma grant_le_count (p : PhaseRun) (count : Nat) : p.grant count ≤ count := by
  unfold grant
  split
  · exact Nat.min_le_left _ _
  · exact le_rfl

lemma grant_pos {count : Nat} (hleft : p.iterationsLeft ≠ some 0) (hcount : 0 < count) :
    0 < p.grant count := by
  unfold grant
  cases hl : p.iterationsLeft with
  | none => exact hcount
  | some left =>
    refine lt_min hcount (Nat.pos_of_ne_zero ?_)
    rintro rfl
    exact hleft hl

lemma issueOn_of_left {shard : Nat} (hleft : p.iterationsLeft ≠ some 0)
    (hroom : 0 < p.shareOf shard) :
    p.issueOn shard 1 = ({ p with inFlight := p.inFlight + 1 }, [(shard, 1)]) := by
  have hgrant : p.grant 1 = 1 := Nat.le_antisymm (p.grant_le_count 1) (p.grant_pos hleft one_pos)
  simp only [issueOn, hgrant]
  exact if_neg (not_or.mpr ⟨one_ne_zero, hroom.ne'⟩)

lemma Acts.kept (h : p.Acts index heard starts p') :
    p'.phase = p.phase ∧ p'.shares = p.shares ∧ p'.maxUsed = p.maxUsed := by
  cases h with
  | rests => exact ⟨rfl, rfl, rfl⟩
  | starts h =>
    obtain ⟨-, rfl, -⟩ := start_eq_ok h
    obtain ⟨n, m, hi⟩ := issue_eq { p with startedAt := some _, status := .running }
      p.initialStarts
    rw [hi]
    simp
  | ticks now =>
    by_cases hp : p.status = .running
    · cases hc : p.phase.arrivals with
      | none => simp [tick, hp, hc]
      | some curve =>
        obtain ⟨n, m, hs⟩ := p.startOwed_eq (curve.arrived (p.elapsed now))
        simp [tick_of_arrivals hp hc, hs]
    · simp [tick, hp]
  | finishes h =>
    obtain rfl | ⟨-, rfl⟩ := finish_eq_ok h
    · exact ⟨rfl, rfl, rfl⟩
    · exact ⟨rfl, rfl, rfl⟩
  | closes now =>
    obtain ⟨endedAt, status, he⟩ := p.beginTermination_eq now
    rw [he]
    exact ⟨rfl, rfl, rfl⟩
  | hears => exact ⟨rfl, rfl, rfl⟩
  | replaces shard how now =>
    by_cases hp : p.status = .running
    · obtain ⟨n, t, hr⟩ := onEnded_of_running hp shard how now
      simp [hr]
    · simp [onEnded, hp]

end PhaseRun

namespace Controller

variable {c c' : Controller} {index nodes : Nat} {p p' : PhaseRun} {sent : List Dispatch}
  {heard : Option Notice} {r : Controller × Except EngineError (List Dispatch)} {now : Nanos}

def sentOf (r : Controller × Except EngineError (List Dispatch)) : List Dispatch :=
  match r.2 with
  | .ok sent => sent
  | .error _ => []

lemma Returns.directs (h : c.Returns nodes r) : c.Directs r.1 nodes (sentOf r) := by
  cases h with
  | sends h => exact h
  | refuses h e => exact h

structure Governs (c : Controller) (heard : Option Notice) (sent : List Dispatch)
    (c' : Controller) : Prop where
  phases : ∀ (index : Nat) (p : PhaseRun), c.phases[index]? = some p →
    ∃ p', c'.phases[index]? = some p' ∧ p.Acts index heard (startsOf index sent) p'

lemma Governs.of_phases_eq (h : c'.phases = c.phases)
    (hheard : ∀ n ∈ heard, ∀ i, n.phase? = some i → c.phases[i]? = none) :
    c.Governs heard [] c' := by
  refine ⟨fun index p hp => ⟨p, h ▸ hp, .rests fun n hn hphase => ?_⟩⟩
  rw [hheard n hn index hphase] at hp
  cases hp

lemma Governs.of_set (hp : c.phases[index]? = some p) (hc : c'.phases = c.phases.set index p')
    (hheard : ∀ n ∈ heard, n.phase? = some index)
    (hsent : ∀ other, other ≠ index → startsOf other sent = [])
    (h : p.Acts index heard (startsOf index sent) p') : c.Governs heard sent c' := by
  refine ⟨fun other q hq => ?_⟩
  rw [hc, List.getElem?_set]
  by_cases hi : index = other
  · subst hi
    rw [hp, Option.some.injEq] at hq
    subst hq
    rw [if_pos rfl, if_pos (List.getElem?_eq_some_iff.mp hp).1]
    exact ⟨p', rfl, h⟩
  · rw [if_neg hi, hsent other (Ne.symm hi)]
    refine ⟨q, hq, .rests fun n hn hphase => hi ?_⟩
    rw [hheard n hn] at hphase
    exact Option.some.inj hphase

lemma Governs.of_starts {starts : Starts} (hp : c.phases[index]? = some p)
    (hc : c'.phases = c.phases.set index p') (hheard : ∀ n ∈ heard, n.phase? = some index)
    (h : p.Acts index heard starts p') : c.Governs heard (dispatches index starts) c' := by
  refine .of_set hp hc hheard ?_ ?_
  · intro other hother
    rw [startsOf_dispatches, if_neg hother.symm]
  · rw [startsOf_dispatches, if_pos rfl]
    exact h

lemma Governs.back (hg : c.Governs heard sent c') (hd : c.Directs c' nodes sent)
    (hp' : c'.phases[index]? = some p') :
    ∃ p, c.phases[index]? = some p ∧ p.Acts index heard (startsOf index sent) p' ∧
      p.Directed nodes index sent p' := by
  have hlt := (List.getElem?_eq_some_iff.mp hp').1
  rw [hd.length] at hlt
  have hp := List.getElem?_eq_getElem hlt
  obtain ⟨p'', hp'', hacts⟩ := hg.phases index _ hp
  rw [hp', Option.some.injEq] at hp''
  exact ⟨_, hp, hp'' ▸ hacts, hd.phases index _ p' hp hp'⟩

lemma start_governs (c : Controller) (index : Nat) (now : Nanos) :
    c.Governs none (sentOf (c.start index now)) (c.start index now).1 := by
  have hphases : (c.begin now).phases = c.phases := rfl
  unfold start
  cases hp : c.phases[index]? with
  | none =>
    simp only [hphases, hp]
    exact .of_phases_eq hphases nofun
  | some p =>
    simp only [hphases, hp]
    cases hs : p.start now with
    | error e => exact .of_phases_eq hphases nofun
    | ok out => exact .of_starts hp rfl nofun (.starts hs)

lemma startOnDemand_governs (c : Controller) (index : Nat) (now : Nanos) :
    c.Governs none (sentOf (c.startOnDemand index now)) (c.startOnDemand index now).1 := by
  unfold startOnDemand
  split
  · exact .of_phases_eq rfl nofun
  · split
    · exact c.start_governs index now
    · exact .of_phases_eq rfl nofun

lemma advance_governs (c : Controller) (index : Nat) (now : Nanos) :
    c.Governs none (sentOf (c.advance index now)) (c.advance index now).1 := by
  unfold advance
  cases hp : c.phases[index]? with
  | none => exact .of_phases_eq rfl nofun
  | some p =>
    cases hs : p.status with
    | notStarted =>
      simp only [hs]
      split
      · exact c.start_governs index now
      · exact .of_phases_eq rfl nofun
    | running =>
      simp only [hs]
      exact .of_starts hp rfl nofun (.ticks now)
    | finished | terminating | terminated =>
      simp only [hs]
      exact .of_phases_eq rfl nofun

lemma finish_governs (c : Controller) (index : Nat) (now : Nanos) :
    c.Governs none [] (c.finish index now).1 := by
  unfold finish
  cases hp : c.phases[index]? with
  | none => exact .of_phases_eq rfl nofun
  | some p =>
    simp only
    cases hf : p.finish now with
    | error e => exact .of_phases_eq rfl nofun
    | ok p' => exact .of_set hp rfl nofun (fun _ _ => rfl) (.finishes hf)

lemma terminate_governs (c : Controller) (index : Nat) (now : Nanos) (nodes : Nat) :
    c.Governs none (farewells nodes index (c.terminate index now).2) (c.terminate index now).1 := by
  have hsent (other : Nat) (tell : Bool) : startsOf other (farewells nodes index tell) = [] := by
    unfold farewells
    split
    · exact startsOf_everyone other nodes nofun
    · rfl
  unfold terminate
  cases hp : c.phases[index]? with
  | none => exact .of_phases_eq rfl nofun
  | some p =>
    simp only
    refine .of_set hp rfl nofun (fun other _ => hsent other _) ?_
    rw [hsent]
    exact .closes now

lemma onNotice_governs (c : Controller) (now : Nanos) (notice : Notice) :
    c.Governs (some notice) (sentOf (c.onNotice now notice)) (c.onNotice now notice).1 := by
  unfold onNotice
  cases notice with
  | started index shard started blocked =>
    cases hp : c.phases[index]? with
    | none =>
      simp only [hp]
      refine .of_phases_eq rfl fun n hn i hi => ?_
      cases hn
      cases hi
      exact hp
    | some p =>
      simp only [hp]
      refine .of_set hp rfl (fun n hn => ?_) (fun _ _ => rfl) (.hears shard started blocked)
      cases hn
      rfl
  | ended index shard how =>
    cases hp : c.phases[index]? with
    | none =>
      simp only [hp]
      refine .of_phases_eq rfl fun n hn i hi => ?_
      cases hn
      cases hi
      exact hp
    | some p =>
      simp only [hp]
      refine .of_starts hp rfl (fun n hn => ?_) (.replaces shard how now)
      cases hn
      rfl
  | fault shard cause =>
    refine .of_phases_eq rfl fun n hn i hi => ?_
    cases hn
    cases hi

end Controller

namespace Node

variable {n n' : Node} {now : Nanos} {deed : Deed} {outputs : List Output}

structure Acts (n : Node) (now : Nanos) (deed : Deed) (n' : Node) (outputs : List Output) :
    Prop where
  running : n.running = true
  shard : n'.shard = (n.shard.perform now deed).1
  told : outputs = (n.shard.perform now deed).2
  queue : ∃ rest, n.commands = deed.command?.toList ++ rest ∧
    (n'.commands = rest ∧ n'.running = true ∨ n'.commands = [] ∧ n'.running = false)
  serves : n.Orderly → Harmless outputs → n.Serves n' (noticesOf outputs)

lemma command?_acts (he : n.command? now = some (n', outputs)) :
    ∃ c, n.commands.head? = some c ∧ n.Acts now (.command c) n' outputs := by
  have hserves := fun horderly => command?_serves (n := n) horderly he
  obtain ⟨shard, commands, events, running⟩ := n
  cases running with
  | false => cases he
  | true =>
    cases commands with
    | nil => cases he
    | cons c rest =>
      refine ⟨c, rfl, ?_⟩
      cases c with
      | shutdown =>
        cases he
        exact ⟨rfl, rfl, rfl, ⟨rest, rfl, .inr ⟨rfl, rfl⟩⟩, hserves⟩
      | _ =>
        cases he
        exact ⟨rfl, rfl, rfl, ⟨rest, rfl, .inl ⟨rfl, rfl⟩⟩, hserves⟩

lemma event?_acts (he : n.event? now = some (n', outputs)) :
    ∃ e, n.events.head? = some e ∧ n.Acts now (.event e) n' outputs := by
  have hserves := fun horderly => event?_serves (n := n) horderly he
  obtain ⟨shard, commands, events, running⟩ := n
  cases running with
  | false => cases he
  | true =>
    cases events with
    | nil => cases he
    | cons e rest =>
      cases he
      exact ⟨e, rfl, rfl, rfl, rfl, ⟨commands, rfl, .inl ⟨rfl, rfl⟩⟩, hserves⟩

lemma timers?_acts (he : n.timers? now = some (n', outputs)) : n.Acts now .timers n' outputs := by
  have hserves := fun horderly => timers?_serves (n := n) horderly he
  unfold timers? at he
  split at he
  · rename_i hdue
    have hrunning := (Bool.and_eq_true_iff.mp hdue).1
    cases he
    exact ⟨hrunning, rfl, rfl, ⟨n.commands, rfl, .inl ⟨rfl, hrunning⟩⟩, hserves⟩
  · cases he

end Node

namespace Fleet

variable {f f' : Fleet} {m : Move} {outputs : List Output} {sent : List Dispatch} {i : Nat}

lemma send_eq_some {shard : Nat} {c : Command} (h : f.send shard c = some f') :
    ∃ node, f.nodes[shard]? = some node ∧ node.running = true ∧
      f' = { f with nodes := f.nodes.set shard (node.enqueue [c]) } := by
  obtain ⟨node, hnode, h⟩ := Option.bind_eq_some_iff.mp h
  obtain ⟨node', hsend, h⟩ := Option.bind_eq_some_iff.mp h
  unfold Node.send at hsend
  split at hsend
  · rename_i hrunning
    cases hsend
    cases h
    exact ⟨node, hnode, hrunning, rfl⟩
  · cases hsend

lemma dispatch_frame (f : Fleet) (sent : List Dispatch) :
    (f.dispatch sent).controller = f.controller ∧ (f.dispatch sent).notices = f.notices ∧
      (f.dispatch sent).inquiry = f.inquiry ∧
      (f.dispatch sent).nodes.length = f.nodes.length := by
  induction sent generalizing f with
  | nil => exact ⟨rfl, rfl, rfl, rfl⟩
  | cons d rest ih =>
    rw [dispatch_cons]
    cases hs : f.send d.1 d.2 with
    | none => exact ⟨rfl, rfl, rfl, rfl⟩
    | some f' =>
      obtain ⟨node, -, -, rfl⟩ := send_eq_some hs
      obtain ⟨hcontroller, hnotices, hinquiry, hlength⟩ := ih { f with
        nodes := f.nodes.set d.1 (node.enqueue [d.2]) }
      exact ⟨hcontroller, hnotices, hinquiry, hlength.trans List.length_set⟩

lemma dispatch_node {node : Node} (h : f.nodes[i]? = some node) (sent : List Dispatch) :
    ∃ extra, extra <+: sentTo i sent ∧ (node.running = false → extra = []) ∧
      (f.dispatch sent).nodes[i]? = some (node.enqueue extra) := by
  have hsame : some node = some (node.enqueue []) := by simp [Node.enqueue]
  induction sent generalizing f node with
  | nil => exact ⟨[], List.nil_prefix, fun _ => rfl, h.trans hsame⟩
  | cons d rest ih =>
    rw [dispatch_cons]
    cases hs : f.send d.1 d.2 with
    | none => exact ⟨[], List.nil_prefix, fun _ => rfl, h.trans hsame⟩
    | some f' =>
      obtain ⟨target, htarget, hrunning, rfl⟩ := send_eq_some hs
      rw [sentTo_cons]
      by_cases hi : d.1 = i
      · subst hi
        rw [h, Option.some.injEq] at htarget
        subst htarget
        obtain ⟨extra, hfront, -, hnode⟩ := ih
          (f := { f with nodes := f.nodes.set d.1 (node.enqueue [d.2]) })
          (List.getElem?_set_self (List.getElem?_eq_some_iff.mp h).1) (by simp [Node.enqueue])
        refine ⟨d.2 :: extra, ?_, fun hdown => ?_, ?_⟩
        · rw [if_pos rfl]
          exact List.prefix_append_right_inj [d.2] |>.mpr hfront
        · rw [hrunning] at hdown
          cases hdown
        · rw [hnode]
          simp [Node.enqueue]
      · rw [if_neg hi]
        refine ih ?_ hsame
        exact (List.getElem?_set_ne hi).trans h

lemma dispatch_node_back {node' : Node} (h : (f.dispatch sent).nodes[i]? = some node') :
    ∃ node extra, f.nodes[i]? = some node ∧ extra <+: sentTo i sent ∧
      node' = node.enqueue extra := by
  have hlt := (List.getElem?_eq_some_iff.mp h).1
  rw [(f.dispatch_frame sent).2.2.2] at hlt
  obtain ⟨extra, hfront, -, hnode⟩ := dispatch_node (List.getElem?_eq_getElem hlt) sent
  rw [h, Option.some.injEq] at hnode
  exact ⟨_, extra, List.getElem?_eq_getElem hlt, hfront, hnode⟩

lemma ask_node_back {index : Nat} {reset : Bool} {node' : Node}
    (h : (f.ask index reset).nodes[i]? = some node') : ∃ node extra, f.nodes[i]? = some node ∧
      extra <+: [.collect index reset] ∧ node' = node.enqueue extra := by
  rw [ask_node] at h
  obtain ⟨node, hnode, rfl⟩ := Option.map_eq_some_iff.mp h
  refine ⟨node, _, hnode, ?_, rfl⟩
  split
  · exact List.prefix_refl _
  · exact List.nil_prefix

lemma follow_eq (f : Fleet) (r : Controller × Except EngineError (List Dispatch)) :
    f.follow r = { f with controller := r.1 }.dispatch (Controller.sentOf r) := by
  obtain ⟨c, sent | e⟩ := r <;> rfl

def deed? (f : Fleet) : Move → Option (Nat × Nanos × Deed)
  | .command shard now =>
    (f.nodes[shard]?.bind fun node => node.commands.head?).map fun c => (shard, now, .command c)
  | .event shard now =>
    (f.nodes[shard]?.bind fun node => node.events.head?).map fun e => (shard, now, .event e)
  | .timers shard now => some (shard, now, .timers)
  | _ => none

/-- What a move is, whatever state the fleet is in. -/
inductive Passes (f : Fleet) : Option (Nat × Nanos × Deed) → Fleet → List Output → Prop
  | governs {c : Controller} {heard : Option Notice} {rest : List Notice} {sent : List Dispatch}
      (hidle : f.inquiry = none) (hnotices : f.notices = heard.toList ++ rest)
      (hd : f.controller.Directs c f.nodes.length sent) (hg : f.controller.Governs heard sent c) :
      Passes f none ({ f with controller := c, notices := rest }.dispatch sent) []
  | asks {index : Nat} {reset : Bool} (hidle : f.inquiry = none)
      (hready : reset = true → f.controller.canTerminate index = true) :
      Passes f none (f.ask index reset) []
  | concludes {q : Inquiry} {sum : PhaseSnapshot} (hq : f.inquiry = some q)
      (hsum : q.sum? = some (.ok sum)) :
      Passes f none { f with
        controller := if q.reset then f.controller.complete q.index sum else f.controller
        inquiry := none } []
  | serves {shard : Nat} {now : Nanos} {deed : Deed} {node node' : Node} {outputs : List Output}
      (hnode : f.nodes[shard]? = some node) (h : node.Acts now deed node' outputs) :
      Passes f (some (shard, now, deed)) ⟨f.controller, f.nodes.set shard node',
        f.notices ++ noticesOf outputs, f.inquiry.map fun q => q.hear shard outputs⟩ outputs
  | delivers (shard : Nat) (events : List Event) :
      Passes f none { f with nodes := f.nodes.modify shard fun node => node.deliver events } []

lemma serve_eq_some {shard : Nat} {step : Node → Option (Node × List Output)}
    (he : f.serve shard step = some (f', outputs)) :
    ∃ node node', f.nodes[shard]? = some node ∧ step node = some (node', outputs) ∧
      f' = ⟨f.controller, f.nodes.set shard node', f.notices ++ noticesOf outputs,
        f.inquiry.map fun q => q.hear shard outputs⟩ := by
  obtain ⟨node, hnode, he⟩ := Option.bind_eq_some_iff.mp he
  obtain ⟨⟨node', outputs'⟩, hs, he⟩ := Option.bind_eq_some_iff.mp he
  cases he
  exact ⟨node, node', hnode, hs, rfl⟩

lemma Passes.unheard {c : Controller} {sent : List Dispatch} (hidle : f.inquiry = none)
    (hd : f.controller.Directs c f.nodes.length sent) (hg : f.controller.Governs none sent c) :
    Passes f none ({ f with controller := c }.dispatch sent) [] :=
  .governs hidle rfl hd hg

lemma follow_passes (heard : Option Notice) {rest : List Notice} {r} (hidle : f.inquiry = none)
    (hnotices : f.notices = heard.toList ++ rest) (hr : f.controller.Returns f.nodes.length r)
    (hg : f.controller.Governs heard (Controller.sentOf r) r.1) :
    Passes f none ({ f with notices := rest }.follow r) [] := by
  rw [follow_eq]
  exact .governs hidle hnotices hr.directs hg

section Delivery

variable {nodes : List Node} {shard i : Nat} {events : List Event}

lemma deliver_frame (node : Node) (events : List Event) :
    (node.deliver events).commands = node.commands ∧ (node.deliver events).shard = node.shard ∧
      (node.deliver events).running = node.running := by
  unfold Node.deliver
  split <;> exact ⟨rfl, rfl, rfl⟩

lemma deliver_node_back {node' : Node}
    (hnode' : (nodes.modify shard fun node => node.deliver events)[i]? = some node') :
    ∃ node, nodes[i]? = some node ∧ (node' = node ∨ node' = node.deliver events) := by
  rw [List.getElem?_modify] at hnode'
  obtain ⟨node, hnode, rfl⟩ := Option.map_eq_some_iff.mp hnode'
  refine ⟨node, hnode, ?_⟩
  split
  · exact .inr rfl
  · exact .inl rfl

lemma deliver_map {β : Type} {g : Node → β} (hg : ∀ node : Node, g (node.deliver events) = g node)
    (nodes : List Node) (shard i : Nat) :
    (nodes.modify shard fun node => node.deliver events)[i]?.map g = nodes[i]?.map g := by
  rw [List.getElem?_modify]
  cases nodes[i]? with
  | none => rfl
  | some node =>
    refine congrArg some ?_
    split
    · exact hg node
    · rfl

end Delivery

theorem move_passes (hm : f.move m = some (f', outputs)) : Passes f (f.deed? m) f' outputs := by
  cases m with
  | begin now =>
    obtain ⟨hidle, rfl, rfl⟩ := unlessAsking_eq_some hm
    have hphases : (f.controller.begin now).phases = f.controller.phases := rfl
    exact .unheard hidle (.of_phases_eq hphases _) (.of_phases_eq hphases nofun)
  | start index now =>
    obtain ⟨hidle, rfl, rfl⟩ := unlessAsking_eq_some hm
    exact follow_passes none hidle rfl (f.controller.startOnDemand_returns index now _)
      (f.controller.startOnDemand_governs index now)
  | advance index now =>
    obtain ⟨hidle, rfl, rfl⟩ := unlessAsking_eq_some hm
    exact follow_passes none hidle rfl (f.controller.advance_returns index now _)
      (f.controller.advance_governs index now)
  | finish index now =>
    obtain ⟨hidle, rfl, rfl⟩ := unlessAsking_eq_some hm
    exact .unheard hidle (f.controller.finish_directs index now _)
      (f.controller.finish_governs index now)
  | terminate index now =>
    simp only [Fleet.move] at hm
    obtain ⟨hidle, rfl, rfl⟩ := unlessAsking_eq_some hm
    have hd := f.controller.terminate_directs index now f.nodes.length
    have hg := f.controller.terminate_governs index now f.nodes.length
    have hstep := Passes.unheard hidle hd hg
    generalize f.controller.terminate index now = out at hstep ⊢
    obtain ⟨c, tell⟩ := out
    cases tell with
    | false => exact hstep
    | true => exact hstep
  | notice now =>
    simp only [Fleet.move] at hm
    split at hm
    · cases hm
    · rename_i n rest hn
      obtain ⟨hidle, rfl, rfl⟩ := unlessAsking_eq_some hm
      exact follow_passes (some n) hidle hn (f.controller.onNotice_returns now n _)
        (f.controller.onNotice_governs now n)
  | ask index reset =>
    simp only [Fleet.move] at hm
    split at hm
    · cases hm
    · rename_i hready
      obtain ⟨hidle, rfl, rfl⟩ := unlessAsking_eq_some hm
      refine .asks hidle fun hreset => ?_
      simpa [hreset] using hready
  | conclude =>
    obtain ⟨q, hq, hm⟩ := Option.bind_eq_some_iff.mp hm
    obtain ⟨sum, hsum, hm⟩ := Option.bind_eq_some_iff.mp hm
    cases sum with
    | error fault => cases hm
    | ok sum =>
      cases hm
      exact .concludes hq hsum
  | command shard now =>
    obtain ⟨node, node', hnode, hs, rfl⟩ := serve_eq_some hm
    obtain ⟨c, hhead, hacts⟩ := Node.command?_acts hs
    have hdeed : f.deed? (.command shard now) = some (shard, now, .command c) := by
      simp [deed?, hnode, hhead]
    rw [hdeed]
    exact .serves hnode hacts
  | event shard now =>
    obtain ⟨node, node', hnode, hs, rfl⟩ := serve_eq_some hm
    obtain ⟨e, hhead, hacts⟩ := Node.event?_acts hs
    have hdeed : f.deed? (.event shard now) = some (shard, now, .event e) := by
      simp [deed?, hnode, hhead]
    rw [hdeed]
    exact .serves hnode hacts
  | timers shard now =>
    obtain ⟨node, node', hnode, hs, rfl⟩ := serve_eq_some hm
    exact .serves hnode (Node.timers?_acts hs)
  | deliver shard events =>
    cases hm
    exact .delivers shard events

end Fleet

end LoadEngine
