import LoadEngine.Proofs.Fleet
import LoadEngine.Proofs.ShardDeeds

/-! A move of a fleet is one of few things. The controller sends commands, each behind what a node
was sent before; or it asks all nodes, or takes in their answers; or a node does what is next; or
events come in. -/

namespace LoadEngine

def PhaseStatus.isEnding : PhaseStatus → Bool
  | terminating | terminated => true
  | _ => false

def Command.concerns (index : Nat) : Command → Bool
  | start phase _ | terminate phase => phase == index
  | _ => false

def everyone (nodes : Nat) (c : Command) : List Dispatch :=
  (List.range nodes).map fun shard => (shard, c)

lemma mem_everyone {nodes : Nat} {c : Command} {d : Dispatch} :
    d ∈ everyone nodes c ↔ d.1 < nodes ∧ d.2 = c := by
  rw [everyone, List.mem_map]
  constructor
  · rintro ⟨shard, hshard, rfl⟩
    exact ⟨List.mem_range.mp hshard, rfl⟩
  · rintro ⟨hshard, rfl⟩
    exact ⟨d.1, List.mem_range.mpr hshard, rfl⟩

namespace PhaseRun

variable {p p' : PhaseRun} {starts : Starts} {now : Nanos}

structure Proceeds (p p' : PhaseRun) (starts : Starts) : Prop where
  phase : p'.phase = p.phase
  statistics : p'.statistics = p.statistics
  ending : p'.status.isEnding = p.status.isEnding
  kept : p.status.isEnding = true → p'.status = p.status ∧ starts = []
  unstarted : p'.status = .notStarted → p.status = .notStarted ∧ starts = []

lemma Proceeds.refl (p : PhaseRun) : Proceeds p p [] :=
  ⟨rfl, rfl, rfl, fun _ => ⟨rfl, rfl⟩, fun h => ⟨h, rfl⟩⟩

lemma Proceeds.of_running (hp : p.status = .running) (hphase : p'.phase = p.phase)
    (hstatistics : p'.statistics = p.statistics)
    (hstatus : p'.status = .running ∨ p'.status = .finished) (starts : Starts) :
    Proceeds p p' starts := by
  refine ⟨hphase, hstatistics, ?_, ?_, ?_⟩
  · rw [hp]
    rcases hstatus with h | h
    · rw [h]
    · rw [h]
      rfl
  · rw [hp]
    exact nofun
  · intro h
    rcases hstatus with h' | h' <;> rw [h'] at h <;> cases h

lemma finishIfDone_status (h : p.status = .running) (now : Nanos) :
    (p.finishIfDone now).phase = p.phase ∧ (p.finishIfDone now).statistics = p.statistics ∧
      ((p.finishIfDone now).status = .running ∨ (p.finishIfDone now).status = .finished) := by
  rcases p.finishIfDone_eq now with he | ⟨-, -, he⟩
  · rw [he]
    exact ⟨rfl, rfl, .inl h⟩
  · rw [he]
    exact ⟨rfl, rfl, .inr rfl⟩

lemma start_proceeds (h : p.start now = .ok (p', starts)) : Proceeds p p' starts := by
  unfold start at h
  split at h
  · rename_i hp
    injection h with h
    injection h with hp' hstarts
    obtain ⟨n, m, hi⟩ := issue_eq { p with startedAt := some now, status := .running }
      (initialStarts { p with startedAt := some now, status := .running })
    have he : finishIfDone { p with
        startedAt := some now, status := .running, inFlight := n, cursor := m } now = p' :=
      (congrArg (finishIfDone · now) hi).symm.trans hp'
    obtain ⟨hphase, hstatistics, hstatus⟩ := finishIfDone_status (p := { p with
      startedAt := some now, status := .running, inFlight := n, cursor := m }) rfl now
    rw [he] at hphase hstatistics hstatus
    refine ⟨hphase, hstatistics, ?_, ?_, ?_⟩
    · rw [hp]
      rcases hstatus with h | h <;> rw [h] <;> rfl
    · rw [hp]
      exact nofun
    · intro h
      rcases hstatus with h' | h' <;> rw [h'] at h <;> cases h
  · cases h

lemma tick_proceeds (p : PhaseRun) (now : Nanos) :
    Proceeds p (p.tick now).1 (p.tick now).2 := by
  by_cases hp : p.status = .running
  · cases hc : p.phase.arrivals with
    | none =>
      have he : p.tick now = (p.finishIfDone now, []) := by simp only [tick, hp, if_true, hc]
      obtain ⟨hphase, hstatistics, hstatus⟩ := finishIfDone_status hp now
      rw [he]
      exact .of_running hp hphase hstatistics hstatus []
    | some curve =>
      obtain ⟨n, m, hs⟩ := p.startOwed_eq (curve.arrived (p.elapsed now))
      rw [tick_of_arrivals hp hc, hs]
      obtain ⟨hphase, hstatistics, hstatus⟩ := finishIfDone_status (p := { p with
        accounted := max p.accounted (curve.arrived (p.elapsed now)), inFlight := n
        cursor := m }) hp now
      exact .of_running hp hphase hstatistics hstatus _
  · have he : p.tick now = (p, []) := by simp only [tick, if_neg hp]
    rw [he]
    exact .refl p

lemma onStarted_proceeds (p : PhaseRun) (started blocked : Nat) :
    Proceeds p (p.onStarted started blocked) [] :=
  ⟨rfl, rfl, rfl, fun _ => ⟨rfl, rfl⟩, fun h => ⟨h, rfl⟩⟩

lemma onEnded_proceeds (p : PhaseRun) (shard : Nat) (how : SessionEnd) (now : Nanos) :
    Proceeds p (p.onEnded shard how now).1 (p.onEnded shard how now).2 := by
  by_cases hp : p.status = .running
  · obtain ⟨n, t, hr⟩ := onEnded_of_running hp shard how now
    obtain ⟨hphase, hstatistics, hstatus⟩ := finishIfDone_status (p := { p with
      counters := p.counters.consume how.event, inFlight := n, throttled := t }) hp now
    refine .of_running hp ?_ ?_ ?_ _
    · rw [hr]
      exact hphase
    · rw [hr]
      exact hstatistics
    · rw [hr]
      exact hstatus
  · have he : p.onEnded shard how now =
        ({ p with counters := p.counters.consume how.event }, []) := by
      simp only [onEnded, if_neg hp]
    rw [he]
    exact ⟨rfl, rfl, rfl, fun _ => ⟨rfl, rfl⟩, fun h => ⟨h, rfl⟩⟩

lemma finish_proceeds (h : p.finish now = .ok p') : Proceeds p p' [] := by
  unfold finish at h
  cases hp : p.status with
  | running =>
    rw [hp] at h
    cases h
    refine .of_running hp ?_ ?_ (.inr ?_) [] <;> rfl
  | notStarted =>
    rw [hp] at h
    cases h
  | finished | terminating | terminated =>
    rw [hp] at h
    cases h
    exact .refl p

structure Directed (p : PhaseRun) (nodes index : Nat) (sent : List Dispatch) (p' : PhaseRun) :
    Prop where
  phase : p'.phase = p.phase
  statistics : p'.statistics = p.statistics
  kept : p.status.isEnding = true →
    p'.status = p.status ∧ ∀ d ∈ sent, d.2.concerns index = false
  untold : p'.status.isEnding = false →
    p.status.isEnding = false ∧ ∀ d ∈ sent, d.2 ≠ .terminate index
  ends : p.status.isEnding = false → p'.status.isEnding = true →
    (p'.status = .terminating ∧
      sent = everyone nodes (.terminate index)) ∨
    (p.status = .notStarted ∧ p'.status = .terminated ∧ sent = [])
  unstarted : p'.status = .notStarted →
    p.status = .notStarted ∧ ∀ d ∈ sent, d.2.concerns index = false

variable {nodes index : Nat} {sent : List Dispatch}

lemma Directed.refl (p : PhaseRun) (nodes : Nat)
    (hsent : ∀ d ∈ sent, d.2.concerns index = false) : Directed p nodes index sent p := by
  refine ⟨rfl, rfl, fun _ => ⟨rfl, hsent⟩, fun hopen => ⟨hopen, ?_⟩, ?_, fun h => ⟨h, hsent⟩⟩
  · intro d hd hterminate
    have hother := hsent d hd
    rw [hterminate, Command.concerns, beq_self_eq_true] at hother
    cases hother
  · intro hopen hending
    rw [hopen] at hending
    cases hending

lemma Proceeds.directed (h : p.Proceeds p' starts) (nodes index : Nat) :
    Directed p nodes index (Controller.dispatches index starts) p' := by
  refine ⟨h.phase, h.statistics, ?_, ?_, ?_, ?_⟩
  · intro hending
    obtain ⟨hstatus, rfl⟩ := h.kept hending
    exact ⟨hstatus, nofun⟩
  · intro hopen
    refine ⟨h.ending ▸ hopen, fun d hd => ?_⟩
    obtain ⟨s, -, rfl⟩ := List.mem_map.mp hd
    exact nofun
  · intro hopen hending
    rw [h.ending, hopen] at hending
    cases hending
  · intro hfresh
    obtain ⟨hstatus, rfl⟩ := h.unstarted hfresh
    exact ⟨hstatus, nofun⟩

end PhaseRun

namespace Controller

variable {c c' : Controller} {index nodes : Nat} {p p' : PhaseRun} {starts : Starts} {now : Nanos}
  {sent : List Dispatch}

structure Directs (c c' : Controller) (nodes : Nat) (sent : List Dispatch) : Prop where
  length : c'.phases.length = c.phases.length
  phases : ∀ (index : Nat) (p p' : PhaseRun), c.phases[index]? = some p →
    c'.phases[index]? = some p' → p.Directed nodes index sent p'
  known : ∀ d ∈ sent, ∀ index, d.2.concerns index = true → index < c.phases.length
  pointed : ∀ d ∈ sent, ∃ index, d.2.concerns index = true
  valid : (∀ p ∈ c.phases, p.shares.length = nodes) →
    ∀ d ∈ sent, d.1 < nodes ∧ d.2.isPlain = true

lemma Directs.of_phases_eq (h : c'.phases = c.phases) (nodes : Nat) : c.Directs c' nodes [] where
  length := congrArg List.length h
  phases index p p' hp hp' := by
    rw [h, hp] at hp'
    cases hp'
    exact .refl p nodes nofun
  known := nofun
  pointed := nofun
  valid _ := nofun

lemma Directs.of_set (hp : c.phases[index]? = some p) (hc : c'.phases = c.phases.set index p')
    (hconcerns : ∀ d ∈ sent, ∀ other, d.2.concerns other = true ↔ other = index)
    (hvalid : p.shares.length = nodes → ∀ d ∈ sent, d.1 < nodes ∧ d.2.isPlain = true)
    (h : p.Directed nodes index sent p') : c.Directs c' nodes sent where
  length := by rw [hc, List.length_set]
  phases other q q' hq hq' := by
    rw [hc, List.getElem?_set] at hq'
    by_cases hi : index = other
    · subst hi
      rw [if_pos rfl, if_pos (List.getElem?_eq_some_iff.mp hp).1, Option.some.injEq] at hq'
      rw [hp, Option.some.injEq] at hq
      subst hq hq'
      exact h
    · rw [if_neg hi, hq] at hq'
      cases hq'
      refine .refl q nodes fun d hd => Bool.eq_false_iff.mpr fun hother => hi ?_
      exact ((hconcerns d hd other).mp hother).symm
  known d hd other hother := by
    rw [(hconcerns d hd other).mp hother]
    exact (List.getElem?_eq_some_iff.mp hp).1
  pointed d hd := ⟨index, (hconcerns d hd index).mpr rfl⟩
  valid hshares := hvalid (hshares p (List.mem_of_getElem? hp))

lemma Directs.proceeds (hp : c.phases[index]? = some p) (h : p.Proceeds p' starts)
    (htakers : ∀ s ∈ starts, s.1 < p.shares.length ∧ 0 < s.2) (nodes : Nat)
    (hc : c'.phases = c.phases.set index p') : c.Directs c' nodes (dispatches index starts) := by
  refine .of_set hp hc ?_ ?_ (h.directed nodes index)
  · intro d hd other
    obtain ⟨s, -, rfl⟩ := List.mem_map.mp hd
    exact beq_iff_eq.trans eq_comm
  · rintro rfl d hd
    obtain ⟨s, hs, rfl⟩ := List.mem_map.mp hd
    obtain ⟨htaker, hcount⟩ := htakers s hs
    exact ⟨htaker, decide_eq_true hcount⟩

inductive Returns (c : Controller) (nodes : Nat) :
    Controller × Except EngineError (List Dispatch) → Prop
  | sends {c' : Controller} {sent : List Dispatch} (h : c.Directs c' nodes sent) :
      Returns c nodes (c', .ok sent)
  | refuses {c' : Controller} (h : c.Directs c' nodes []) (e : EngineError) :
      Returns c nodes (c', .error e)

lemma start_returns (c : Controller) (index : Nat) (now : Nanos) (nodes : Nat) :
    c.Returns nodes (c.start index now) := by
  have hphases : (c.begin now).phases = c.phases := rfl
  unfold start
  cases hp : c.phases[index]? with
  | none =>
    simp only [hphases, hp]
    exact .sends (.of_phases_eq hphases nodes)
  | some p =>
    simp only [hphases, hp]
    cases hs : p.start now with
    | error e => exact .refuses (.of_phases_eq hphases nodes) e
    | ok r =>
      exact .sends
        (.proceeds hp (PhaseRun.start_proceeds hs) (PhaseRun.start_asks hs).takers nodes rfl)

lemma startOnDemand_returns (c : Controller) (index : Nat) (now : Nanos) (nodes : Nat) :
    c.Returns nodes (c.startOnDemand index now) := by
  unfold startOnDemand
  cases hp : c.phases[index]? with
  | none => exact .sends (.of_phases_eq rfl nodes)
  | some p =>
    simp only
    split
    · exact c.start_returns index now nodes
    · exact .refuses (.of_phases_eq rfl nodes) _

lemma advance_returns (c : Controller) (index : Nat) (now : Nanos) (nodes : Nat) :
    c.Returns nodes (c.advance index now) := by
  unfold advance
  cases hp : c.phases[index]? with
  | none => exact .sends (.of_phases_eq rfl nodes)
  | some p =>
    cases hs : p.status with
    | notStarted =>
      simp only [hs]
      split
      · exact c.start_returns index now nodes
      · exact .sends (.of_phases_eq rfl nodes)
    | running =>
      simp only [hs]
      exact .sends (.proceeds hp (p.tick_proceeds now) (p.tick_asks now).takers nodes rfl)
    | finished | terminating | terminated =>
      simp only [hs]
      exact .sends (.of_phases_eq rfl nodes)

lemma onNotice_returns (c : Controller) (now : Nanos) (notice : Notice) (nodes : Nat) :
    c.Returns nodes (c.onNotice now notice) := by
  unfold onNotice
  cases notice with
  | started index shard started blocked =>
    cases hp : c.phases[index]? with
    | none =>
      simp only [hp]
      exact .sends (.of_phases_eq rfl nodes)
    | some p =>
      simp only [hp]
      have hstarted : c.Directs (c.setPhase index (p.onStarted started blocked)) nodes
          (dispatches index []) :=
        .proceeds hp (p.onStarted_proceeds started blocked) nofun nodes rfl
      exact .sends hstarted
  | ended index shard how =>
    cases hp : c.phases[index]? with
    | none =>
      simp only [hp]
      exact .sends (.of_phases_eq rfl nodes)
    | some p =>
      simp only [hp]
      exact .sends (.proceeds hp (p.onEnded_proceeds shard how now)
        (p.onEnded_asks shard how now).takers nodes rfl)
  | fault shard cause =>
    refine .refuses (.of_phases_eq ?_ nodes) _
    rfl

lemma finish_directs (c : Controller) (index : Nat) (now : Nanos) (nodes : Nat) :
    c.Directs (c.finish index now).1 nodes [] := by
  unfold finish
  cases hp : c.phases[index]? with
  | none => exact .of_phases_eq rfl nodes
  | some p =>
    simp only
    cases hf : p.finish now with
    | error e => exact .of_phases_eq rfl nodes
    | ok p' => exact .proceeds hp (PhaseRun.finish_proceeds hf) nofun nodes rfl

def farewells (nodes index : Nat) (tell : Bool) : List Dispatch :=
  if tell then everyone nodes (.terminate index) else []

lemma terminate_directs (c : Controller) (index : Nat) (now : Nanos) (nodes : Nat) :
    c.Directs (c.terminate index now).1 nodes
      (farewells nodes index (c.terminate index now).2) := by
  unfold terminate
  cases hp : c.phases[index]? with
  | none => exact .of_phases_eq rfl nodes
  | some p =>
    have htold : ∀ d ∈ everyone nodes (.terminate index), d.1 < nodes ∧ d.2 = .terminate index :=
      fun d => mem_everyone.mp
    have htell (hfresh : p.status ≠ .notStarted) (hopen : p.status.isEnding = false) (p' : PhaseRun)
        (hp' : p' = { p with endedAt := some (p.endedAt.getD now), status := .terminating }) :
        c.Directs (c.setPhase index p') nodes (farewells nodes index true) := by
      subst hp'
      refine .of_set hp rfl ?_ ?_ ⟨rfl, rfl, ?_, fun h => (by cases h), fun _ _ => .inl ⟨rfl, rfl⟩,
        fun h => (by cases h)⟩
      · intro d hd other
        rw [(htold d hd).2]
        exact beq_iff_eq.trans eq_comm
      · intro _ d hd
        rw [(htold d hd).2]
        exact ⟨(htold d hd).1, rfl⟩
      · intro hending
        rw [hopen] at hending
        cases hending
    cases hs : p.status with
    | notStarted =>
      simp only [PhaseRun.beginTermination, hs]
      refine .of_set hp rfl (List.forall_mem_nil _) (fun _ => List.forall_mem_nil _)
        ⟨rfl, rfl, fun h => ?_, fun h => (by cases h), ?_, fun h => (by cases h)⟩
      · rw [hs] at h
        cases h
      · exact fun _ _ => .inr ⟨hs, rfl, rfl⟩
    | running | finished =>
      simp only [PhaseRun.beginTermination, hs]
      exact htell (by simp [hs]) (by rw [hs]; rfl) _ rfl
    | terminating | terminated =>
      simp only [PhaseRun.beginTermination, hs]
      exact .proceeds hp (.refl p) (List.forall_mem_nil _) nodes rfl

end Controller

def sentTo (shard : Nat) (sent : List Dispatch) : List Command :=
  sent.filterMap fun d => if d.1 = shard then some d.2 else none

def Node.enqueue (n : Node) (commands : List Command) : Node :=
  { n with commands := n.commands ++ commands }

def tell (nodes : List Node) (sent : List Dispatch) : List Node :=
  nodes.mapIdx fun shard node => node.enqueue (sentTo shard sent)

lemma sentTo_nil (shard : Nat) : sentTo shard [] = [] := rfl

lemma sentTo_cons (shard : Nat) (d : Dispatch) (sent : List Dispatch) :
    sentTo shard (d :: sent) = (if d.1 = shard then [d.2] else []) ++ sentTo shard sent := by
  unfold sentTo
  rw [List.filterMap_cons]
  split_ifs <;> rfl

lemma mem_sentTo {shard : Nat} {sent : List Dispatch} {c : Command} :
    c ∈ sentTo shard sent ↔ (shard, c) ∈ sent := by
  rw [sentTo, List.mem_filterMap]
  constructor
  · rintro ⟨⟨i, c'⟩, hmem, hc⟩
    split_ifs at hc with hi
    cases hc
    exact (show i = shard from hi) ▸ hmem
  · intro hmem
    exact ⟨(shard, c), hmem, if_pos rfl⟩

lemma sentTo_everyone {shard nodes : Nat} (h : shard < nodes) (c : Command) :
    sentTo shard (everyone nodes c) = [c] := by
  induction nodes with
  | zero => cases h
  | succ nodes ih =>
    rw [everyone, List.range_succ, List.map_append, sentTo, List.filterMap_append, ← sentTo,
      ← sentTo, ← everyone]
    rcases Nat.lt_succ_iff_lt_or_eq.mp h with hlt | rfl
    · rw [ih hlt]
      simp [sentTo, Nat.ne_of_gt hlt]
    · have hnone : sentTo shard (everyone shard c) = [] := by
        refine List.filterMap_eq_nil_iff.mpr fun d hd => ?_
        exact if_neg (Nat.ne_of_lt (mem_everyone.mp hd).1)
      rw [hnone]
      simp [sentTo]

lemma tell_getElem? (nodes : List Node) (sent : List Dispatch) (i : Nat) :
    (tell nodes sent)[i]? = nodes[i]?.map fun node => node.enqueue (sentTo i sent) :=
  List.getElem?_mapIdx

lemma tell_nil (nodes : List Node) : tell nodes [] = nodes := by
  refine List.ext_getElem? fun i => ?_
  rw [tell_getElem?, sentTo_nil]
  simp [Node.enqueue]

lemma tell_cons (nodes : List Node) (d : Dispatch) (sent : List Dispatch) :
    tell nodes (d :: sent) = tell (nodes.modify d.1 fun node => node.enqueue [d.2]) sent := by
  refine List.ext_getElem? fun i => ?_
  rw [tell_getElem?, tell_getElem?, List.getElem?_modify, sentTo_cons]
  cases nodes[i]? with
  | none => rfl
  | some node => by_cases hi : d.1 = i <;> simp [hi, Node.enqueue]

namespace Fleet

variable {f f' : Fleet} {outputs : List Output} {sent : List Dispatch}

lemma dispatch_eq (hup : ∀ node ∈ f.nodes, node.running = true)
    (hsent : ∀ d ∈ sent, d.1 < f.nodes.length) :
    f.dispatch sent = { f with nodes := tell f.nodes sent } := by
  induction sent generalizing f with
  | nil => rw [tell_nil]; rfl
  | cons d rest ih =>
    obtain ⟨hd, hrest⟩ := List.forall_mem_cons.mp hsent
    have hnode : f.nodes[d.1]? = some f.nodes[d.1] := List.getElem?_eq_getElem hd
    have hrunning := hup _ (List.mem_of_getElem? hnode)
    have hsend : f.send d.1 d.2 = some { f with
        nodes := f.nodes.modify d.1 fun node => node.enqueue [d.2] } := by
      rw [modify_eq_set hnode]
      simp [send, hnode, Node.send, hrunning, Node.enqueue]
    rw [dispatch_cons, hsend, tell_cons]
    refine ih ?_ (by simpa using hrest)
    rw [modify_eq_set hnode]
    exact forall_mem_set hup hrunning

lemma ask_node (f : Fleet) (index : Nat) (reset : Bool) (i : Nat) :
    (f.ask index reset).nodes[i]? = f.nodes[i]?.map fun node =>
      node.enqueue (if node.running then [.collect index reset] else []) := by
  refine List.getElem?_map.trans (congrArg (Option.map · _) (funext fun node => ?_))
  unfold Node.send
  split <;> simp [Node.enqueue]

lemma ask_eq (hup : ∀ node ∈ f.nodes, node.running = true) (index : Nat) (reset : Bool) :
    f.ask index reset = { f with
      nodes := tell f.nodes (everyone f.nodes.length (.collect index reset))
      inquiry := some (.new index reset f.nodes.length) } := by
  refine congrArg (Fleet.mk _ · _ _) (List.ext_getElem? fun i => ?_)
  refine (f.ask_node index reset i).trans ?_
  rw [tell_getElem?]
  cases hnode : f.nodes[i]? with
  | none => rfl
  | some node =>
    rw [Option.map_some, Option.map_some, hup node (List.mem_of_getElem? hnode), if_pos rfl,
      sentTo_everyone (List.getElem?_eq_some_iff.mp hnode).1]

end Fleet

def Deed.command? : Deed → Option Command
  | command c => some c
  | _ => none

namespace Node

variable {n n' : Node} {now : Nanos} {outputs : List Output}

structure Does (n : Node) (now : Nanos) (deed : Deed) (n' : Node) (outputs : List Output) :
    Prop where
  shard : n'.shard = (n.shard.perform now deed).1
  told : outputs = (n.shard.perform now deed).2
  commands : n.commands = deed.command?.toList ++ n'.commands
  serves : Harmless outputs → n.Serves n' (noticesOf outputs)

lemma command?_does (h : n.Orderly) (he : n.command? now = some (n', outputs)) :
    ∃ c, n.Does now (.command c) n' outputs := by
  obtain ⟨preparations, rest, hqueue, hprepare, hplain, -⟩ := h.queue
  have hne : .shutdown ∉ n.commands := by
    intro hmem
    rw [hqueue, List.mem_append] at hmem
    rcases hmem with hmem | hmem
    · cases hprepare _ hmem
    · cases hplain _ hmem
  cases hc : n.commands with
  | nil => simp [command?, hc] at he
  | cons c later =>
    have hshutdown : c ≠ .shutdown := by
      rintro rfl
      exact hne (hc ▸ List.mem_cons_self)
    have hserves := command?_serves h he
    rw [command?_cons h.running hc hshutdown] at he
    cases he
    exact ⟨c, rfl, rfl, hc, hserves⟩

lemma event?_does (h : n.Orderly) (he : n.event? now = some (n', outputs)) :
    ∃ e, n.Does now (.event e) n' outputs := by
  have hserves := event?_serves h he
  obtain ⟨shard, commands, events, running⟩ := n
  obtain rfl : running = true := h.running
  cases events with
  | nil => cases he
  | cons event rest =>
    cases he
    exact ⟨event, rfl, rfl, rfl, hserves⟩

lemma timers?_does (h : n.Orderly) (he : n.timers? now = some (n', outputs)) :
    n.Does now .timers n' outputs := by
  have hserves := timers?_serves h he
  unfold timers? at he
  split at he
  · simp only [Option.some.injEq, Prod.mk.injEq] at he
    obtain ⟨rfl, rfl⟩ := he
    exact ⟨rfl, rfl, rfl, hserves⟩
  · cases he

end Node

namespace Fleet

def Move.shard? : Move → Option Nat
  | command shard _ | event shard _ | timers shard _ => some shard
  | _ => none

def sent (f f' : Fleet) (shard : Nat) : List Command :=
  match f.nodes[shard]?, f'.nodes[shard]? with
  | some node, some node' => node'.commands.drop node.commands.length
  | _, _ => []

variable {f f' : Fleet} {outputs : List Output} {m : Move} {actor : Option Nat}
  {sent : List Dispatch}

/-- What a move is: the node that makes it, what the nodes are sent, and what comes of it. -/
inductive Step (f : Fleet) : Option Nat → List Dispatch → Fleet → List Output → Prop
  | directs {c : Controller} {sent : List Dispatch} {notices : List Notice}
      (hidle : f.inquiry = none) (h : f.controller.Directs c f.nodes.length sent)
      (hnotices : notices <:+ f.notices) :
      Step f none sent ⟨c, tell f.nodes sent, notices, none⟩ []
  | asks {index : Nat} {reset : Bool} (hidle : f.inquiry = none)
      (hready : reset = true → f.controller.canTerminate index = true) :
      Step f none (everyone f.nodes.length (.collect index reset))
        ⟨f.controller, tell f.nodes (everyone f.nodes.length (.collect index reset)), f.notices,
          some (.new index reset f.nodes.length)⟩ []
  | concludes {q : Inquiry} {sum : PhaseSnapshot} (hq : f.inquiry = some q)
      (hsum : q.sum? = some (.ok sum)) :
      Step f none [] ⟨if q.reset then f.controller.complete q.index sum else f.controller, f.nodes,
        f.notices, none⟩ []
  | serves {shard : Nat} {now : Nanos} {deed : Deed} {node node' : Node} {outputs : List Output}
      (hnode : f.nodes[shard]? = some node) (h : node.Does now deed node' outputs) :
      Step f (some shard) [] ⟨f.controller, f.nodes.set shard node',
        f.notices ++ noticesOf outputs, f.inquiry.map fun q => q.hear shard outputs⟩ outputs
  | delivers (shard : Nat) (events : List Event) :
      Step f none [] { f with nodes := f.nodes.modify shard fun node => node.deliver events } []

lemma unlessAsking_eq_some {f₁ : Fleet} (hm : f.unlessAsking f₁ = some (f', outputs)) :
    f.inquiry = none ∧ f' = f₁ ∧ outputs = [] := by
  unfold unlessAsking at hm
  split at hm
  · rename_i hidle
    cases hm
    exact ⟨Option.isNone_iff_eq_none.mp hidle, rfl, rfl⟩
  · cases hm

lemma Sane.up (h : f.Sane) : ∀ node ∈ f.nodes, node.running = true :=
  fun node hnode => (h.orderly node hnode).running

lemma Sane.directs (h : f.Sane) {c : Controller} {sent : List Dispatch} {notices : List Notice}
    (hidle : f.inquiry = none) (hd : f.controller.Directs c f.nodes.length sent)
    (hnotices : notices <:+ f.notices) :
    Step f none sent ({ f with controller := c, notices }.dispatch sent) [] := by
  have heq : ({ f with controller := c, notices } : Fleet).dispatch sent =
      ⟨c, tell f.nodes sent, notices, none⟩ := by
    rw [dispatch_eq (f := { f with controller := c, notices }) h.up
      fun d hmem => (hd.valid h.shares d hmem).1, hidle]
  rw [heq]
  exact .directs hidle hd hnotices

lemma Sane.returns (h : f.Sane) {r : Controller × Except EngineError (List Dispatch)}
    {notices : List Notice} (hidle : f.inquiry = none) (hr : f.controller.Returns f.nodes.length r)
    (hnotices : notices <:+ f.notices) :
    ∃ sent, Step f none sent ({ f with notices }.follow r) [] := by
  cases hr with
  | sends hd => exact ⟨_, h.directs hidle hd hnotices⟩
  | refuses hd e => exact ⟨_, h.directs hidle hd hnotices⟩

lemma serve_step {shard : Nat} {step : Node → Option (Node × List Output)}
    (he : f.serve shard step = some (f', outputs))
    (hstep : ∀ node node' : Node, node ∈ f.nodes → step node = some (node', outputs) →
      ∃ now deed, node.Does now deed node' outputs) : Step f (some shard) [] f' outputs := by
  unfold Fleet.serve at he
  cases hnode : f.nodes[shard]? with
  | none => simp [hnode] at he
  | some node =>
    cases hs : step node with
    | none => simp [hnode, hs] at he
    | some r =>
      obtain ⟨node', outputs'⟩ := r
      simp only [hnode, hs, Option.bind_eq_bind, Option.bind_some, Option.some.injEq,
        Prod.mk.injEq] at he
      obtain ⟨rfl, rfl⟩ := he
      obtain ⟨now, deed, hdoes⟩ := hstep node node' (List.mem_of_getElem? hnode) hs
      exact .serves hnode hdoes

theorem Sane.step (h : f.Sane) (hm : f.move m = some (f', outputs)) :
    ∃ sent, Step f m.shard? sent f' outputs := by
  cases m with
  | begin now =>
    obtain ⟨hidle, rfl, rfl⟩ := unlessAsking_eq_some hm
    have hphases : (f.controller.begin now).phases = f.controller.phases := rfl
    exact ⟨_, h.directs hidle (.of_phases_eq hphases _) (List.suffix_refl _)⟩
  | start index now =>
    obtain ⟨hidle, rfl, rfl⟩ := unlessAsking_eq_some hm
    exact h.returns hidle (f.controller.startOnDemand_returns index now _) (List.suffix_refl _)
  | advance index now =>
    obtain ⟨hidle, rfl, rfl⟩ := unlessAsking_eq_some hm
    exact h.returns hidle (f.controller.advance_returns index now _) (List.suffix_refl _)
  | finish index now =>
    obtain ⟨hidle, rfl, rfl⟩ := unlessAsking_eq_some hm
    exact ⟨_, h.directs hidle (f.controller.finish_directs index now _) (List.suffix_refl _)⟩
  | terminate index now =>
    simp only [Fleet.move] at hm
    obtain ⟨hidle, rfl, rfl⟩ := unlessAsking_eq_some hm
    have hd := f.controller.terminate_directs index now f.nodes.length
    have hstep := h.directs hidle hd (List.suffix_refl _)
    generalize f.controller.terminate index now = out at hstep ⊢
    obtain ⟨c, tell⟩ := out
    cases tell with
    | false => exact ⟨_, hstep⟩
    | true => exact ⟨_, hstep⟩
  | notice now =>
    simp only [Fleet.move] at hm
    split at hm
    · cases hm
    · rename_i n rest hn
      obtain ⟨hidle, rfl, rfl⟩ := unlessAsking_eq_some hm
      refine h.returns hidle (f.controller.onNotice_returns now n _) ?_
      rw [hn]
      exact List.suffix_cons n rest
  | ask index reset =>
    simp only [Fleet.move] at hm
    split at hm
    · cases hm
    · rename_i hready
      obtain ⟨hidle, rfl, rfl⟩ := unlessAsking_eq_some hm
      refine ⟨everyone f.nodes.length (.collect index reset), ?_⟩
      rw [ask_eq h.up]
      refine .asks hidle fun hreset => ?_
      simpa [hreset] using hready
  | conclude =>
    obtain ⟨q, hq, hm⟩ := Option.bind_eq_some_iff.mp hm
    obtain ⟨sum, hsum, hm⟩ := Option.bind_eq_some_iff.mp hm
    cases sum with
    | error fault => cases hm
    | ok sum =>
      cases hm
      exact ⟨_, .concludes hq hsum⟩
  | command shard now =>
    refine ⟨_, serve_step hm fun node node' hnode he => ?_⟩
    obtain ⟨c, hdoes⟩ := Node.command?_does (h.orderly node hnode) he
    exact ⟨now, _, hdoes⟩
  | event shard now =>
    refine ⟨_, serve_step hm fun node node' hnode he => ?_⟩
    obtain ⟨e, hdoes⟩ := Node.event?_does (h.orderly node hnode) he
    exact ⟨now, _, hdoes⟩
  | timers shard now =>
    exact ⟨_, serve_step hm fun node node' hnode he =>
      ⟨now, _, Node.timers?_does (h.orderly node hnode) he⟩⟩
  | deliver shard events =>
    cases hm
    exact ⟨_, .delivers shard events⟩

lemma Step.plain (hstep : Step f actor sent f' outputs) (h : f.Sane) :
    ∀ d ∈ sent, d.2.isPlain = true := by
  cases hstep with
  | directs _ hd _ => exact fun d hmem => (hd.valid h.shares d hmem).2
  | asks =>
    intro d hd
    rw [(mem_everyone.mp hd).2]
    rfl
  | _ => exact nofun

lemma Step.known (hstep : Step f actor sent f' outputs) :
    ∀ d ∈ sent, ∀ index, d.2.concerns index = true → index < f.controller.phases.length := by
  cases hstep with
  | directs _ hd _ => exact hd.known
  | asks =>
    intro d hd index hconcerns
    rw [(mem_everyone.mp hd).2] at hconcerns
    cases hconcerns
  | _ => exact nofun

lemma Step.node (hstep : Step f actor sent f' outputs) (h : f.Sane) {shard : Nat} {node : Node}
    (hnode : f.nodes[shard]? = some node) :
    ∃ node', f'.nodes[shard]? = some node' ∧
      ((actor ≠ some shard ∧ node'.shard = node.shard ∧
        node'.commands = node.commands ++ sentTo shard sent) ∨
      (actor = some shard ∧ sent = [] ∧ ∃ now deed, node.Does now deed node' outputs)) := by
  have hsame : node.commands = node.commands ++ sentTo shard [] := (List.append_nil _).symm
  cases hstep with
  | directs | asks =>
    have htold := tell_getElem? f.nodes
    refine ⟨_, (htold _ shard).trans (congrArg _ hnode), .inl ⟨nofun, rfl, rfl⟩⟩
  | concludes => exact ⟨node, hnode, .inl ⟨nofun, rfl, hsame⟩⟩
  | @serves i now deed old new outputs hold hdoes =>
    by_cases hi : i = shard
    · subst hi
      rw [hnode, Option.some.injEq] at hold
      subst hold
      exact ⟨new, List.getElem?_set_self (List.getElem?_eq_some_iff.mp hnode).1,
        .inr ⟨rfl, rfl, now, deed, hdoes⟩⟩
    · refine ⟨node, ?_, .inl ⟨fun hf => hi (Option.some.inj hf), rfl, hsame⟩⟩
      rw [List.getElem?_set_ne hi, hnode]
  | delivers i events =>
    obtain ⟨hdelivered, -⟩ := (h.orderly node (List.mem_of_getElem? hnode)).deliver events
    by_cases hi : i = shard
    · refine ⟨node.deliver events, by simp [hnode, hi], .inl ⟨nofun, ?_⟩⟩
      rw [hdelivered]
      exact ⟨rfl, hsame⟩
    · exact ⟨node, by simp [hnode, hi], .inl ⟨nofun, rfl, hsame⟩⟩

lemma Step.length (hstep : Step f actor sent f' outputs) : f'.nodes.length = f.nodes.length := by
  cases hstep with
  | directs | asks => exact List.length_mapIdx
  | concludes => rfl
  | serves => exact List.length_set
  | delivers => exact List.length_modify ..

lemma Step.node_back (hstep : Step f actor sent f' outputs) (h : f.Sane) {node' : Node}
    (hmem : node' ∈ f'.nodes) : ∃ shard node, f.nodes[shard]? = some node ∧
      f'.nodes[shard]? = some node' ∧
      ((actor ≠ some shard ∧ node'.shard = node.shard ∧
        node'.commands = node.commands ++ sentTo shard sent) ∨
      (actor = some shard ∧ sent = [] ∧ ∃ now deed, node.Does now deed node' outputs)) := by
  obtain ⟨shard, hnode'⟩ := List.mem_iff_getElem?.mp hmem
  have hlt := (List.getElem?_eq_some_iff.mp hnode').1
  rw [hstep.length] at hlt
  obtain ⟨node'', hnode'', hcases⟩ := hstep.node h (List.getElem?_eq_getElem hlt)
  rw [hnode', Option.some.injEq] at hnode''
  subst hnode''
  exact ⟨shard, _, List.getElem?_eq_getElem hlt, hnode', hcases⟩

lemma Step.sent_eq (hstep : Step f actor sent f' outputs) (h : f.Sane) {shard : Nat}
    (hshard : shard < f.nodes.length) : f.sent f' shard = sentTo shard sent := by
  have hnode : f.nodes[shard]? = some f.nodes[shard] := List.getElem?_eq_getElem hshard
  obtain ⟨node', hnode', hcases⟩ := hstep.node h hnode
  simp only [Fleet.sent, hnode, hnode']
  obtain ⟨-, -, hcommands⟩ | ⟨-, rfl, now, deed, hdoes⟩ := hcases
  · rw [hcommands, List.drop_left]
  · rw [hdoes.commands]
    exact List.drop_of_length_le (by simp)

lemma Step.phases_length (hstep : Step f actor sent f' outputs) :
    f'.controller.phases.length = f.controller.phases.length := by
  cases hstep with
  | directs _ hd _ => exact hd.length
  | @concludes q sum =>
    simp only
    cases q.reset with
    | false => rfl
    | true =>
      simp only [if_true, Controller.complete]
      split
      · rfl
      · exact List.length_set
  | _ => rfl

lemma Step.controller_eq {shard : Nat} (hstep : Step f (some shard) sent f' outputs) :
    f'.controller = f.controller := by
  cases hstep with
  | serves => rfl

lemma concluded_back {q : Inquiry} {sum : PhaseSnapshot} {index : Nat} {p' : PhaseRun}
    (hp' : (if q.reset then f.controller.complete q.index sum else f.controller).phases[index]? =
      some p') :
    ∃ p, f.controller.phases[index]? = some p ∧
      (p' = p ∧ ¬ (q.index = index ∧ q.reset = true) ∨
        q.index = index ∧ q.reset = true ∧ p' = p.complete sum.statistics sum.maxUsed) := by
  cases hreset : q.reset with
  | false =>
    rw [hreset] at hp'
    exact ⟨p', hp', .inl ⟨rfl, fun h => nomatch h.2⟩⟩
  | true =>
    rw [hreset, if_pos rfl, Controller.complete] at hp'
    cases hold : f.controller.phases[q.index]? with
    | none =>
      rw [hold] at hp'
      refine ⟨p', hp', .inl ⟨rfl, fun h => ?_⟩⟩
      rw [← h.1, hold] at hp'
      cases hp'
    | some old =>
      rw [hold] at hp'
      simp only [Controller.setPhase] at hp'
      obtain ⟨hi, rfl⟩ | ⟨hi, hp⟩ := getElem?_set_back hp'
      · exact ⟨old, hi ▸ hold, .inr ⟨hi, rfl, rfl⟩⟩
      · exact ⟨p', hp, .inl ⟨rfl, fun h => hi h.1⟩⟩

lemma Step.phase (hstep : Step f actor sent f' outputs) {index : Nat} {p : PhaseRun}
    (hp : f.controller.phases[index]? = some p) :
    ∃ p', f'.controller.phases[index]? = some p' ∧
      (p.Directed f.nodes.length index sent p' ∨
        sent = [] ∧ ∃ q sum, f.inquiry = some q ∧ q.index = index ∧ q.reset = true ∧
          q.sum? = some (.ok sum) ∧ p' = p.complete sum.statistics sum.maxUsed) := by
  have hlength := hstep.phases_length
  cases hstep with
  | directs _ hd _ =>
    have hlt := (List.getElem?_eq_some_iff.mp hp).1
    rw [← hd.length] at hlt
    exact ⟨_, List.getElem?_eq_getElem hlt,
      .inl (hd.phases index p _ hp (List.getElem?_eq_getElem hlt))⟩
  | asks =>
    refine ⟨p, hp, .inl (.refl p _ fun d hd => ?_)⟩
    rw [(mem_everyone.mp hd).2]
    rfl
  | @concludes q sum hq hsum =>
    have hlt := (List.getElem?_eq_some_iff.mp hp).1
    rw [← hlength] at hlt
    obtain ⟨p₀, hp₀, hcases⟩ := concluded_back (List.getElem?_eq_getElem hlt)
    obtain rfl : p₀ = p := Option.some.inj (hp₀.symm.trans hp)
    refine ⟨_, List.getElem?_eq_getElem hlt, ?_⟩
    obtain ⟨hsame, -⟩ | ⟨hi, hreset, hcomplete⟩ := hcases
    · rw [hsame]
      exact .inl (.refl p₀ _ nofun)
    · exact .inr ⟨rfl, q, sum, hq, hi, hreset, hsum, hcomplete⟩
  | serves | delivers => exact ⟨p, hp, .inl (.refl p _ nofun)⟩

lemma Step.phase_back (hstep : Step f actor sent f' outputs) {index : Nat} {p' : PhaseRun}
    (hp' : f'.controller.phases[index]? = some p') :
    ∃ p, f.controller.phases[index]? = some p ∧
      (p.Directed f.nodes.length index sent p' ∨
        sent = [] ∧ ∃ q sum, f.inquiry = some q ∧ q.index = index ∧ q.reset = true ∧
          q.sum? = some (.ok sum) ∧ p' = p.complete sum.statistics sum.maxUsed) := by
  have hlt := (List.getElem?_eq_some_iff.mp hp').1
  rw [hstep.phases_length] at hlt
  obtain ⟨p'', hp'', hcases⟩ := hstep.phase (List.getElem?_eq_getElem hlt)
  rw [hp', Option.some.injEq] at hp''
  subst hp''
  exact ⟨_, List.getElem?_eq_getElem hlt, hcases⟩

end Fleet

end LoadEngine
