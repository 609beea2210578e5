import LoadEngine.Proofs.FleetSteps

/-! Every shard of a fleet goes through turns that are in its books: a phase is prepared on it once,
before anything else comes for the phase. -/

namespace LoadEngine

def Command.prepares (phase : Nat) : Command → Bool
  | prepare index _ _ _ => index == phase
  | _ => false

inductive Shard.Logs (s : Shard) (l : Ledger) : Deed → Shard × List Output → Ledger → Prop
  | prepare (phase : Nat) (name : String) (scenario : Scenario) (capacity : Nat) :
      Logs s l (.command (.prepare phase name scenario capacity))
        (s.prepare phase name scenario capacity, []) l
  | reset {phase : Nat} {lane : Lane} (hlane : s.lanes.get? phase = some lane)
      (snapshot : PhaseSnapshot) :
      Logs s l (.command (.collect phase true))
        ((s.collect phase true).1, [.snapshot phase snapshot])
        (l.reset phase)
  | plays {deed : Deed} {visits : List Visit} {s' : Shard} {outputs : List Output}
      (h : Shard.Plays deed.tag? s visits s' outputs)
      (hkept : ∀ phase, deed = .command (.collect phase true) → s.lanes.get? phase = none) :
      Logs s l deed (s', outputs) (visits.foldl Ledger.after l)

namespace Shard

variable {s s' : Shard} {l l' : Ledger} {now : Nanos} {deed : Deed} {visits : List Visit}
  {out : Shard × List Output} {phase : Nat}

lemma perform_logs (s : Shard) (l : Ledger) (now : Nanos) (deed : Deed) :
    ∃ l', Logs s l deed (s.perform now deed) l' := by
  by_cases hreset : ∃ phase lane, deed = .command (.collect phase true) ∧
      s.lanes.get? phase = some lane
  · obtain ⟨phase, lane, rfl, hlane⟩ := hreset
    exact ⟨_, .reset hlane _⟩
  · have hperforms := s.perform_performs now deed
    generalize s.perform now deed = out at hperforms
    cases hperforms with
    | prepare phase name scenario capacity => exact ⟨l, .prepare phase name scenario capacity⟩
    | reset hlane snapshot => exact ⟨_, .reset hlane snapshot⟩
    | plays h =>
      refine ⟨_, .plays h fun phase hdeed => Option.eq_none_iff_forall_ne_some.mpr ?_⟩
      exact fun lane hlane => hreset ⟨phase, lane, hdeed, hlane⟩

lemma Run.logs (h : Run s l) (hlogs : Logs s l deed out l')
    (hallowed : ∀ c, deed = .command c → (Deed.command c).Allowed s []) : Run out.1 l' := by
  cases hlogs with
  | prepare phase name scenario capacity =>
    obtain ⟨hphase, d, hbuilt⟩ := hallowed _ rfl
    exact h.prepare hphase hbuilt name capacity
  | reset hlane snapshot => exact h.reset hlane
  | plays hplays _ => exact h.course hplays.course

lemma turn_lanes_none (s : Shard) (now : Nanos) (index slot : Nat) (cause : Cause) :
    (s.turn now index slot cause).1.lanes.get? phase = none ↔ s.lanes.get? phase = none := by
  unfold turn drive
  cases hlane : s.lanes.get? index with
  | none => rfl
  | some lane =>
    simp only [carryOut_lanes, OrderedMap.get?_insert]
    split
    · rename_i hp
      simp [hp, hlane]
    · rfl

lemma Course.lanes_none (h : Course s visits s') :
    s'.lanes.get? phase = none ↔ s.lanes.get? phase = none := by
  induction h with
  | nil => rfl
  | cons ha _ ih => rw [ih, turn_lanes_none, ha.lanes_none]

lemma Logs.lanes_none (h : Logs s l deed out l') (hphase : s.lanes.get? phase = none)
    (hdeed : ∀ c, deed = .command c → c.prepares phase = false) :
    out.1.lanes.get? phase = none := by
  cases h with
  | prepare index name scenario capacity =>
    have hne : phase ≠ index := by
      rintro rfl
      have hprepares := hdeed _ rfl
      rw [Command.prepares, beq_self_eq_true] at hprepares
      cases hprepares
    exact (OrderedMap.get?_insert_ne _ _ hne).trans hphase
  | @reset index lane hlane snapshot =>
    have hne : phase ≠ index := by
      rintro rfl
      rw [hphase] at hlane
      cases hlane
    rw [collect_reset hlane]
    exact (OrderedMap.get?_insert_ne _ _ hne).trans hphase
  | plays hplays _ => exact hplays.course.lanes_none.mpr hphase

end Shard

namespace Node

variable {n n' : Node} {l l' : Ledger} {now : Nanos} {deed : Deed} {outputs : List Output}

structure Booked (n : Node) (l : Ledger) : Prop where
  run : n.shard.Run l
  allowed : ∀ c ∈ n.commands, (Deed.command c).Allowed n.shard []
  once : n.commands.Pairwise fun c d => ∀ phase, c.prepares phase = true → d.prepares phase = false

lemma Does.logs (h : n.Does now deed n' outputs) (l : Ledger) :
    ∃ l', n.shard.Logs l deed (n'.shard, outputs) l' := by
  obtain ⟨l', hlogs⟩ := n.shard.perform_logs l now deed
  refine ⟨l', ?_⟩
  rw [h.shard, h.told]
  exact hlogs

lemma Booked.does (h : n.Booked l) (hdoes : n.Does now deed n' outputs)
    (hlogs : n.shard.Logs l deed (n'.shard, outputs) l') : n'.Booked l' := by
  have hmem : ∀ c, deed = .command c → c ∈ n.commands := by
    rintro c rfl
    rw [hdoes.commands]
    exact List.mem_cons_self
  have hsub : n'.commands.Sublist n.commands := by
    rw [hdoes.commands]
    exact List.sublist_append_right _ _
  refine ⟨h.run.logs hlogs fun c hc => h.allowed c (hmem c hc), ?_, h.once.sublist hsub⟩
  intro c hc
  have hallowed := h.allowed c (hsub.subset hc)
  cases c with
  | prepare phase name scenario capacity =>
    obtain ⟨hphase, hbuilt⟩ := hallowed
    refine ⟨hlogs.lanes_none hphase ?_, hbuilt⟩
    rintro d rfl
    have honce := h.once
    rw [hdoes.commands] at honce
    have hlater := (List.pairwise_cons.mp honce).1 _ hc phase
    cases hd : d.prepares phase with
    | false => rfl
    | true =>
      have hnot := hlater hd
      rw [Command.prepares, beq_self_eq_true] at hnot
      cases hnot
  | _ => trivial

lemma Booked.told (h : n.Booked l) (hshard : n'.shard = n.shard) {extra : List Command}
    (hcommands : n'.commands = n.commands ++ extra)
    (hplain : ∀ c ∈ extra, c.isPrepare = false) : n'.Booked l := by
  have hextra : ∀ c ∈ extra, ∀ phase, c.prepares phase = false := by
    intro c hc phase
    have hprepare := hplain c hc
    cases c with
    | prepare => cases hprepare
    | _ => rfl
  refine ⟨hshard ▸ h.run, ?_, ?_⟩
  · rw [hcommands, hshard]
    refine List.forall_mem_append.mpr ⟨h.allowed, fun c hc => ?_⟩
    have hprepare := hplain c hc
    cases c with
    | prepare => cases hprepare
    | _ => trivial
  · rw [hcommands]
    refine List.pairwise_append.mpr ⟨h.once, ?_, fun c _ d hd phase _ => hextra d hd phase⟩
    exact List.pairwise_of_forall_mem_list fun c _ d hd phase _ => hextra d hd phase

end Node

namespace Fleet

variable {f f' : Fleet} {outputs : List Output} {actor : Option Nat} {sent : List Dispatch}

/-- The scenarios of all phases are such as were accepted. -/
def Built (f : Fleet) : Prop :=
  ∀ p ∈ f.controller.phases, ∃ d : Draft, d.build = .ok p.phase.scenario

lemma isPrepare_of_isPlain {c : Command} (h : c.isPlain = true) : c.isPrepare = false := by
  cases c with
  | prepare => cases h
  | _ => rfl

lemma Step.built_iff (hstep : Step f actor sent f' outputs) : f'.Built ↔ f.Built := by
  have hphase {index : Nat} {p p' : PhaseRun} (hcases : p.Directed f.nodes.length index sent p' ∨
      sent = [] ∧ ∃ q sum, f.inquiry = some q ∧ q.index = index ∧ q.reset = true ∧
        q.sum? = some (.ok sum) ∧ p' = p.complete sum.statistics sum.maxUsed) :
      p'.phase = p.phase := by
    rcases hcases with hdirected | ⟨-, q, sum, -, -, -, -, rfl⟩
    · exact hdirected.phase
    · rfl
  constructor
  · intro h p hmem
    obtain ⟨index, hp⟩ := List.mem_iff_getElem?.mp hmem
    obtain ⟨p', hp', hcases⟩ := hstep.phase hp
    exact hphase hcases ▸ h p' (List.mem_of_getElem? hp')
  · intro h p' hmem
    obtain ⟨index, hp'⟩ := List.mem_iff_getElem?.mp hmem
    obtain ⟨p, hp, hcases⟩ := hstep.phase_back hp'
    rw [hphase hcases]
    exact h p (List.mem_of_getElem? hp)

lemma new_booked {c : Controller} {template : Recorder} (h : (Fleet.new c template).Built)
    {node : Node} (hnode : node ∈ (Fleet.new c template).nodes) : node.Booked .empty := by
  obtain ⟨shard, -, rfl⟩ := List.mem_map.mp hnode
  refine ⟨.new shard template, ?_, ?_⟩
  · intro command hcommand
    obtain ⟨⟨p, index⟩, hp, rfl⟩ := List.mem_map.mp hcommand
    exact ⟨rfl, h p (List.fst_mem_of_mem_zipIdx hp)⟩
  · refine List.pairwise_map.mpr ((Pool.zipIdx_sorted c.phases 0).imp ?_)
    intro x y hlt phase hprepares
    simp only [Command.prepares, beq_iff_eq, beq_eq_false_iff_ne] at hprepares ⊢
    omega

lemma Later.built (hl : f.Later f') (h : Reachable f) (hbuilt : f.Built) : f'.Built := by
  induction hl with
  | refl => exact hbuilt
  | move hl hm _ ih =>
    obtain ⟨sent, hstep⟩ := (h.later hl).sane.step hm
    exact hstep.built_iff.mpr ih

theorem Reachable.booked (h : Reachable f) (hbuilt : f.Built) :
    ∀ node ∈ f.nodes, ∃ l, node.Booked l := by
  induction h with
  | new h template => exact fun node hnode => ⟨_, new_booked hbuilt hnode⟩
  | @move f f' m outputs h hm hout ih =>
    obtain ⟨sent, hstep⟩ := h.sane.step hm
    intro node' hmem
    obtain ⟨shard, node, hnode, -, hcases⟩ := hstep.node_back h.sane hmem
    obtain ⟨l, hbooked⟩ := ih (hstep.built_iff.mp hbuilt) node (List.mem_of_getElem? hnode)
    obtain ⟨-, hshard, hcommands⟩ | ⟨-, -, now, deed, hdoes⟩ := hcases
    · refine ⟨l, hbooked.told hshard hcommands fun c hc => ?_⟩
      exact isPrepare_of_isPlain (hstep.plain h.sane _ (mem_sentTo.mp hc))
    · obtain ⟨l', hlogs⟩ := hdoes.logs l
      exact ⟨l', hbooked.does hdoes hlogs⟩

end Fleet

end LoadEngine
