import LoadEngine.Proofs.Dismissal
import LoadEngine.Proofs.FleetBooks

/-! The end of a phase by force. Nothing is started once the nodes were told to end it, whatever is
still under way; on a node that has done so it is over for good; and when nothing is under way any
more, the controller sees that all have ended. -/

namespace LoadEngine

lemma startsIn_of_clear {index : Nat} {commands : List Command}
    (h : ∀ c ∈ commands, c.concerns index = false) : startsIn index commands = 0 := by
  rw [startsIn, List.sum_eq_zero_iff_forall_eq_nat]
  intro n hn
  obtain ⟨c, hc, rfl⟩ := List.mem_map.mp hn
  have hother := h c hc
  cases c with
  | start phase count =>
    refine if_neg ?_
    rintro rfl
    rw [Command.concerns, beq_self_eq_true] at hother
    cases hother
  | _ => rfl

namespace Node

variable {n n' : Node} {l : Ledger} {now : Nanos} {deed : Deed} {outputs : List Output}
  {index : Nat} {extra : List Command}

structure Spent (n : Node) (index : Nat) : Prop where
  idle : n.shard.alive index = 0
  clear : ∀ c ∈ n.commands, c.concerns index = false

def Awaits (n : Node) (index : Nat) : Prop :=
  ∃ before after, n.commands = before ++ .terminate index :: after ∧
    .terminate index ∉ before ∧ ∀ c ∈ after, c.concerns index = false

lemma Does.subset (h : n.Does now deed n' outputs) : ∀ c ∈ n'.commands, c ∈ n.commands := by
  intro c hc
  rw [h.commands]
  exact List.mem_append_right _ hc

lemma Does.mem {c : Command} (h : n.Does now (.command c) n' outputs) : c ∈ n.commands := by
  rw [h.commands]
  exact List.mem_cons_self

lemma Does.idle (h : n.Does now deed n' outputs) (hidle : n.shard.alive index = 0)
    (hstarts : startsIn index n.commands = 0) (hout : Harmless outputs) :
    n'.shard.alive index = 0 ∧ endsIn index (noticesOf outputs) = 0 := by
  have hserves := h.serves hout
  have hbalance := hserves.balance index
  have hanswered := hserves.answered index
  have hstarted := Fleet.startedIn_le_answersIn index (noticesOf outputs)
  omega

lemma Spent.does (h : n.Spent index) (hdoes : n.Does now deed n' outputs)
    (hout : Harmless outputs) :
    n'.Spent index ∧ endsIn index (noticesOf outputs) = 0 := by
  obtain ⟨hidle, hends⟩ := hdoes.idle h.idle (startsIn_of_clear h.clear) hout
  exact ⟨⟨hidle, fun c hc => h.clear c (hdoes.subset c hc)⟩, hends⟩

lemma Spent.told (h : n.Spent index) (hshard : n'.shard = n.shard)
    (hcommands : n'.commands = n.commands ++ extra)
    (hextra : ∀ c ∈ extra, c.concerns index = false) : n'.Spent index := by
  refine ⟨hshard ▸ h.idle, ?_⟩
  rw [hcommands]
  exact List.forall_mem_append.mpr ⟨h.clear, hextra⟩

lemma Awaits.told (h : n.Awaits index) (hcommands : n'.commands = n.commands ++ extra)
    (hextra : ∀ c ∈ extra, c.concerns index = false) : n'.Awaits index := by
  obtain ⟨before, after, hqueue, hnot, hclear⟩ := h
  refine ⟨before, after ++ extra, ?_, hnot, List.forall_mem_append.mpr ⟨hclear, hextra⟩⟩
  rw [hcommands, hqueue, List.append_assoc, List.cons_append]

lemma Awaits.does (h : n.Awaits index) (hbooked : n.Booked l)
    (hdoes : n.Does now deed n' outputs) : n'.Awaits index ∨ n'.Spent index := by
  obtain ⟨before, after, hqueue, hnot, hclear⟩ := h
  have hcommands := hdoes.commands
  cases deed with
  | command c =>
    rw [hqueue] at hcommands
    cases before with
    | nil =>
      cases hcommands
      have hdismisses := hbooked.run.terminate_dismisses now index
      refine .inr ⟨?_, hclear⟩
      rw [hdoes.shard]
      exact hdismisses.alive
    | cons d before =>
      obtain ⟨rfl, hrest⟩ := List.cons.inj hcommands
      exact .inl ⟨before, after, hrest.symm, fun hmem => hnot (List.mem_cons_of_mem _ hmem), hclear⟩
  | event | timers => exact .inl ⟨before, after, hcommands.symm.trans hqueue, hnot, hclear⟩

structure Follows (n : Node) (index : Nat) (status : PhaseStatus) : Prop where
  told : status.isEnding = true → n.Awaits index ∨ n.Spent index
  untold : status.isEnding = false → .terminate index ∉ n.commands
  unstarted : status = .notStarted → n.Spent index

lemma Follows.does {status : PhaseStatus} (h : n.Follows index status) (hbooked : n.Booked l)
    (hdoes : n.Does now deed n' outputs) (hout : Harmless outputs) : n'.Follows index status where
  told hending := by
    rcases h.told hending with hawaits | hspent
    · exact hawaits.does hbooked hdoes
    · exact .inr (hspent.does hdoes hout).1
  untold hopen hmem := h.untold hopen (hdoes.subset _ hmem)
  unstarted hfresh := ((h.unstarted hfresh).does hdoes hout).1

lemma Follows.told_directed {nodes shard : Nat} {sent : List Dispatch} {p p' : PhaseRun}
    (h : n.Follows index p.status) (hd : p.Directed nodes index sent p') (hshard : shard < nodes)
    (hkept : n'.shard = n.shard) (hcommands : n'.commands = n.commands ++ sentTo shard sent) :
    n'.Follows index p'.status where
  told hending := by
    cases hopen : p.status.isEnding with
    | true =>
      obtain ⟨-, hclear⟩ := hd.kept hopen
      have hextra : ∀ c ∈ sentTo shard sent, c.concerns index = false :=
        fun c hc => hclear _ (mem_sentTo.mp hc)
      rcases h.told hopen with hawaits | hspent
      · exact .inl (hawaits.told hcommands hextra)
      · exact .inr (hspent.told hkept hcommands hextra)
    | false =>
      rcases hd.ends hopen hending with ⟨-, rfl⟩ | ⟨hfresh, -, rfl⟩
      · rw [sentTo_everyone hshard] at hcommands
        exact .inl ⟨n.commands, [], hcommands, h.untold hopen, nofun⟩
      · exact .inr ((h.unstarted hfresh).told hkept hcommands nofun)
  untold hopen hmem := by
    obtain ⟨hopen, hnot⟩ := hd.untold hopen
    rw [hcommands, List.mem_append] at hmem
    rcases hmem with hmem | hmem
    · exact h.untold hopen hmem
    · exact hnot _ (mem_sentTo.mp hmem) rfl
  unstarted hfresh := by
    obtain ⟨hfresh, hclear⟩ := hd.unstarted hfresh
    exact (h.unstarted hfresh).told hkept hcommands fun c hc => hclear _ (mem_sentTo.mp hc)

end Node

namespace Fleet

variable {f f' : Fleet} {m : Move} {outputs : List Output} {actor : Option Nat}
  {sent : List Dispatch} {index shard : Nat} {p p' : PhaseRun}

/-- Every node is up to what the status of each phase asks for. A phase that is asked about in order
to end it can be ended. -/
structure Tuned (f : Fleet) : Prop where
  follows : ∀ (index : Nat) (p : PhaseRun) (node : Node), f.controller.phases[index]? = some p →
    node ∈ f.nodes → node.Follows index p.status
  known : ∀ node ∈ f.nodes, ∀ c ∈ node.commands, ∀ index, c.concerns index = true →
    index < f.controller.phases.length
  asked : ∀ q, f.inquiry = some q → q.reset = true → f.controller.canTerminate q.index = true

lemma hear_index (q : Inquiry) (shard : Nat) (outputs : List Output) :
    (q.hear shard outputs).index = q.index ∧ (q.hear shard outputs).reset = q.reset := by
  unfold Inquiry.hear
  split <;> exact ⟨rfl, rfl⟩

lemma Sane.spent (h : f.Sane) (hp : f.controller.phases[index]? = some p)
    (hdrained : p.isDrained = true) {node : Node} (hnode : node ∈ f.nodes)
    (hnot : .terminate index ∉ node.commands) : node.Spent index := by
  have hrest := (atRest_iff h index).mpr ((h.balanced index p hp).isDrained_iff.mp hdrained)
  refine ⟨hrest.sessions node hnode, ?_⟩
  intro c hc
  refine Bool.eq_false_iff.mpr fun hconcerns => ?_
  cases c with
  | start phase count =>
    obtain rfl : phase = index := beq_iff_eq.mp hconcerns
    exact hrest.commands node hnode count hc
  | terminate phase =>
    obtain rfl : phase = index := beq_iff_eq.mp hconcerns
    exact hnot hc
  | _ => cases hconcerns

lemma Tuned.step (h : f.Tuned) (hsane : f.Sane) (hbooked : ∀ node ∈ f.nodes, ∃ l, node.Booked l)
    (hstep : Step f actor sent f' outputs) (hout : Harmless outputs) : f'.Tuned := by
  refine ⟨?_, ?_, ?_⟩
  · intro index p' node' hp' hmem
    obtain ⟨shard, node, hnode, -, hcases⟩ := hstep.node_back hsane hmem
    obtain ⟨p, hp, hphase⟩ := hstep.phase_back hp'
    have hnodeMem := List.mem_of_getElem? hnode
    have hfollows := h.follows index p node hp hnodeMem
    obtain ⟨-, hkept, hcommands⟩ | ⟨rfl, -, now, deed, hdoes⟩ := hcases
    · rcases hphase with hd | ⟨rfl, q, sum, hq, rfl, hreset, -, rfl⟩
      · exact hfollows.told_directed hd (List.getElem?_eq_some_iff.mp hnode).1 hkept hcommands
      · have hready := h.asked q hq hreset
        simp only [Controller.canTerminate, hp, Option.any_some, PhaseRun.canTerminate,
          Bool.and_eq_true] at hready
        refine ⟨fun _ => ?_, fun h => (by cases h), fun h => (by cases h)⟩
        cases hopen : p.status.isEnding with
        | true =>
          rcases hfollows.told hopen with hawaits | hspent
          · exact .inl (hawaits.told hcommands (List.forall_mem_nil _))
          · exact .inr (hspent.told hkept hcommands (List.forall_mem_nil _))
        | false =>
          have hspent := hsane.spent hp hready.2 hnodeMem (hfollows.untold hopen)
          exact .inr (hspent.told hkept hcommands (List.forall_mem_nil _))
    · obtain ⟨l, hl⟩ := hbooked node hnodeMem
      rw [hstep.controller_eq, hp, Option.some.injEq] at hp'
      subst hp'
      exact hfollows.does hl hdoes hout
  · intro node' hmem c hc index hconcerns
    obtain ⟨shard, node, hnode, -, hcases⟩ := hstep.node_back hsane hmem
    have hnodeMem := List.mem_of_getElem? hnode
    rw [hstep.phases_length]
    obtain ⟨-, -, hcommands⟩ | ⟨-, -, now, deed, hdoes⟩ := hcases
    · rw [hcommands, List.mem_append] at hc
      rcases hc with hc | hc
      · exact h.known node hnodeMem c hc index hconcerns
      · exact hstep.known _ (mem_sentTo.mp hc) index hconcerns
    · exact h.known node hnodeMem c (hdoes.subset c hc) index hconcerns
  · intro q hq hreset
    cases hstep with
    | directs | concludes => cases hq
    | asks hidle hready =>
      cases hq
      exact hready hreset
    | serves =>
      obtain ⟨old, hold, rfl⟩ := Option.map_eq_some_iff.mp hq
      rw [(hear_index old _ _).2] at hreset
      rw [(hear_index old _ _).1]
      exact h.asked old hold hreset
    | delivers => exact h.asked q hq hreset

lemma new_tuned {settings : Settings} {benchmark : Benchmark} {known : String → Bool}
    {c : Controller} (h : Controller.new settings benchmark known = .ok c) (template : Recorder) :
    (Fleet.new c template).Tuned := by
  obtain ⟨hphases, -⟩ := Controller.new_ok h
  have hclear : ∀ node ∈ (Fleet.new c template).nodes, ∀ command ∈ node.commands, ∀ index,
      command.concerns index = false := by
    intro node hmem command hcommand index
    obtain ⟨shard, -, rfl⟩ := List.mem_map.mp hmem
    have hprepare := preparations_isPrepare hcommand
    cases command with
    | prepare => rfl
    | _ => cases hprepare
  refine ⟨?_, ?_, nofun⟩
  · intro index p node hp hmem
    have hstatus : p.status = .notStarted := by
      change c.phases[index]? = some p at hp
      rw [hphases, List.getElem?_map] at hp
      obtain ⟨phase, -, rfl⟩ := Option.map_eq_some_iff.mp hp
      rfl
    have hspent : node.Spent index := by
      refine ⟨?_, fun command hcommand => hclear node hmem command hcommand index⟩
      obtain ⟨shard, -, rfl⟩ := List.mem_map.mp hmem
      rfl
    rw [hstatus]
    refine ⟨nofun, fun _ hterminate => ?_, fun _ => hspent⟩
    have hother := hclear node hmem _ hterminate index
    rw [Command.concerns, beq_self_eq_true] at hother
    cases hother
  · intro node hmem command hcommand index hconcerns
    rw [hclear node hmem command hcommand index] at hconcerns
    cases hconcerns

theorem Reachable.tuned (h : Reachable f) (hbuilt : f.Built) : f.Tuned := by
  induction h with
  | new h template => exact new_tuned h template
  | move h hm hout ih =>
    obtain ⟨sent, hstep⟩ := h.sane.step hm
    have hbefore := hstep.built_iff.mp hbuilt
    exact (ih hbefore).step h.sane (h.booked hbefore) hstep hout

def IsEnding (f : Fleet) (index : Nat) : Prop :=
  ∃ p, f.controller.phases[index]? = some p ∧ p.status.isEnding = true

lemma IsEnding.step (h : f.IsEnding index) (hstep : Step f actor sent f' outputs) :
    f'.IsEnding index ∧ ∀ d ∈ sent, d.2.concerns index = false := by
  obtain ⟨p, hp, hending⟩ := h
  obtain ⟨p', hp', hcases⟩ := hstep.phase hp
  rcases hcases with hd | ⟨rfl, q, sum, -, -, -, -, rfl⟩
  · obtain ⟨hstatus, hclear⟩ := hd.kept hending
    exact ⟨⟨p', hp', hstatus ▸ hending⟩, hclear⟩
  · exact ⟨⟨_, hp', rfl⟩, nofun⟩

lemma IsEnding.later (h : f.IsEnding index) (hf : Reachable f) (hl : f.Later f') :
    f'.IsEnding index := by
  induction hl with
  | refl => exact h
  | move hl hm hout ih =>
    obtain ⟨sent, hstep⟩ := (hf.later hl).sane.step hm
    exact (ih.step hstep).1

lemma Step.isEnding (hstep : Step f actor sent f' outputs)
    (hmem : (shard, .terminate index) ∈ sent) : f'.IsEnding index := by
  have hlt := hstep.known _ hmem index (beq_self_eq_true index)
  obtain ⟨p', hp', hcases⟩ := hstep.phase (List.getElem?_eq_getElem hlt)
  refine ⟨p', hp', ?_⟩
  rcases hcases with hd | ⟨rfl, -⟩
  · refine Bool.eq_true_of_not_eq_false fun hopen => ?_
    exact (hd.untold hopen).2 _ hmem rfl
  · cases hmem

lemma Step.quiet (hstep : Step f actor sent f' outputs) {d : Dispatch} (hmem : d ∈ sent) :
    outputs = [] := by
  cases hstep with
  | serves => cases hmem
  | _ => rfl

lemma mem_sent {c : Command} (hstep : Step f actor sent f' outputs) (h : f.Sane)
    (hmem : c ∈ f.sent f' shard) : (shard, c) ∈ sent := by
  by_cases hlt : shard < f.nodes.length
  · rw [hstep.sent_eq h hlt] at hmem
    exact mem_sentTo.mp hmem
  · rw [Fleet.sent, List.getElem?_eq_none (Nat.le_of_not_lt hlt)] at hmem
    cases hmem

end Fleet

/-- What a shard keeps of a phase that is over: what it had, with no one live in it. What was
recorded may be forgotten on demand, and nothing comes to it. -/
structure Shard.Rests (s s' : Shard) (phase : Nat) : Prop where
  alive : s'.alive phase = 0
  lane : ∀ lane, s.lanes.get? phase = some lane →
    ∃ resets, s'.lanes.get? phase = some (Lane.reset^[resets] lane)

namespace Node

variable {n n' n'' : Node} {now : Nanos} {deed : Deed} {outputs : List Output} {index : Nat}

structure Over (n : Node) (index : Nat) : Prop extends n.Spent index where
  plain : ∀ c ∈ n.commands, c.isPlain = true

lemma Over.not_opens (h : n.Over index) (hdoes : n.Does now deed n' outputs) :
    deed.opens index = false := by
  cases deed with
  | command c =>
    have hplain := h.plain c hdoes.mem
    have hclear := h.clear c hdoes.mem
    cases c with
    | prepare => cases hplain
    | start phase count => exact hclear
    | _ => rfl
  | _ => rfl

lemma Over.does (h : n.Over index) (hdoes : n.Does now deed n' outputs) (hout : Harmless outputs) :
    n'.Over index ∧ n.shard.Rests n'.shard index ∧ endsIn index (noticesOf outputs) = 0 := by
  obtain ⟨hspent, hends⟩ := h.toSpent.does hdoes hout
  refine ⟨⟨hspent, fun c hc => h.plain c (hdoes.subset c hc)⟩, ⟨hspent.idle, ?_⟩, hends⟩
  intro lane hlane
  rw [hdoes.shard]
  rcases n.shard.perform_idle h.idle (h.not_opens hdoes) now with hkept | ⟨before, hbefore, hreset⟩
  · exact ⟨0, hkept.trans hlane⟩
  · rw [hlane, Option.some.injEq] at hbefore
    subst hbefore
    exact ⟨1, hreset⟩

end Node

lemma Shard.Rests.trans {s s' s'' : Shard} {phase : Nat} (h : s.Rests s' phase)
    (h' : s'.Rests s'' phase) : s.Rests s'' phase := by
  refine ⟨h'.alive, fun lane hlane => ?_⟩
  obtain ⟨a, ha⟩ := h.lane lane hlane
  obtain ⟨b, hb⟩ := h'.lane _ ha
  exact ⟨b + a, hb.trans (congrArg some (Function.iterate_add_apply _ b a lane).symm)⟩

namespace Fleet

variable {f f' : Fleet} {m : Move} {outputs : List Output} {index shard : Nat} {node : Node}

lemma Later.over (hl : f.Later f') (h : Reachable f) (hending : f.IsEnding index)
    (hnode : f.nodes[shard]? = some node) (hover : node.Over index) :
    ∃ node', f'.nodes[shard]? = some node' ∧ node'.Over index ∧
      node.shard.Rests node'.shard index := by
  induction hl with
  | refl => exact ⟨node, hnode, hover, hover.idle, fun lane hlane => ⟨0, hlane⟩⟩
  | @move f₁ f₂ m outputs hl hm hout ih =>
    obtain ⟨node₁, hnode₁, hover₁, hrests⟩ := ih
    have hsane := (h.later hl).sane
    obtain ⟨sent, hstep⟩ := hsane.step hm
    obtain ⟨-, hclear⟩ := (hending.later h hl).step hstep
    obtain ⟨node₂, hnode₂, hcases⟩ := hstep.node hsane hnode₁
    refine ⟨node₂, hnode₂, ?_⟩
    obtain ⟨-, hkept, hcommands⟩ | ⟨-, -, now, deed, hdoes⟩ := hcases
    · have hspent := hover₁.toSpent.told hkept hcommands fun c hc => hclear _ (mem_sentTo.mp hc)
      refine ⟨⟨hspent, ?_⟩, hspent.idle, fun lane hlane => ?_⟩
      · rw [hcommands]
        exact List.forall_mem_append.mpr
          ⟨hover₁.plain, fun c hc => hstep.plain hsane _ (mem_sentTo.mp hc)⟩
      · rw [hkept]
        exact hrests.lane lane hlane
    · obtain ⟨hover₂, hrests₂, -⟩ := hover₁.does hdoes hout
      exact ⟨hover₂, hrests.trans hrests₂⟩

/-- A phase is ended by force: once, for good and without a trace. -/
structure EndsByForce (f : Fleet) : Prop where
  /-- After a node was told to end a phase, nothing is sent that would start a session of it. -/
  irrevocable : ∀ (m : Move) (f₁ : Fleet) (outputs : List Output) (shard index : Nat),
    f.move m = some (f₁, outputs) → .terminate index ∈ f.sent f₁ shard →
    ∀ (f₂ f₃ : Fleet) (m' : Move) (outputs' : List Output), f₁.Later f₂ →
      f₂.move m' = some (f₃, outputs') → ∀ (i : Nat), ∀ c ∈ f₂.sent f₃ i, c.concerns index = false
  /-- A node that looks at what it was told gives every live session of the phase up, and tells so
  of each. It has none at any later time, and tells of no end again. -/
  complete : ∀ (shard index : Nat) (now : Nanos) (node : Node) (rest : List Command) (f₁ : Fleet)
    (outputs : List Output), f.nodes[shard]? = some node →
    node.commands = .terminate index :: rest → f.move (.command shard now) = some (f₁, outputs) →
    ∃ node₁, f₁.nodes[shard]? = some node₁ ∧
      node.shard.Dismisses index node₁.shard outputs ∧
      ∀ f₂ : Fleet, f₁.Later f₂ → ∃ node₂, f₂.nodes[shard]? = some node₂ ∧
        node₁.shard.Rests node₂.shard index ∧
        ∀ (m : Move) (f₃ : Fleet) (outputs' : List Output), m.shard? = some shard →
          f₂.move m = some (f₃, outputs') → Harmless outputs' →
            endsIn index (noticesOf outputs') = 0
  /-- Each session gives back just the request slots that it has. -/
  own : ∀ node ∈ f.nodes, ∀ (index slot : Nat) (lane : Lane) (now : Nanos),
    node.shard.lanes.get? index = some lane → lane.sessions.isAcquired slot = true →
    node.shard.Sheds index [slot] (node.shard.visit now index slot fun _ => Turn.terminate).1 ∧
      (node.shard.visit now index slot fun _ => Turn.terminate).2 =
        [.notice (.ended index node.shard.id .terminated)]
  /-- Where no session of the phase is live, there is nothing to end. -/
  again : ∀ node ∈ f.nodes, ∀ (index : Nat) (now : Nanos), node.shard.alive index = 0 →
    node.shard.terminate now index = (node.shard, [])
  /-- A session that is not live cannot be ended. -/
  idle : ∀ t : Turn, t.session.state.isLive = false → t.terminate = (t, .alive)
  /-- When nothing is under way, the phase has come to its end. -/
  drained : ∀ (index : Nat) (p : PhaseRun), f.controller.phases[index]? = some p →
    p.status = .terminating → (∀ node ∈ f.nodes, node.commands = []) → f.notices = [] →
    f.controller.canTerminate index = true

lemma Reachable.canTerminate (h : Reachable f) (hbuilt : f.Built) {p : PhaseRun}
    (hp : f.controller.phases[index]? = some p) (hstatus : p.status = .terminating)
    (hcommands : ∀ node ∈ f.nodes, node.commands = []) (hnotices : f.notices = []) :
    f.controller.canTerminate index = true := by
  have hspent : ∀ node ∈ f.nodes, node.Spent index := by
    intro node hmem
    have hfollows := (h.tuned hbuilt).follows index p node hp hmem
    rcases hfollows.told (by rw [hstatus]; rfl) with ⟨before, after, hqueue, -⟩ | hspent
    · rw [hcommands node hmem] at hqueue
      simp at hqueue
    · exact hspent
  have hrest : f.AtRest index := by
    refine ⟨fun node hmem => (hspent node hmem).idle, ?_, ?_, ?_⟩
    · intro node hmem count hstart
      rw [hcommands node hmem] at hstart
      cases hstart
    · simp [hnotices]
    · simp [hnotices]
  have hdrained := (h.sane.balanced index p hp).isDrained_iff.mpr
    ((atRest_iff h.sane index).mp hrest)
  simp only [Controller.canTerminate, hp, Option.any_some, PhaseRun.canTerminate, hstatus, hdrained]
  rfl

lemma Reachable.dismisses (h : Reachable f) (hbuilt : f.Built)
    (hnode : f.nodes[shard]? = some node) {rest : List Command}
    (hqueue : node.commands = .terminate index :: rest) {now : Nanos}
    (hm : f.move (.command shard now) = some (f', outputs)) :
    ∃ node', f'.nodes[shard]? = some node' ∧
      node.shard.Dismisses index node'.shard outputs ∧ node'.Over index ∧ f'.IsEnding index := by
  have hmem := List.mem_of_getElem? hnode
  have htuned := h.tuned hbuilt
  obtain ⟨l, hbooked⟩ := h.booked hbuilt node hmem
  have hhead : .terminate index ∈ node.commands := hqueue ▸ List.mem_cons_self
  have hlt := htuned.known node hmem _ hhead index (beq_self_eq_true index)
  have hp := List.getElem?_eq_getElem hlt
  have hfollows := htuned.follows index _ node hp hmem
  have hending := Bool.eq_true_of_not_eq_false fun hopen => hfollows.untold hopen hhead
  have hplain : ∀ c ∈ node.commands, c.isPlain = true := by
    obtain ⟨preparations, later, hsplit, hprepare, hplain, -⟩ := (h.sane.orderly node hmem).queue
    cases preparations with
    | nil =>
      rw [hsplit]
      exact hplain
    | cons c preparations =>
      rw [hqueue, List.cons_append] at hsplit
      have hfirst := hprepare c List.mem_cons_self
      rw [← (List.cons.inj hsplit).1] at hfirst
      cases hfirst
  have hclear : ∀ c ∈ rest, c.concerns index = false := by
    rcases hfollows.told hending with ⟨before, after, hsplit, hnot, hclear⟩ | hspent
    · rw [hqueue] at hsplit
      cases before with
      | nil => exact (List.cons.inj hsplit).2 ▸ hclear
      | cons c before =>
        rw [← (List.cons.inj hsplit).1] at hnot
        exact absurd List.mem_cons_self hnot
    · have hother := hspent.clear _ hhead
      rw [Command.concerns, beq_self_eq_true] at hother
      cases hother
  have hcommand := Node.command?_cons (h.sane.up node hmem) hqueue (by simp) now
  have hdismisses := hbooked.run.terminate_dismisses now index
  simp only [Fleet.move, serve, hnode, hcommand, Option.bind_eq_bind, Option.bind_some,
    Option.some.injEq, Prod.mk.injEq] at hm
  obtain ⟨rfl, rfl⟩ := hm
  refine ⟨_, List.getElem?_set_self (List.getElem?_eq_some_iff.mp hnode).1, hdismisses,
    ⟨⟨hdismisses.alive, hclear⟩, fun c hc => hplain c (hqueue ▸ List.mem_cons_of_mem _ hc)⟩, ?_⟩
  exact ⟨_, hp, hending⟩

theorem Reachable.endsByForce (h : Reachable f) (hbuilt : f.Built) : f.EndsByForce where
  irrevocable m f₁ outputs shard index hm hterminate f₂ f₃ m' outputs' hl hm' i c hc := by
    obtain ⟨sent, hstep⟩ := h.sane.step hm
    have hsent := mem_sent hstep h.sane hterminate
    have h₁ : Reachable f₁ := h.move hm (hstep.quiet hsent ▸ nofun)
    have hsane := (h₁.later hl).sane
    obtain ⟨sent', hstep'⟩ := hsane.step hm'
    obtain ⟨-, hclear⟩ := ((hstep.isEnding hsent).later h₁ hl).step hstep'
    exact hclear _ (mem_sent hstep' hsane hc)
  complete shard index now node rest f₁ outputs hnode hqueue hm := by
    obtain ⟨node₁, hnode₁, hdismisses, hover, hending⟩ := h.dismisses hbuilt hnode hqueue hm
    have h₁ : Reachable f₁ := h.move hm hdismisses.harmless
    refine ⟨node₁, hnode₁, hdismisses, fun f₂ hl => ?_⟩
    obtain ⟨node₂, hnode₂, hover₂, hrests⟩ := hl.over h₁ hending hnode₁ hover
    refine ⟨node₂, hnode₂, hrests, fun m f₃ outputs' hactor hm' hout => ?_⟩
    have hsane := (h₁.later hl).sane
    obtain ⟨sent, hstep⟩ := hsane.step hm'
    obtain ⟨node₃, -, ⟨hnot, -⟩ | ⟨-, -, now', deed, hdoes⟩⟩ := hstep.node hsane hnode₂
    · exact absurd hactor hnot
    · exact (hover₂.does hdoes hout).2.2
  own node hmem index slot lane now hlane hheld := by
    obtain ⟨l, hbooked⟩ := h.booked hbuilt node hmem
    exact hbooked.run.visit_terminate hlane hheld now
  again node hmem index now hidle := Shard.terminate_of_idle hidle now
  idle t hdead := Turn.terminate_of_not_live hdead
  drained index p hp hstatus hcommands hnotices :=
    h.canTerminate hbuilt hp hstatus hcommands hnotices

def errandsPhase : Phase := .simple "errands" errand (.atOnce 2)

def errandsStart : Controller where
  settings := .default 1
  name := "errands"
  phases := [.new errandsPhase 1]
  startedAt := none
  fault := none

def errandsMoves : List Move := [.command 0 0, .start 0 0, .command 0 0, .terminate 0 3]

def errandsFleet : Fleet := (new errandsStart (.empty .default)).go errandsMoves

lemma errandsStart_built : (new errandsStart (.empty .default)).Built := by
  intro p hp
  obtain rfl := List.mem_singleton.mp hp
  exact ⟨errandDraft, errand_built⟩

lemma errandsFleet_reachable : Reachable errandsFleet ∧ errandsFleet.Built := by
  have hnew : Controller.new (.default 1) ⟨"errands", [errandsPhase]⟩ (fun _ => true) =
      .ok errandsStart := rfl
  have hreachable := Reachable.new hnew (.empty .default)
  have hlater := Later.go (new errandsStart (.empty .default)) errandsMoves
  exact ⟨hreachable.later hlater, hlater.built hreachable errandsStart_built⟩

theorem errandsFleet_endsByForce : Reachable errandsFleet ∧ errandsFleet.Built ∧
    errandsFleet.EndsByForce ∧ errandsFleet.alive 0 = 2 ∧
    (errandsFleet.move (.command 0 4)).map (fun out => (out.1.alive 0, noticesOf out.2)) =
      some (0, [.ended 0 0 .terminated, .ended 0 0 .terminated]) := by
  obtain ⟨hreachable, hbuilt⟩ := errandsFleet_reachable
  exact ⟨hreachable, hbuilt, hreachable.endsByForce hbuilt, by decide +kernel, by decide +kernel⟩

end Fleet

end LoadEngine
