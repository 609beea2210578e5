import LoadEngine.Proofs.SlotLog

/-! What the shards of a fleet have to do for a phase, shard by shard, while no contract is broken:
the starts that a shard was sent and has not looked at, its live sessions, and the ends that it told
and the controller has not looked at. Only the starts that the phase asks for add to it. -/

namespace LoadEngine

def endedOn (index shard : Nat) (notices : List Notice) : Nat :=
  notices.countP fun n =>
    match n with
    | .ended phase i _ => phase == index && i == shard
    | _ => false

@[simp] lemma endedOn_append (index shard : Nat) (a b : List Notice) :
    endedOn index shard (a ++ b) = endedOn index shard a + endedOn index shard b :=
  List.countP_append

lemma endedOn_ended (index shard : Nat) (how : SessionEnd) :
    endedOn index shard [.ended index shard how] = 1 := by simp [endedOn]

lemma endedOn_le_endsIn (index shard : Nat) (notices : List Notice) :
    endedOn index shard notices ≤ endsIn index notices := by
  induction notices with
  | nil => exact le_rfl
  | cons n rest ih =>
    have hone : endedOn index shard [n] ≤ n.endsIn index := by
      cases n with
      | ended phase i how =>
        simp only [endedOn, Notice.endsIn, List.countP_singleton, Bool.and_eq_true, beq_iff_eq]
        split_ifs with h h'
        · exact le_rfl
        · exact absurd h.1 h'
        · exact Nat.zero_le _
        · exact Nat.zero_le _
      | started | fault => exact Nat.zero_le _
    rw [← List.singleton_append, endedOn_append]
    exact Nat.add_le_add hone ih

lemma endedOn_of_other {index shard id : Nat} (hid : id ≠ shard) {notices : List Notice}
    (h : ∀ n ∈ notices, n.shard = id) : endedOn index shard notices = 0 := by
  refine List.countP_eq_zero.mpr fun n hn => ?_
  have hfrom := h n hn
  cases n with
  | ended phase i how =>
    obtain rfl : i = id := hfrom
    simp [hid]
  | started | fault => exact Bool.false_ne_true

def dealtTo (shard : Nat) (starts : Starts) : Nat :=
  ((starts.filter fun s => s.1 == shard).map Prod.snd).sum

lemma dealtTo_cons (shard : Nat) (s : Nat × Nat) (starts : Starts) :
    dealtTo shard (s :: starts) = (if s.1 = shard then s.2 else 0) + dealtTo shard starts := by
  unfold dealtTo
  rw [List.filter_cons]
  by_cases h : s.1 = shard
  · simp [h]
  · simp [h]

lemma dealtTo_pos {shard : Nat} {starts : Starts} (h : 0 < dealtTo shard starts) :
    ∃ count, (shard, count) ∈ starts := by
  induction starts with
  | nil => cases h
  | cons s rest ih =>
    rw [dealtTo_cons] at h
    split at h
    · rename_i hs
      exact ⟨s.2, hs ▸ List.mem_cons_self⟩
    · rw [Nat.zero_add] at h
      obtain ⟨count, hmem⟩ := ih h
      exact ⟨count, List.mem_cons_of_mem _ hmem⟩

lemma startsIn_sentTo (index shard : Nat) (sent : List Dispatch) :
    startsIn index (sentTo shard sent) = dealtTo shard (startsOf index sent) := by
  induction sent with
  | nil => rfl
  | cons d rest ih =>
    obtain ⟨i, c⟩ := d
    have hsplit : startsOf index ((i, c) :: rest) =
        startsOf index [(i, c)] ++ startsOf index rest := List.filterMap_append (l := [(i, c)])
    rw [sentTo_cons, startsIn_append, ih, hsplit]
    cases c with
    | start phase count =>
      by_cases hp : phase = index
      · simp only [startsOf, List.filterMap_cons, List.filterMap_nil, if_pos hp,
          List.singleton_append, dealtTo_cons]
        split
        · simp [startsIn, Command.startsIn, hp]
        · rfl
      · simp only [startsOf, List.filterMap_cons, List.filterMap_nil, if_neg hp, List.nil_append]
        split
        · simp [startsIn, Command.startsIn, hp]
        · exact Nat.zero_add _
    | prepare | terminate | collect | shutdown =>
      simp only [startsOf, List.filterMap_cons, List.filterMap_nil, List.nil_append]
      split
      · exact Nat.zero_add _
      · exact Nat.zero_add _

namespace PhaseRun

variable {p p' : PhaseRun} {index : Nat} {heard : Option Notice} {starts : Starts}

lemma Acts.takers (h : p.Acts index heard starts p') : ∀ s ∈ starts, 0 < p.shareOf s.1 := by
  have hissue (q : PhaseRun) (count : Nat) (hq : q.shares = p.shares) :
      ∀ s ∈ (q.issue count).2, 0 < p.shareOf s.1 := by
    intro s hs
    simp only [issue] at hs
    split at hs
    · cases hs
    · have htaker := (List.mem_filter.mp (mem_dealOut hs).1).2
      rw [shareOf, hq] at htaker
      exact of_decide_eq_true htaker
  have hissueOn (q : PhaseRun) (shard count : Nat) (hq : q.shares = p.shares) :
      ∀ s ∈ (q.issueOn shard count).2, 0 < p.shareOf s.1 := by
    intro s hs
    simp only [issueOn] at hs
    split at hs
    · cases hs
    · rename_i hroom
      have hshare := (not_or.mp hroom).2
      rw [shareOf, hq] at hshare
      rw [List.mem_singleton.mp hs]
      exact Nat.pos_of_ne_zero hshare
  cases h with
  | rests | finishes | closes | hears => exact List.forall_mem_nil _
  | starts h =>
    obtain ⟨-, -, rfl⟩ := start_eq_ok h
    exact hissue { p with startedAt := some _, status := .running } _ rfl
  | ticks now =>
    unfold tick
    split
    · cases p.phase.arrivals with
      | none => exact List.forall_mem_nil _
      | some curve =>
        simp only [startOwed]
        split
        · exact List.forall_mem_nil _
        · exact hissue { p with accounted := _ } _ rfl
    · exact List.forall_mem_nil _
  | replaces shard how now =>
    unfold onEnded
    simp only
    split
    · unfold replace
      simp only
      split
      · exact hissueOn { p with counters := _ } _ _ rfl
      · exact hissueOn { p with counters := _ } _ _ rfl
      · split
        · exact hissueOn { p with counters := _, throttled := _ } _ _ rfl
        · exact List.forall_mem_nil _
    · exact List.forall_mem_nil _

inductive Goes (p : PhaseRun) (index : Nat) : Option Notice → Starts → PhaseRun → Prop
  | acts {heard : Option Notice} {starts : Starts} {p' : PhaseRun}
      (h : p.Acts index heard starts p') : Goes p index heard starts p'
  | completes (statistics : StatisticsSet) (maxUsed : Nat) :
      Goes p index none [] (p.complete statistics maxUsed)

lemma Goes.kept (h : p.Goes index heard starts p') : p'.phase = p.phase ∧ p'.shares = p.shares := by
  cases h with
  | acts h =>
    obtain ⟨hphase, hshares, -⟩ := h.kept
    exact ⟨hphase, hshares⟩
  | completes => exact ⟨rfl, rfl⟩

lemma Goes.takers (h : p.Goes index heard starts p') : ∀ s ∈ starts, 0 < p.shareOf s.1 := by
  cases h with
  | acts h => exact h.takers
  | completes => exact nofun

end PhaseRun

namespace Fleet

variable {f f' : Fleet} {m : Move} {outputs : List Output} {index shard : Nat} {p p' : PhaseRun}

def load (f : Fleet) (index shard : Nat) : Nat :=
  (f.nodes[shard]?.elim 0 fun node => startsIn index node.commands + node.shard.alive index) +
    endedOn index shard f.notices

structure Placed (f : Fleet) : Prop where
  ids : ∀ (i : Nat) (node : Node), f.nodes[i]? = some node → node.shard.id = i
  told : ∀ n ∈ f.notices, n.shard < f.nodes.length

end Fleet

namespace Shard

variable (s : Shard) (now : Nanos) (deed : Deed)

lemma perform_id : (s.perform now deed).1.id = s.id := by
  obtain ⟨index, hindex⟩ : ∃ index, deed.seats index = false := by
    unfold Deed.seats
    split
    · exact ⟨_ + 1, beq_eq_false_iff_ne.mpr (Nat.ne_of_lt (Nat.lt_succ_self _))⟩
    · exact ⟨_ + 1, beq_eq_false_iff_ne.mpr (Nat.ne_of_lt (Nat.lt_succ_self _))⟩
    · exact ⟨_ + 1, beq_eq_false_iff_ne.mpr (Nat.ne_of_lt (Nat.lt_succ_self _))⟩
    · exact ⟨0, rfl⟩
  exact (perform_recedes hindex s now).id

lemma perform_told : ∀ n ∈ noticesOf (s.perform now deed).2, n.shard = s.id := by
  by_cases hstart : ∃ phase count, deed = .command (.start phase count)
  · obtain ⟨phase, count, rfl⟩ := hstart
    have hwave := s.launch_unasked now phase count
    change ∀ n ∈ noticesOf (s.start now phase count).2, n.shard = s.id
    simp only [start, noticesOf_append, noticesOf_notice, noticesOf_ends]
    intro n hn
    rcases List.mem_append.mp hn with hn | hn
    · exact (hwave n hn).2
    · rcases List.mem_cons.mp hn with rfl | hn
      · rfl
      · obtain ⟨how, -, rfl⟩ := List.mem_map.mp hn
        rfl
  · push Not at hstart
    exact fun n hn => (perform_unasked hstart s now n hn).2

end Shard

namespace Fleet

variable {f f' : Fleet} {m : Move} {outputs : List Output} {index shard : Nat} {p p' : PhaseRun}
  {sent : List Dispatch}

inductive Turns (f : Fleet) (index : Nat) (p : PhaseRun) (f' : Fleet) (p' : PhaseRun) : Prop
  | goes {heard : Option Notice} {rest : List Notice} {starts : Starts}
      (hgoes : p.Goes index heard starts p') (hnotices : f.notices = heard.toList ++ rest)
      (hrest : f'.notices = rest) (halive : f'.alive index = f.alive index)
      (hload : ∀ i, f'.load index i + endedOn index i heard.toList ≤
        f.load index i + dealtTo i starts)
  | serves {shard : Nat} {now : Nanos} {deed : Deed} {node node' : Node} {outputs : List Output}
      (hsame : p' = p) (hnode : f.nodes[shard]? = some node)
      (ha : node.Acted now deed node' outputs)
      (hnotices : f'.notices = f.notices ++ noticesOf (node.shard.perform now deed).2)
      (hbalance : f.alive index + startedIn index (noticesOf (node.shard.perform now deed).2) =
        f'.alive index + endsIn index (noticesOf (node.shard.perform now deed).2))
      (hfirst : ∀ n ∈ (noticesOf (node.shard.perform now deed).2).tail, n.isStart = false)
      (hload : ∀ i, f'.load index i ≤ f.load index i)

lemma Turns.unheard (hnotices : f'.notices = f.notices) (halive : f'.alive index = f.alive index)
    (hload : ∀ i, f'.load index i ≤ f.load index i) : Turns f index p f' p := by
  have hrests : p.Goes index none [] p := .acts (.rests nofun)
  exact .goes hrests rfl hnotices halive hload

lemma dispatch_alive (f : Fleet) (sent : List Dispatch) (index : Nat) :
    (f.dispatch sent).alive index = f.alive index := by
  unfold Fleet.alive
  refine congrArg List.sum (List.ext_getElem? fun i => ?_)
  rw [List.getElem?_map, List.getElem?_map]
  cases hnode : f.nodes[i]? with
  | none =>
    have hge := List.getElem?_eq_none_iff.mp hnode
    rw [← (f.dispatch_frame sent).2.2.2] at hge
    rw [List.getElem?_eq_none hge]
  | some node =>
    obtain ⟨extra, -, -, hnode'⟩ := dispatch_node hnode sent
    rw [hnode']
    rfl

lemma dispatch_load (f : Fleet) (sent : List Dispatch) (index i : Nat) :
    (f.dispatch sent).load index i ≤ f.load index i + dealtTo i (startsOf index sent) := by
  unfold load
  rw [(f.dispatch_frame sent).2.1]
  cases hnode : f.nodes[i]? with
  | none =>
    have hge := List.getElem?_eq_none_iff.mp hnode
    rw [← (f.dispatch_frame sent).2.2.2] at hge
    rw [List.getElem?_eq_none hge]
    exact Nat.le_add_right _ _
  | some node =>
    obtain ⟨extra, ⟨more, hmore⟩, -, hnode'⟩ := dispatch_node hnode sent
    have hsent := startsIn_sentTo index i sent
    rw [← hmore, startsIn_append] at hsent
    simp only [hnode', Option.elim_some, Node.enqueue, startsIn_append]
    omega

lemma Placed.serves_load (h : f.Placed) {now : Nanos} {deed : Deed} {node node' : Node}
    (hnode : f.nodes[shard]? = some node)
    (hserves : node.Serves node' (noticesOf (node.shard.perform now deed).2)) (i : Nat)
    (hnodes : f'.nodes = f.nodes.set shard node')
    (hnotices : f'.notices = f.notices ++ noticesOf (node.shard.perform now deed).2) :
    f'.load index i ≤ f.load index i := by
  have hlt := (List.getElem?_eq_some_iff.mp hnode).1
  unfold load
  rw [hnodes, hnotices, endedOn_append]
  by_cases hi : shard = i
  · subst hi
    have hanswered := hserves.answered index
    have hbalance := hserves.balance index
    have hstarted := startedIn_le_answersIn index (noticesOf (node.shard.perform now deed).2)
    have hends := endedOn_le_endsIn index shard (noticesOf (node.shard.perform now deed).2)
    simp only [List.getElem?_set_self hlt, hnode, Option.elim_some]
    omega
  · have htold := node.shard.perform_told now deed
    rw [h.ids shard node hnode] at htold
    rw [List.getElem?_set_ne hi, endedOn_of_other hi htold]
    exact le_rfl

lemma serves_alive {node node' : Node} {told : List Notice} (hnode : f.nodes[shard]? = some node)
    (hserves : node.Serves node' told) (hnodes : f'.nodes = f.nodes.set shard node') :
    f.alive index + startedIn index told = f'.alive index + endsIn index told := by
  have hbalance := hserves.balance index
  have hsum := sum_map_set (fun node : Node => node.shard.alive index) hnode node'
  simp only [Fleet.alive, hnodes] at hsum ⊢
  omega

lemma deliver_alive (f : Fleet) (shard : Nat) (events : List Event) (index : Nat) :
    Fleet.alive { f with nodes := f.nodes.modify shard fun node => node.deliver events } index =
      f.alive index := by
  have hkept (node : Node) : (node.deliver events).shard.alive index = node.shard.alive index := by
    rw [(deliver_frame node events).2.1]
  unfold Fleet.alive
  refine congrArg List.sum (List.ext_getElem? fun i => ?_)
  rw [List.getElem?_map, List.getElem?_map]
  exact deliver_map hkept f.nodes shard i

lemma elim_eq_map (found : Option Node) (index : Nat) :
    (found.elim 0 fun node => startsIn index node.commands + node.shard.alive index) =
      (found.map fun node => startsIn index node.commands + node.shard.alive index).getD 0 := by
  cases found <;> rfl

lemma deliver_load (f : Fleet) (shard : Nat) (events : List Event) (index i : Nat) :
    load { f with nodes := f.nodes.modify shard fun node => node.deliver events } index i =
      f.load index i := by
  have hkept (node : Node) : startsIn index (node.deliver events).commands +
      (node.deliver events).shard.alive index =
      startsIn index node.commands + node.shard.alive index := by
    rw [(deliver_frame node events).1, (deliver_frame node events).2.1]
  unfold load
  rw [elim_eq_map, elim_eq_map, deliver_map hkept]

lemma ask_map {β : Type} {g : Node → β} {phase : Nat} {reset : Bool}
    (hg : ∀ node : Node, g (node.enqueue [.collect phase reset]) = g node) (f : Fleet) (i : Nat) :
    (f.ask phase reset).nodes[i]?.map g = f.nodes[i]?.map g := by
  rw [ask_node, Option.map_map]
  refine congrArg (Option.map · f.nodes[i]?) (funext fun node => ?_)
  rw [Function.comp_apply]
  split
  · exact hg node
  · simp [Node.enqueue]

lemma ask_alive (f : Fleet) (phase : Nat) (reset : Bool) (index : Nat) :
    (f.ask phase reset).alive index = f.alive index := by
  unfold Fleet.alive
  refine congrArg List.sum (List.ext_getElem? fun i => ?_)
  rw [List.getElem?_map, List.getElem?_map]
  exact ask_map (fun _ => rfl) f i

lemma ask_load (f : Fleet) (phase : Nat) (reset : Bool) (index i : Nat) :
    (f.ask phase reset).load index i = f.load index i := by
  have hkept (node : Node) : startsIn index (node.enqueue [.collect phase reset]).commands +
      (node.enqueue [.collect phase reset]).shard.alive index =
      startsIn index node.commands + node.shard.alive index := by
    rw [Node.enqueue, startsIn_append]
    rfl
  unfold load
  rw [elim_eq_map, elim_eq_map, ask_map hkept]
  rfl

lemma Reachable.turns (h : Reachable f) (hplaced : f.Placed) (hm : f.move m = some (f', outputs))
    (hout : Harmless outputs) (hp' : f'.controller.phases[index]? = some p') :
    ∃ p, f.controller.phases[index]? = some p ∧ Turns f index p f' p' := by
  have hpasses := move_passes hm
  generalize f.deed? m = deed at hpasses
  cases hpasses with
  | @governs c heard rest sent hidle hnotices hd hg =>
    obtain ⟨hcontroller, hrest, -, -⟩ :=
      Fleet.dispatch_frame { f with controller := c, notices := rest } sent
    rw [hcontroller] at hp'
    obtain ⟨p, hp, hacts, -⟩ := hg.back hd hp'
    refine ⟨p, hp, .goes (.acts hacts) hnotices hrest (dispatch_alive _ sent index) fun i => ?_⟩
    have hload := dispatch_load { f with controller := c, notices := rest } sent index i
    have hbefore : f.load index i = load { f with controller := c, notices := rest } index i +
        endedOn index i heard.toList := by
      simp only [load, hnotices, endedOn_append]
      omega
    omega
  | @asks i reset hidle hready =>
    exact ⟨p', hp', .unheard rfl (ask_alive f i reset index) fun k =>
      (ask_load f i reset index k).le⟩
  | @concludes q sum hq hsum =>
    obtain ⟨p, hp, ⟨rfl, -⟩ | ⟨-, -, rfl⟩⟩ := concluded_back hp'
    · exact ⟨p', hp, .unheard rfl rfl fun _ => le_rfl⟩
    · exact ⟨p, hp, .goes (.completes _ _) rfl rfl rfl fun _ => le_rfl⟩
  | @serves shard now deed node node' outputs hnode hacts =>
    have hmem := List.mem_of_getElem? hnode
    have hserves := hacts.serves (h.sane.orderly node hmem) hout
    obtain rfl := hacts.told
    refine ⟨p', hp', .serves rfl hnode (hacts.acted fun hcrash => nomatch hout _ hcrash) rfl
      (serves_alive hnode hserves rfl) hserves.first fun i => ?_⟩
    exact hplaced.serves_load hnode hserves i rfl rfl
  | delivers shard events =>
    exact ⟨p', hp', .unheard rfl (deliver_alive f shard events index) fun i =>
      (deliver_load f shard events index i).le⟩

theorem Reachable.placed (h : Reachable f) : f.Placed := by
  -- Nodes keep their numbers, and what they tell bears them.
  induction h with
  | @new settings benchmark known c h template =>
    refine ⟨fun i node hnode => ?_, nofun⟩
    simp only [Fleet.new, List.getElem?_map] at hnode
    obtain ⟨k, hk, rfl⟩ := Option.map_eq_some_iff.mp hnode
    obtain ⟨-, rfl⟩ := List.getElem?_eq_some_iff.mp hk
    exact List.getElem_range ..
  | @move f f' m outputs h hm hout ih =>
    have hpasses := move_passes hm
    generalize f.deed? m = deed at hpasses
    have hdispatch (f₁ : Fleet) (sent : List Dispatch) (hnodes : f₁.nodes = f.nodes) (i : Nat)
        (node' : Node) (hnode' : (f₁.dispatch sent).nodes[i]? = some node') :
        node'.shard.id = i := by
      obtain ⟨node, extra, hnode, -, rfl⟩ := dispatch_node_back hnode'
      exact ih.ids i node (hnodes ▸ hnode)
    cases hpasses with
    | @governs c heard rest sent hidle hnotices hd hg =>
      obtain ⟨-, hrest, -, hlength⟩ :=
        Fleet.dispatch_frame { f with controller := c, notices := rest } sent
      refine ⟨hdispatch _ sent rfl, ?_⟩
      rw [hrest, hlength]
      intro n hn
      exact ih.told n (hnotices ▸ List.mem_append_right _ hn)
    | asks =>
      refine ⟨fun i node' hnode' => ?_, fun n hn => ?_⟩
      · obtain ⟨node, extra, hnode, -, rfl⟩ := ask_node_back hnode'
        exact ih.ids i node hnode
      · exact (List.length_map _).symm ▸ ih.told n hn
    | concludes => exact ⟨ih.ids, ih.told⟩
    | @serves shard now deed node node' outputs hnode hacts =>
      have hlt := (List.getElem?_eq_some_iff.mp hnode).1
      have hid := ih.ids shard node hnode
      refine ⟨fun i n hn => ?_, ?_⟩
      · obtain ⟨rfl, rfl⟩ | ⟨-, hn⟩ := getElem?_set_back hn
        · rw [hacts.shard, Shard.perform_id, hid]
        · exact ih.ids i n hn
      · rw [List.length_set]
        refine List.forall_mem_append.mpr ⟨ih.told, fun n hn => ?_⟩
        rw [hacts.told] at hn
        rw [node.shard.perform_told now deed n hn, hid]
        exact hlt
    | delivers shard events =>
      refine ⟨fun i n hn => ?_, ?_⟩
      · obtain ⟨node, hnode, rfl | rfl⟩ := deliver_node_back hn
        · exact ih.ids i _ hnode
        · rw [(deliver_frame node events).2.1]
          exact ih.ids i node hnode
      · rw [List.length_modify]
        exact ih.told

lemma load_of_ended {how : SessionEnd} {rest : List Notice}
    (hnotices : f.notices = .ended index shard how :: rest) : 0 < f.load index shard := by
  unfold load
  rw [hnotices, ← List.singleton_append, endedOn_append, endedOn_ended]
  omega

lemma Reachable.answered (h : Reachable f) (hp : f.controller.phases[index]? = some p)
    {started blocked : Nat} {rest : List Notice}
    (hnotices : f.notices = .started index shard started blocked :: rest) :
    started + blocked ≤ p.inFlight ∧ p.counters.started + started + startedIn index rest =
      p.counters.ended + f.alive index + endsIn index rest := by
  obtain ⟨hflight, hsessions, -⟩ := h.sane.balanced index p hp
  have hone : startedIn index [.started index shard started blocked] = started ∧
      answersIn index [.started index shard started blocked] = started + blocked ∧
      endsIn index [.started index shard started blocked] = 0 := by
    simp [startedIn, answersIn, endsIn, Notice.startedIn, Notice.answersIn, Notice.endsIn]
  rw [hnotices, ← List.singleton_append] at hflight hsessions
  simp only [startedIn_append, endsIn_append, answersIn_append, hone] at hflight hsessions
  omega

lemma load_le (f : Fleet) (index i : Nat) :
    f.load index i ≤ f.queuedStarts index + f.alive index + endsIn index f.notices := by
  have hends := endedOn_le_endsIn index i f.notices
  unfold load
  cases hnode : f.nodes[i]? with
  | none => exact (Nat.add_le_add_left hends _).trans (by simp)
  | some node =>
    have hmem := List.mem_of_getElem? hnode
    have hstarts := List.single_le_sum (fun _ _ => Nat.zero_le _) _
      (List.mem_map_of_mem (f := fun node : Node => startsIn index node.commands) hmem)
    have halive := List.single_le_sum (fun _ _ => Nat.zero_le _) _
      (List.mem_map_of_mem (f := fun node : Node => node.shard.alive index) hmem)
    simp only [Option.elim_some, queuedStarts, Fleet.alive] at hstarts halive ⊢
    omega

end Fleet

namespace PhaseRun

variable {p p' : PhaseRun} {index : Nat} {heard : Option Notice} {starts : Starts}

structure IsFresh (p : PhaseRun) : Prop where
  inFlight : p.inFlight = 0
  counters : p.counters = .zero
  cursor : p.cursor = 0
  throttled : p.throttled = 0

lemma Acts.unstarted (h : p.Acts index heard starts p') (hp' : p'.status = .notStarted) :
    p.status = .notStarted ∧ (p' = p ∨ ∃ n ∈ heard, n.phase? = some index) := by
  cases h with
  | rests => exact ⟨hp', .inl rfl⟩
  | starts h =>
    have hproceeds := start_proceeds h
    obtain ⟨hstatus, rfl, -⟩ := start_eq_ok h
    obtain ⟨-, -, hrunning | hfinished⟩ := finishIfDone_status (p := (issue { p with
      startedAt := some _, status := .running } p.initialStarts).1) (by
        obtain ⟨n, m, hi⟩ := issue_eq { p with startedAt := some _, status := .running }
          p.initialStarts
        rw [hi]) _
    · rw [hrunning] at hp'
      cases hp'
    · rw [hfinished] at hp'
      cases hp'
  | ticks now =>
    have hstatus := ((p.tick_proceeds now).unstarted hp').1
    refine ⟨hstatus, .inl ?_⟩
    simp [tick, hstatus]
  | finishes h =>
    obtain rfl | ⟨-, rfl⟩ := finish_eq_ok h
    · exact ⟨hp', .inl rfl⟩
    · cases hp'
  | closes now =>
    unfold beginTermination at hp'
    split at hp'
    · cases hp'
    · cases hp'
    · cases hp'
    · rename_i hstatus
      rw [hstatus] at hp'
      cases hp'
    · rename_i hstatus
      rw [hstatus] at hp'
      cases hp'
  | hears shard started blocked => exact ⟨hp', .inr ⟨_, rfl, rfl⟩⟩
  | replaces shard how now =>
    exact ⟨((p.onEnded_proceeds shard how now).unstarted hp').1, .inr ⟨_, rfl, rfl⟩⟩

end PhaseRun

namespace Fleet

variable {f f' : Fleet} {m : Move} {outputs : List Output} {index shard : Nat} {p p' : PhaseRun}

lemma Sane.silent (h : f.Sane) (hp : f.controller.phases[index]? = some p) (hfresh : p.IsFresh) :
    (∀ i, f.load index i = 0) ∧ ∀ n ∈ f.notices, n.phase? ≠ some index := by
  obtain ⟨hflight, hsessions, -⟩ := h.balanced index p hp
  rw [hfresh.inFlight] at hflight
  rw [hfresh.counters] at hsessions
  have hstarted := startedIn_le_answersIn index f.notices
  have hnone : f.alive index + endsIn index f.notices = 0 := by
    simp only [SessionCounters.zero, SessionCounters.ended] at hsessions
    omega
  refine ⟨fun i => ?_, fun n hn hphase => ?_⟩
  · have hle := f.load_le index i
    omega
  · cases n with
    | started phase i started blocked =>
      obtain rfl : phase = index := Option.some.inj hphase
      obtain ⟨other, hpos⟩ := h.positive _ hn rfl
      have hle := List.single_le_sum (l := f.notices.map (Notice.answersIn other))
        (fun _ _ => Nat.zero_le _) _ (List.mem_map_of_mem hn)
      have hother : phase = other := by
        by_contra hne
        simp [Notice.answersIn, hne] at hpos
      subst hother
      rw [← answersIn] at hle
      omega
    | ended phase i how =>
      obtain rfl : phase = index := Option.some.inj hphase
      have hle := List.single_le_sum (l := f.notices.map (Notice.endsIn phase))
        (fun _ _ => Nat.zero_le _) _ (List.mem_map_of_mem hn)
      have hone : (Notice.ended phase i how).endsIn phase = 1 := if_pos rfl
      rw [hone, ← endsIn] at hle
      omega
    | fault => cases hphase

theorem Reachable.fresh (h : Reachable f) (hp : f.controller.phases[index]? = some p)
    (hstatus : p.status = .notStarted) : p.IsFresh := by
  induction h generalizing p with
  | @new settings benchmark known c h template =>
    change c.phases[index]? = some p at hp
    rw [(Controller.new_ok h).1, List.getElem?_map] at hp
    obtain ⟨phase, -, rfl⟩ := Option.map_eq_some_iff.mp hp
    exact ⟨rfl, rfl, rfl, rfl⟩
  | @move f f' m outputs h hm hout ih =>
    obtain ⟨q, hq, hturns⟩ := h.turns h.placed hm hout hp
    cases hturns with
    | @goes heard rest starts hgoes hnotices =>
      cases hgoes with
      | acts hacts =>
        obtain ⟨hbefore, rfl | ⟨n, hn, hphase⟩⟩ := hacts.unstarted hstatus
        · exact ih hq hbefore
        · cases heard with
          | none => cases hn
          | some heard =>
            cases hn
            have hmem : n ∈ f.notices := by
              rw [hnotices]
              exact List.mem_cons_self
            exact absurd hphase ((h.sane.silent hq (ih hq hbefore)).2 n hmem)
      | completes => cases hstatus
    | serves hsame =>
      subst hsame
      exact ih hq hstatus

theorem Reachable.accepted (h : Reachable f) (hp : f.controller.phases[index]? = some p) :
    p.phase.validate = .ok () := by
  induction h generalizing p with
  | @new settings benchmark known c h template =>
    change c.phases[index]? = some p at hp
    obtain ⟨-, -, hvalid⟩ := bind_eq_ok.mp h
    obtain ⟨_, hvalid, -⟩ := bind_eq_ok.mp hvalid
    rw [(Controller.new_ok h).1, List.getElem?_map] at hp
    obtain ⟨phase, hphase, rfl⟩ := Option.map_eq_some_iff.mp hp
    exact (Benchmark.validate_ok hvalid).1 phase (List.mem_of_getElem? hphase)
  | move h hm hout ih =>
    obtain ⟨q, hq, hturns⟩ := h.turns h.placed hm hout hp
    cases hturns with
    | goes hgoes =>
      rw [hgoes.kept.1]
      exact ih hq
    | serves hsame =>
      subst hsame
      exact ih hq

end Fleet

end LoadEngine
