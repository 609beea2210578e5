import LoadEngine.Proofs.Capacity
import LoadEngine.Proofs.SlotMarks

/-! Fleets with a log of their slots. Whatever happens to a fleet, also when contracts are broken,
nodes go down with half of what they had to tell, and questions are given up or what was answered to
them cannot be added up, the log has an entry for every look for a slot and one for everything that
happens. -/

namespace LoadEngine

/-- A moment in the course of a fleet: how many sessions of a phase hold a slot, on all shards
together, and the shard that has just looked for one, with what it found. The marks of the phase are
lost when the shards have taken them back for a sum that was refused. -/
structure Moment where
  total : Nat
  look : Option (Nat × Attempt)
  lost : Bool
deriving DecidableEq, Repr

def Moment.blocked (m : Moment) : Bool := m.look.any fun l => l.2.blocked

def Lossless (log : List Moment) : Prop := ∀ m ∈ log, m.lost = false

def looksOn (shard : Nat) (log : List Moment) : List Attempt :=
  log.filterMap fun m => m.look.bind fun l => if l.1 = shard then some l.2 else none

lemma looksOn_append (shard : Nat) (a b : List Moment) :
    looksOn shard (a ++ b) = looksOn shard a ++ looksOn shard b := List.filterMap_append

lemma mem_looksOn {shard : Nat} {a : Attempt} {log : List Moment} :
    a ∈ looksOn shard log ↔ ∃ m ∈ log, m.look = some (shard, a) := by
  rw [looksOn, List.mem_filterMap]
  refine exists_congr fun m => and_congr_right fun _ => ?_
  obtain ⟨total, look, lost⟩ := m
  cases look with
  | none => simp
  | some l =>
    obtain ⟨i, b⟩ := l
    simp [Prod.ext_iff]

lemma crest_le {attempts : List Attempt} {top : Nat} (h : ∀ a ∈ attempts, a.after ≤ top) :
    crest attempts ≤ top := by
  induction attempts with
  | nil => exact Nat.zero_le _
  | cons a rest ih =>
    rw [crest_cons]
    obtain ⟨ha, hrest⟩ := List.forall_mem_cons.mp h
    exact max_le ha (ih hrest)

lemma sum_le_range {l : List Nat} {g : Nat → Nat} (h : ∀ i n, l[i]? = some n → n ≤ g i) :
    l.sum ≤ ((List.range l.length).map g).sum := by
  induction l generalizing g with
  | nil => exact le_rfl
  | cons n rest ih =>
    rw [List.length_cons, List.range_succ_eq_map, List.map_cons, List.map_map, List.sum_cons,
      List.sum_cons]
    exact Nat.add_le_add (h 0 n rfl) (ih fun i m hm => h (i + 1) m hm)

namespace Fleet

variable {f f' : Fleet} {index : Nat} {p p' : PhaseRun} {log more : List Moment}
  {lost : Bool}

/-- The looks for a slot in what a move lets a node do. -/
def moments (f : Fleet) (index : Nat) : Option (Nat × Nanos × Deed) → List Moment
  | none => []
  | some (shard, now, deed) =>
    match f.nodes[shard]? with
    | none => []
    | some node => (node.shard.looks now index deed).map fun a =>
      ⟨f.alive index - node.shard.alive index + a.after, some (shard, a), false⟩

/-- Anything that happens to a fleet, with what a node does in it and the question whose sum is
refused. -/
inductive Happens (f : Fleet) : Option (Nat × Nanos × Deed) → Option Inquiry → Fleet → Prop
  | move {f' : Fleet} {m : Move} {outputs : List Output} (hm : f.move m = some (f', outputs))
      (hup : .crash ∉ outputs) : Happens f (f.deed? m) none f'
  /-- A node goes down, and some of what it has to tell is lost. -/
  | fall {f' f'' : Fleet} {m : Move} {before after : List Output} {shard : Nat} {now : Nanos}
      {deed : Deed} (hm : f.move m = some (f', before ++ after))
      (hdeed : f.deed? m = some (shard, now, deed))
      (hf : f'' = ⟨f.controller, f'.nodes.modify shard Node.stop, f.notices ++ noticesOf before,
        f.inquiry.map fun q => q.hear shard before⟩) : Happens f (f.deed? m) none f''
  /-- A question is given up when a node went down that has not answered it. -/
  | giveUp {q : Inquiry} {i : Nat} {node : Node} (hq : f.inquiry = some q)
      (hnode : f.nodes[i]? = some node) (hdown : node.running = false)
      (hanswer : q.answers[i]? = some none) : Happens f none none { f with inquiry := none }
  /-- The answers cannot be added up. The phase is left as it is, though the nodes may have taken
  back their marks. -/
  | refuse {q : Inquiry} {fault : ContractViolation} (hq : f.inquiry = some q)
      (hsum : q.sum? = some (.error fault)) : Happens f none (some q) { f with inquiry := none }
  /-- Once a contract is broken, a phase that is to end is not waited for. -/
  | windUp {i : Nat} {p : PhaseRun} (hidle : f.inquiry = none)
      (hfault : f.controller.fault.isSome = true) (hp : f.controller.phases[i]? = some p)
      (hstatus : p.status = .terminating) : Happens f none none (f.ask i true)

/-- The marks of a phase are gone with the answers to a question. -/
def loses (index : Nat) (refused : Option Inquiry) : Bool :=
  refused.any fun q => q.index == index && q.reset

/-- The states that a fleet comes to in whatever happens to it, with the log of a phase. -/
inductive Chronicle (index : Nat) : Fleet → List Moment → Prop
  | new {settings : Settings} {benchmark : Benchmark} {known : String → Bool} {c : Controller}
      (h : Controller.new settings benchmark known = .ok c) (template : Recorder) :
      Chronicle index (new c template) [⟨(new c template).alive index, none, false⟩]
  | happens {f f' : Fleet} {log : List Moment} {deed : Option (Nat × Nanos × Deed)}
      {refused : Option Inquiry} (h : Chronicle index f log) (hf : f.Happens deed refused f') :
      Chronicle index f'
        (log ++ f.moments index deed ++ [⟨f'.alive index, none, loses index refused⟩])

/-- The most sessions on each shard right after one of the looks for a slot, added up. -/
def peaks (nodes : Nat) (log : List Moment) : Nat :=
  ((List.range nodes).map fun i => crest (looksOn i log)).sum

/-- The log agrees with the slots of the phase. -/
structure Logged (f : Fleet) (index : Nat) (p : PhaseRun) (log : List Moment) : Prop where
  shards : 0 < f.nodes.length
  split : p.shares = splitCapacity p.phase.sessionCapacity f.nodes.length
  roomed : ∀ (i : Nat) (node : Node), f.nodes[i]? = some node →
    node.Roomed index (p.shareOf i)
  mark : ∀ (i : Nat) (node : Node), f.nodes[i]? = some node →
    node.shard.mark index ≤ crest (looksOn i log)
  looks : ∀ m ∈ log, ∀ i a, m.look = some (i, a) →
    a.there ≤ Pool.numbered (p.shareOf i) ∧
      (a.blocked = true ↔ a.there = Pool.numbered (p.shareOf i))
  totals : ∀ m ∈ log, m.total ≤ peaks f.nodes.length log
  blocked : p.counters.blocked + blockedIn index f.notices ≤ log.countP Moment.blocked

lemma looksOn_le_append (i : Nat) (log more : List Moment) :
    crest (looksOn i log) ≤ crest (looksOn i (log ++ more)) := by
  rw [looksOn_append, crest_append]
  exact le_max_left _ _

lemma peaks_le_append (nodes : Nat) (log more : List Moment) :
    peaks nodes log ≤ peaks nodes (log ++ more) :=
  List.sum_le_sum fun i _ => looksOn_le_append i log more

lemma looksOn_concat (i : Nat) (log : List Moment) (total : Nat) (lost : Bool) :
    looksOn i (log ++ [⟨total, none, lost⟩]) = looksOn i log := by
  rw [looksOn_append]
  exact List.append_nil _

lemma peaks_concat (nodes : Nat) (log : List Moment) (total : Nat) (lost : Bool) :
    peaks nodes (log ++ [⟨total, none, lost⟩]) = peaks nodes log := by
  simp only [peaks, looksOn_concat]

lemma alive_le_peaks
    (hroomed : ∀ (i : Nat) (node : Node), f.nodes[i]? = some node →
      node.Roomed index (p.shareOf i))
    (hmark : ∀ (i : Nat) (node : Node), f.nodes[i]? = some node →
      node.shard.mark index ≤ crest (looksOn i log)) :
    f.alive index ≤ peaks f.nodes.length log := by
  have hsum := sum_le_range (l := f.nodes.map fun node => node.shard.alive index)
    (g := fun i => crest (looksOn i log)) fun i n hn => by
      rw [List.getElem?_map] at hn
      obtain ⟨node, hnode, rfl⟩ := Option.map_eq_some_iff.mp hn
      exact (hroomed i node hnode).alive_le.trans (hmark i node hnode)
  rwa [List.length_map] at hsum

lemma Logged.next (h : f.Logged index p log) (hlength : f'.nodes.length = f.nodes.length)
    (hphase : p'.phase = p.phase) (hshares : p'.shares = p.shares)
    (hroomed : ∀ (i : Nat) (node : Node), f'.nodes[i]? = some node →
      node.Roomed index (p.shareOf i))
    (hmark : ∀ (i : Nat) (node : Node), f'.nodes[i]? = some node →
      node.shard.mark index ≤ crest (looksOn i (log ++ more)))
    (hlooks : ∀ m ∈ more, ∀ i a, m.look = some (i, a) → a.there ≤ Pool.numbered (p.shareOf i) ∧
      (a.blocked = true ↔ a.there = Pool.numbered (p.shareOf i)))
    (htotals : ∀ m ∈ more, m.total ≤ peaks f.nodes.length (log ++ more))
    (hblocked : p'.counters.blocked + blockedIn index f'.notices ≤
      p.counters.blocked + blockedIn index f.notices + more.countP Moment.blocked) :
    f'.Logged index p' (log ++ more ++ [⟨f'.alive index, none, lost⟩]) := by
  have hshare (i : Nat) : p'.shareOf i = p.shareOf i := by rw [PhaseRun.shareOf, hshares]; rfl
  refine ⟨hlength ▸ h.shards, ?_, ?_, ?_, ?_, ?_, ?_⟩
  · rw [hshares, hphase, hlength]
    exact h.split
  · intro i node hnode
    rw [hshare]
    exact hroomed i node hnode
  · intro i node hnode
    rw [looksOn_concat]
    exact hmark i node hnode
  · intro m hm i a ha
    rw [hshare]
    rw [List.append_assoc] at hm
    rcases List.mem_append.mp hm with hm | hm
    · exact h.looks m hm i a ha
    · rcases List.mem_append.mp hm with hm | hm
      · exact hlooks m hm i a ha
      · obtain rfl := List.mem_singleton.mp hm
        cases ha
  · intro m hm
    rw [peaks_concat, hlength]
    rw [List.append_assoc] at hm
    rcases List.mem_append.mp hm with hm | hm
    · exact (h.totals m hm).trans (peaks_le_append _ log more)
    · rcases List.mem_append.mp hm with hm | hm
      · exact htotals m hm
      · obtain rfl := List.mem_singleton.mp hm
        have halive := alive_le_peaks hroomed hmark
        rwa [hlength] at halive
  · rw [List.countP_append, List.countP_append]
    have hbefore := h.blocked
    omega

lemma Logged.still (h : f.Logged index p log) (hlength : f'.nodes.length = f.nodes.length)
    (hphase : p'.phase = p.phase) (hshares : p'.shares = p.shares)
    (hnodes : ∀ (i : Nat) (node' : Node), f'.nodes[i]? = some node' → ∃ node : Node,
      f.nodes[i]? = some node ∧ node'.shard = node.shard ∧
      ∀ share, node.Roomed index share → node'.Roomed index share)
    (hblocked : p'.counters.blocked + blockedIn index f'.notices ≤
      p.counters.blocked + blockedIn index f.notices) :
    f'.Logged index p' (log ++ [⟨f'.alive index, none, lost⟩]) := by
  have hnext : f'.Logged index p' (log ++ [] ++ [⟨f'.alive index, none, lost⟩]) :=
    h.next hlength hphase hshares ?_ ?_ nofun nofun hblocked
  · rwa [List.append_nil] at hnext
  · intro i node' hnode'
    obtain ⟨node, hnode, -, hroomed⟩ := hnodes i node' hnode'
    exact hroomed _ (h.roomed i node hnode)
  · intro i node' hnode'
    obtain ⟨node, hnode, hshard, -⟩ := hnodes i node' hnode'
    rw [hshard, List.append_nil]
    exact h.mark i node hnode

lemma looksOn_map (i shard : Nat) (g : Attempt → Nat) (attempts : List Attempt) :
    looksOn i (attempts.map fun a => ⟨g a, some (shard, a), false⟩) =
      if shard = i then attempts else [] := by
  rw [looksOn, List.filterMap_map]
  split
  · rename_i hi
    refine (List.filterMap_congr fun a _ => ?_).trans List.filterMap_some
    simp [hi]
  · rename_i hi
    exact List.filterMap_eq_nil_iff.mpr fun a _ => by simp [hi]

lemma looksOn_moments {shard : Nat} {node : Node} (hnode : f.nodes[shard]? = some node)
    (now : Nanos) (deed : Deed) (i : Nat) :
    looksOn i (f.moments index (some (shard, now, deed))) =
      if shard = i then node.shard.looks now index deed else [] := by
  simp only [moments, hnode, looksOn_map]

lemma total_le {shard there : Nat} {node : Node} (hnode : f.nodes[shard]? = some node)
    {g : Nat → Nat} (hg : ∀ (i : Nat) (node : Node), f.nodes[i]? = some node →
      node.shard.alive index ≤ g i) (hthere : there ≤ g shard) :
    f.alive index - node.shard.alive index + there ≤
      ((List.range f.nodes.length).map g).sum := by
  have halive : (f.nodes.map fun node => node.shard.alive index)[shard]? =
      some (node.shard.alive index) := by
    rw [List.getElem?_map, hnode]
    rfl
  have hset := sum_map_set id halive there
  have hpart := List.single_le_sum (fun _ _ => Nat.zero_le _) _ (List.mem_of_getElem? halive)
  have hsum := sum_le_range (l := (f.nodes.map fun node => node.shard.alive index).set shard there)
    (g := g) fun i n hn => by
      obtain ⟨rfl, rfl⟩ | ⟨-, hn⟩ := getElem?_set_back hn
      · exact hthere
      · rw [List.getElem?_map] at hn
        obtain ⟨node, hnode, rfl⟩ := Option.map_eq_some_iff.mp hn
        exact hg i node hnode
  rw [List.length_set, List.length_map] at hsum
  simp only [List.map_id, id_eq, Fleet.alive] at hset hpart ⊢
  omega

lemma Logged.serves (h : f.Logged index p log) {shard : Nat} {now : Nanos} {deed : Deed}
    {node node' : Node} {outputs : List Output} (hnode : f.nodes[shard]? = some node)
    (ha : node.Acted now deed node' outputs) (hnodes : f'.nodes = f.nodes.set shard node')
    (hnotices : f'.notices = f.notices ++ noticesOf outputs) :
    f'.Logged index p
      (log ++ f.moments index (some (shard, now, deed)) ++ [⟨f'.alive index, none, false⟩]) := by
  obtain ⟨hroomed, hmark, -, hfull, hblocked, -⟩ := (h.roomed shard node hnode).acted ha
  have hself : crest (looksOn shard (log ++ f.moments index (some (shard, now, deed)))) =
      max (crest (looksOn shard log)) (crest (node.shard.looks now index deed)) := by
    rw [looksOn_append, crest_append, looksOn_moments hnode, if_pos rfl]
  simp only [moments, hnode] at hself ⊢
  generalize node.shard.looks now index deed = attempts at hmark hfull hblocked hself ⊢
  refine h.next (hnodes ▸ List.length_set) rfl rfl ?_ ?_ ?_ ?_ ?_
  · intro i n hn
    obtain ⟨rfl, rfl⟩ | ⟨-, hn⟩ := getElem?_set_back (hnodes ▸ hn)
    · exact hroomed
    · exact h.roomed i n hn
  · intro i n hn
    obtain ⟨rfl, rfl⟩ | ⟨-, hn⟩ := getElem?_set_back (hnodes ▸ hn)
    · rw [hself]
      exact hmark.trans (max_le_max_right _ (h.mark shard node hnode))
    · exact (h.mark i n hn).trans (looksOn_le_append i log _)
  · intro m hm i a ha
    obtain ⟨b, hb, rfl⟩ := List.mem_map.mp hm
    cases ha
    exact hfull a hb
  · intro m hm
    obtain ⟨a, ha, rfl⟩ := List.mem_map.mp hm
    refine total_le hnode (fun i n hn => ?_) ?_
    · exact (h.roomed i n hn).alive_le.trans
        ((h.mark i n hn).trans (looksOn_le_append i log _))
    · rw [hself]
      exact (le_crest ha).trans (le_max_right _ _)
  · have htold : blockedIn index (noticesOf outputs) ≤
        blockedIn index (noticesOf (node.shard.perform now deed).2) := by
      obtain ⟨more, hmore⟩ := ha.told
      rw [← hmore, noticesOf_append, blockedIn_append]
      exact Nat.le_add_right _ _
    have hcount : (attempts.map fun a => (⟨f.alive index - node.shard.alive index + a.after,
        some (shard, a), false⟩ : Moment)).countP Moment.blocked =
      attempts.countP Attempt.blocked := by
      rw [List.countP_map]
      rfl
    rw [hnotices, blockedIn_append, hcount]
    omega

inductive Befalls (f : Fleet) (index : Nat) : Bool → Fleet → List Moment → Prop
  | governs {c : Controller} {heard : Option Notice} {rest : List Notice} {sent : List Dispatch}
      (hidle : f.inquiry = none) (hnotices : f.notices = heard.toList ++ rest)
      (hd : f.controller.Directs c f.nodes.length sent) (hg : f.controller.Governs heard sent c) :
      Befalls f index false ({ f with controller := c, notices := rest }.dispatch sent) []
  | asks {i : Nat} {reset : Bool} (hidle : f.inquiry = none)
      (hready : reset = true → ∀ p, f.controller.phases[i]? = some p → p.status ≠ .terminated) :
      Befalls f index false (f.ask i reset) []
  | concludes {q : Inquiry} {sum : PhaseSnapshot} (hq : f.inquiry = some q)
      (hsum : q.sum? = some (.ok sum)) :
      Befalls f index false { f with
        controller := if q.reset then f.controller.complete q.index sum else f.controller
        inquiry := none } []
  | givesUp {q : Inquiry} {i : Nat} {node : Node} (hq : f.inquiry = some q)
      (hnode : f.nodes[i]? = some node) (hdown : node.running = false)
      (hanswer : q.answers[i]? = some none) : Befalls f index false { f with inquiry := none } []
  | refuses {q : Inquiry} {fault : ContractViolation} (hq : f.inquiry = some q)
      (hsum : q.sum? = some (.error fault)) :
      Befalls f index (loses index (some q)) { f with inquiry := none } []
  | serves {shard : Nat} {now : Nanos} {deed : Deed} {node node' : Node} {outputs : List Output}
      (hnode : f.nodes[shard]? = some node) (h : node.Acted now deed node' outputs) :
      Befalls f index false ⟨f.controller, f.nodes.set shard node', f.notices ++ noticesOf outputs,
        f.inquiry.map fun q => q.hear shard outputs⟩ (f.moments index (some (shard, now, deed)))
  | delivers (shard : Nat) (events : List Event) :
      Befalls f index false
        { f with nodes := f.nodes.modify shard fun node => node.deliver events } []

lemma befalls_of_move {m : Move} {outputs : List Output} (hm : f.move m = some (f', outputs))
    (hup : .crash ∉ outputs) : f.Befalls index false f' (f.moments index (f.deed? m)) := by
  have hpasses := move_passes hm
  generalize f.deed? m = deed at hpasses
  cases hpasses with
  | governs hidle hnotices hd hg => exact .governs hidle hnotices hd hg
  | asks hidle hready =>
    refine .asks hidle fun hreset p hp hstatus => ?_
    have hcan := hready hreset
    simp only [Controller.canTerminate, hp, Option.any_some, PhaseRun.canTerminate, hstatus] at hcan
    cases hcan
  | concludes hq hsum => exact .concludes hq hsum
  | serves hnode h => exact .serves hnode (h.acted hup)
  | delivers shard events => exact .delivers shard events

lemma befalls_of_fall {m : Move} {before after : List Output} {shard : Nat} {now : Nanos}
    {deed : Deed} (hm : f.move m = some (f', before ++ after))
    (hdeed : f.deed? m = some (shard, now, deed)) :
    f.Befalls index false ⟨f.controller, f'.nodes.modify shard Node.stop,
      f.notices ++ noticesOf before, f.inquiry.map fun q => q.hear shard before⟩
      (f.moments index (f.deed? m)) := by
  have hpasses := move_passes hm
  rw [hdeed] at hpasses ⊢
  generalize hout : before ++ after = outputs at hpasses
  cases hpasses with
  | @serves _ _ _ node node' _ hnode h =>
    subst hout
    have hset : (f.nodes.set shard node').modify shard Node.stop =
        f.nodes.set shard node'.stop := by
      have hlt := (List.getElem?_eq_some_iff.mp hnode).1
      rw [modify_eq_set (List.getElem?_set_self hlt), List.set_set]
    rw [hset]
    exact .serves hnode h.fallen

lemma Happens.befalls {deed : Option (Nat × Nanos × Deed)} {refused : Option Inquiry}
    (h : f.Happens deed refused f') :
    f.Befalls index (loses index refused) f' (f.moments index deed) := by
  cases h with
  | move hm hup => exact befalls_of_move hm hup
  | fall hm hdeed hf =>
    subst hf
    exact befalls_of_fall hm hdeed
  | giveUp hq hnode hdown hanswer => exact .givesUp hq hnode hdown hanswer
  | refuse hq hsum => exact .refuses hq hsum
  | windUp hidle hfault hp hstatus =>
    refine .asks hidle fun _ p hp' => ?_
    rw [hp, Option.some.injEq] at hp'
    rw [← hp', hstatus]
    exact nofun

lemma blocked_of_acts {heard : Option Notice} {starts : Starts}
    (h : p.Acts index heard starts p') :
    p'.counters.blocked ≤ p.counters.blocked + blockedIn index heard.toList := by
  cases h with
  | rests => exact Nat.le_add_right _ _
  | starts h => exact (congrArg SessionCounters.blocked (PhaseRun.start_asks h).counters).le
  | ticks now => exact (congrArg SessionCounters.blocked (p.tick_asks now).counters).le
  | finishes h =>
    obtain rfl | ⟨-, rfl⟩ := PhaseRun.finish_eq_ok h
    · exact le_rfl
    · exact le_rfl
  | closes now =>
    obtain ⟨endedAt, status, he⟩ := p.beginTermination_eq now
    rw [he]
    exact le_rfl
  | hears shard started blocked =>
    have hone : blockedIn index [.started index shard started blocked] = blocked := by
      simp [blockedIn, Notice.blockedIn]
    exact (congrArg (p.counters.blocked + ·) hone.symm).le
  | replaces shard how now =>
    rw [(p.onEnded_asks shard how now).counters, p.counters.consume_blocked]
    exact Nat.le_add_right _ _

lemma isPrepare_of_concerns {c : Command} {i : Nat} (h : c.concerns i = true) :
    c.isPrepare = false := by
  cases c with
  | prepare => cases h
  | _ => rfl

lemma Logged.befalls (h : ∀ p, f.controller.phases[index]? = some p → f.Logged index p log)
    (hb : f.Befalls index lost f' more) (hp' : f'.controller.phases[index]? = some p') :
    f'.Logged index p' (log ++ more ++ [⟨f'.alive index, none, lost⟩]) := by
  have hkept (i : Nat) (node : Node) (hnode : f.nodes[i]? = some node) :
      ∃ old : Node, f.nodes[i]? = some old ∧ node.shard = old.shard ∧
        ∀ share, old.Roomed index share → node.Roomed index share :=
    ⟨node, hnode, rfl, fun _ => id⟩
  cases hb with
  | @governs c heard rest sent hidle hnotices hd hg =>
    obtain ⟨hcontroller, hrest, -, hlength⟩ :=
      Fleet.dispatch_frame { f with controller := c, notices := rest } sent
    rw [hcontroller] at hp'
    obtain ⟨p, hp, hacts, -⟩ := hg.back hd hp'
    obtain ⟨hphase, hshares, -⟩ := hacts.kept
    rw [List.append_nil]
    refine (h p hp).still hlength hphase hshares ?_ ?_
    · intro i node' hnode'
      obtain ⟨node, extra, hnode, hfront, rfl⟩ := dispatch_node_back hnode'
      refine ⟨node, hnode, rfl, fun share hroomed => hroomed.enqueue fun c hc => ?_⟩
      obtain ⟨i, hconcerns⟩ := hd.pointed _ (mem_sentTo.mp (hfront.subset hc))
      exact isPrepare_of_concerns hconcerns
    · have hblocked := blocked_of_acts hacts
      rw [hrest, hnotices, blockedIn_append]
      simp only
      omega
  | @asks i reset hidle hready =>
    rw [List.append_nil]
    refine (h p' hp').still (List.length_map _) rfl rfl (fun i node' hnode' => ?_) le_rfl
    obtain ⟨node, extra, hnode, hfront, rfl⟩ := ask_node_back hnode'
    refine ⟨node, hnode, rfl, fun share hroomed => hroomed.enqueue fun c hc => ?_⟩
    obtain rfl := List.mem_singleton.mp (hfront.subset hc)
    rfl
  | @concludes q sum hq hsum =>
    rw [List.append_nil]
    obtain ⟨p, hp, ⟨rfl, -⟩ | ⟨-, -, rfl⟩⟩ := concluded_back hp'
    · exact (h p' hp).still rfl rfl rfl hkept le_rfl
    · exact (h p hp).still rfl rfl rfl hkept le_rfl
  | givesUp | refuses =>
    rw [List.append_nil]
    exact (h p' hp').still rfl rfl rfl hkept le_rfl
  | serves hnode ha => exact (h p' hp').serves hnode ha rfl rfl
  | delivers shard events =>
    rw [List.append_nil]
    refine (h p' hp').still (List.length_modify ..) rfl rfl (fun i node' hnode' => ?_) le_rfl
    obtain ⟨node, hnode, rfl | rfl⟩ := deliver_node_back hnode'
    · exact ⟨_, hnode, rfl, fun _ => id⟩
    · refine ⟨node, hnode, ?_, fun share hroomed => hroomed.deliver events⟩
      rw [(deliver_frame node events).2.1]

lemma preparations_split {c : Controller} (hp : c.phases[index]? = some p) (shard : Nat) :
    ∃ before name scenario after,
      c.preparations shard = before ++ .prepare index name scenario (p.shareOf shard) :: after ∧
      (∀ command ∈ before, command.isPrepare = true ∧ command.prepares index = false) ∧
      ∀ command ∈ after, command.prepares index = false := by
  have hother {command : Command} {i : Nat} (hi : i ≠ index)
      (hmem : ∃ q, command = .prepare i q.name q.phase.scenario (PhaseRun.shareOf q shard)) :
      command.prepares index = false := by
    obtain ⟨q, rfl⟩ := hmem
    exact beq_eq_false_iff_ne.mpr hi
  obtain ⟨hlt, hget⟩ := List.getElem?_eq_some_iff.mp hp
  have hzip : c.phases.zipIdx = c.phases.zipIdx.take index ++ (p, index) ::
      c.phases.zipIdx.drop (index + 1) := by
    have hltz : index < c.phases.zipIdx.length := by rwa [List.length_zipIdx]
    have hentry : c.phases.zipIdx[index] = (p, index) := by simp [hget]
    rw [← hentry, List.getElem_cons_drop, List.take_append_drop]
  let prepares (x : PhaseRun × Nat) : Command :=
    .prepare x.2 x.1.name x.1.phase.scenario (x.1.shareOf shard)
  refine ⟨(c.phases.zipIdx.take index).map prepares, p.name, p.phase.scenario,
    (c.phases.zipIdx.drop (index + 1)).map prepares, ?_, ?_, ?_⟩
  · rw [Controller.preparations, hzip, List.map_append, List.map_cons, ← hzip]
  · intro command hmem
    obtain ⟨⟨q, i⟩, hq, rfl⟩ := List.mem_map.mp hmem
    obtain ⟨k, hk, heq⟩ := List.mem_take_iff_getElem.mp hq
    rw [List.getElem_zipIdx] at heq
    obtain ⟨rfl, rfl⟩ := Prod.mk.inj heq
    exact ⟨rfl, hother (by omega) ⟨_, rfl⟩⟩
  · intro command hmem
    obtain ⟨⟨q, i⟩, hq, rfl⟩ := List.mem_map.mp hmem
    obtain ⟨k, hk, heq⟩ := List.mem_iff_getElem.mp hq
    rw [List.getElem_drop, List.getElem_zipIdx] at heq
    obtain ⟨rfl, rfl⟩ := Prod.mk.inj heq
    exact hother (by omega) ⟨_, rfl⟩

lemma shards_pos {settings : Settings} {benchmark : Benchmark} {known : String → Bool}
    {c : Controller} (h : Controller.new settings benchmark known = .ok c) :
    0 < settings.shards := by
  obtain ⟨_, hvalid, -⟩ := bind_eq_ok.mp h
  refine Nat.pos_of_ne_zero fun hzero => ?_
  unfold Settings.validate at hvalid
  rw [if_pos hzero] at hvalid
  cases hvalid

lemma new_logged {settings : Settings} {benchmark : Benchmark} {known : String → Bool}
    {c : Controller} (h : Controller.new settings benchmark known = .ok c) (template : Recorder)
    (hp : c.phases[index]? = some p) :
    (Fleet.new c template).Logged index p [⟨(Fleet.new c template).alive index, none, false⟩] := by
  obtain ⟨hphases, hsettings⟩ := Controller.new_ok h
  have hlength : (Fleet.new c template).nodes.length = settings.shards := by
    simp [Fleet.new, hsettings]
  have hnode (i : Nat) (node : Node) (hnode : (Fleet.new c template).nodes[i]? = some node) :
      node = { Node.new i template with commands := c.preparations i } := by
    simp only [Fleet.new, List.getElem?_map] at hnode
    obtain ⟨k, hk, rfl⟩ := Option.map_eq_some_iff.mp hnode
    obtain ⟨-, rfl⟩ := List.getElem?_eq_some_iff.mp hk
    rw [List.getElem_range]
  have hcounters : p.counters = .zero ∧
      p.shares = splitCapacity p.phase.sessionCapacity settings.shards := by
    rw [hphases, List.getElem?_map] at hp
    obtain ⟨phase, -, rfl⟩ := Option.map_eq_some_iff.mp hp
    exact ⟨rfl, rfl⟩
  have hroomed (i : Nat) (node : Node) (hn : (Fleet.new c template).nodes[i]? = some node) :
      node.Roomed index (p.shareOf i) := by
    rw [hnode i node hn]
    obtain ⟨before, name, scenario, after, hsplit, hbefore, hafter⟩ := preparations_split hp i
    exact .awaits rfl fun _ => ⟨before, name, scenario, after, hsplit, hbefore, hafter⟩
  have hmark (i : Nat) (node : Node) (hn : (Fleet.new c template).nodes[i]? = some node)
      (log : List Moment) : node.shard.mark index ≤ crest (looksOn i log) := by
    rw [hnode i node hn]
    exact Nat.zero_le _
  refine ⟨hlength ▸ shards_pos h, hlength ▸ hcounters.2, hroomed, fun i node hn => ?_, ?_, ?_, ?_⟩
  · exact hmark i node hn _
  · refine List.forall_mem_singleton.mpr fun i a hlook => ?_
    cases hlook
  · refine List.forall_mem_singleton.mpr ?_
    exact alive_le_peaks hroomed fun i node hn => hmark i node hn _
  · rw [hcounters.1]
    exact Nat.zero_le _

theorem Chronicle.logged (h : Chronicle index f log) (hp : f.controller.phases[index]? = some p) :
    f.Logged index p log := by
  induction h generalizing p with
  | new h template => exact new_logged h template hp
  | happens h hf ih => exact Logged.befalls (fun p hp => ih hp) hf.befalls hp

end Fleet

end LoadEngine
