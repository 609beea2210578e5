import LoadEngine.Proofs.SlotLog

/-! The ceiling of a phase. The shards have its capacity among them, and no shard goes beyond its
share; and what is collected at the end of the phase is at least what there ever was at a time,
since no mark is taken back before the end but in the answer that is collected. That is so unless
the answers cannot be added up: then the marks are gone, and the phase can still be ended. -/

namespace LoadEngine

namespace PhaseRun

variable {p p' : PhaseRun} {index nodes : Nat} {sent : List Dispatch}

lemma numbered_shareOf (h : ∀ share ∈ p.shares, share < 2 ^ 32) (shard : Nat) :
    Pool.numbered (p.shareOf shard) = p.shareOf shard := by
  refine Nat.mod_eq_of_lt ?_
  rw [shareOf, List.getD_eq_getElem?_getD]
  cases hshare : p.shares[shard]? with
  | none => decide
  | some share => exact h share (List.mem_of_getElem? hshare)

def IsResting (p : PhaseRun) : Prop := p.status = .notStarted ∨ p.status = .terminated

lemma Directed.resting (h : p.Directed nodes index sent p') (hp' : p'.IsResting) :
    p.IsResting ∧ (p'.status = .notStarted → p.status = .notStarted) ∧
      ∀ d ∈ sent, d.2.concerns index = false := by
  rcases hp' with hfresh | hclosed
  · obtain ⟨hstatus, hclear⟩ := h.unstarted hfresh
    exact ⟨.inl hstatus, fun _ => hstatus, hclear⟩
  · have hending : p'.status.isEnding = true := by rw [hclosed]; rfl
    have hnot : p'.status = .notStarted → p.status = .notStarted := by
      rw [hclosed]
      exact nofun
    cases hopen : p.status.isEnding with
    | true =>
      obtain ⟨hstatus, hclear⟩ := h.kept hopen
      exact ⟨.inr (hstatus ▸ hclosed), hnot, hclear⟩
    | false =>
      rcases h.ends hopen hending with ⟨hother, -⟩ | ⟨hfresh, -, rfl⟩
      · rw [hclosed] at hother
        cases hother
      · exact ⟨.inl hfresh, hnot, nofun⟩

end PhaseRun

namespace PhaseSnapshot

lemma mergeFrom_maxUsed {snapshots : List PhaseSnapshot} {sum sum' : PhaseSnapshot}
    (h : sum.mergeFrom snapshots = .ok sum') :
    sum'.maxUsed = sum.maxUsed + (snapshots.map PhaseSnapshot.maxUsed).sum := by
  induction snapshots generalizing sum with
  | nil =>
    cases h
    rfl
  | cons s rest ih =>
    rw [mergeFrom_cons] at h
    obtain ⟨statistics, -, hrest⟩ := bind_eq_ok.mp h
    rw [ih hrest, List.map_cons, List.sum_cons, Nat.add_assoc]

end PhaseSnapshot

namespace Node

variable {n : Node} {index i shard : Nat} {fits : Nat → Prop} {inquiry : Option Inquiry}
  {outputs : List Output}

lemma hear_other (hi : shard ≠ i) (q : Inquiry) (outputs : List Output) :
    (q.hear shard outputs).answers[i]? = q.answers[i]? := by
  unfold Inquiry.hear
  split
  · exact List.getElem?_set_ne hi
  · rfl

lemma Tally.hears (h : n.Tally index i fits inquiry) (hi : shard ≠ i) :
    n.Tally index i fits (inquiry.map fun q => q.hear shard outputs) := by
  cases h with
  | idle hnone hmark => exact .idle hnone hmark
  | @asked q hanswer hquestions hmark hlast =>
    obtain ⟨hindex, hreset⟩ := Fleet.hear_index q shard outputs
    exact .asked ((hear_other hi q outputs).trans hanswer) (by rwa [hindex, hreset]) hmark hlast
  | @answered q snapshot hanswer hnone hmark hsnapshot =>
    obtain ⟨hindex, hreset⟩ := Fleet.hear_index q shard outputs
    refine .answered ((hear_other hi q outputs).trans hanswer) hnone ?_ ?_
    · rwa [hindex, hreset]
    · rwa [hindex, hreset]

lemma Lost.hears (h : n.Lost i inquiry) (hi : shard ≠ i) :
    n.Lost i (inquiry.map fun q => q.hear shard outputs) := by
  refine ⟨h.1, fun q hq => ?_⟩
  obtain ⟨old, hold, rfl⟩ := Option.map_eq_some_iff.mp hq
  exact (hear_other hi old outputs).trans (h.2 old hold)

lemma Tally.concluded (h : n.Tally index i fits inquiry) {q : Inquiry}
    (hq : inquiry = some q) {answer : Option PhaseSnapshot} (ha : q.answers[i]? = some answer)
    (hsome : answer.isSome = true) :
    questions n.commands = [] ∧
      (¬ (q.index = index ∧ q.reset = true) → fits (n.shard.mark index)) ∧
      (q.index = index → q.reset = true →
        (∃ snapshot, answer = some snapshot ∧ fits snapshot.maxUsed) ∧
        ∀ count, .start index count ∉ n.commands) := by
  cases h with
  | idle => cases hq
  | asked hanswer =>
    cases hq
    rw [hanswer, Option.some.injEq] at ha
    rw [← ha] at hsome
    cases hsome
  | answered hanswer hnone hmark hsnapshot =>
    cases hq
    rw [hanswer, Option.some.injEq] at ha
    subst ha
    refine ⟨hnone, hmark, fun hindex hreset => ?_⟩
    obtain ⟨htells, hstarts⟩ := hsnapshot hindex hreset
    exact ⟨⟨_, rfl, htells⟩, hstarts⟩

end Node

lemma Lossless.left {log more : List Moment} (h : Lossless (log ++ more)) : Lossless log :=
  fun m hm => h m (List.mem_append_left more hm)

namespace PhaseRun

variable {p : PhaseRun} {log more : List Moment} {i top total : Nat} {lost : Bool}

def Tells (p : PhaseRun) (log : List Moment) (i top : Nat) : Prop :=
  p.status ≠ .terminated →
    top ≤ crest (looksOn i log) ∧ (Lossless log → top = crest (looksOn i log))

lemma Tells.append (h : p.Tells log i top) (more : List Moment) :
    p.Tells (log ++ more) i (max top (crest (looksOn i more))) := by
  intro hopen
  obtain ⟨hle, heq⟩ := h hopen
  rw [looksOn_append, crest_append]
  exact ⟨max_le_max_right _ hle, fun hlossless => congrArg (max · _) (heq hlossless.left)⟩

lemma Tells.concat (h : p.Tells log i top) : p.Tells (log ++ [⟨total, none, lost⟩]) i top := by
  intro hopen
  obtain ⟨hle, heq⟩ := h hopen
  rw [Fleet.looksOn_concat]
  exact ⟨hle, fun hlossless => heq hlossless.left⟩

end PhaseRun

namespace Fleet

variable {f f' : Fleet} {index : Nat} {p p' : PhaseRun} {log more : List Moment} {lost : Bool}
  {total : Nat}

/-- The marks of a phase tell how high its sessions ever were, unless a node went down without the
answer that it was asked for, so that the phase is never ended. -/
structure Marked (f : Fleet) (index : Nat) (p : PhaseRun) (log : List Moment) : Prop where
  resting : p.IsResting → ∀ node ∈ f.nodes, ∀ count, .start index count ∉ node.commands
  fresh : p.status = .notStarted → ∀ i, looksOn i log = []
  unended : p.status ≠ .terminated → p.maxUsed = 0
  ended : p.status = .terminated → p.maxUsed ≤ peaks f.nodes.length log ∧
    (Lossless log → p.maxUsed = peaks f.nodes.length log)
  asked : ∀ q ∈ f.inquiry, q.answers.length = f.nodes.length ∧
    (q.index = index → q.reset = true → p.status ≠ .terminated)
  marks : (∃ (i : Nat) (node : Node), f.nodes[i]? = some node ∧ node.Lost i f.inquiry) ∨
    ∀ (i : Nat) (node : Node), f.nodes[i]? = some node →
      node.Tally index i (p.Tells log i) f.inquiry

lemma peaks_of_fresh (h : ∀ i, looksOn i log = []) (nodes : Nat) : peaks nodes log = 0 := by
  refine List.sum_eq_zero_iff_forall_eq_nat.mpr fun n hn => ?_
  obtain ⟨i, -, rfl⟩ := List.mem_map.mp hn
  rw [h]
  rfl

lemma Marked.governs (h : f.Marked index p log) {c : Controller} {heard : Option Notice}
    {rest : List Notice} {sent : List Dispatch} (hidle : f.inquiry = none)
    (hd : f.controller.Directs c f.nodes.length sent)
    (hacts : p.Acts index heard (startsOf index sent) p')
    (hdirected : p.Directed f.nodes.length index sent p') :
    ({ f with controller := c, notices := rest }.dispatch sent).Marked index p' log := by
  obtain ⟨-, -, hinquiry, hlength⟩ :=
    Fleet.dispatch_frame { f with controller := c, notices := rest } sent
  obtain ⟨-, -, hmaxUsed⟩ := hacts.kept
  have hclosed (h : p.status = .terminated) : p'.status = .terminated := by
    have hending : p.status.isEnding = true := by rw [h]; rfl
    exact (hdirected.kept hending).1.trans h
  refine ⟨?_, ?_, ?_, ?_, ?_, ?_⟩
  · intro hresting node' hmem count hstart
    obtain ⟨hrested, -, hclear⟩ := hdirected.resting hresting
    obtain ⟨i, hnode'⟩ := List.mem_iff_getElem?.mp hmem
    obtain ⟨node, extra, hnode, hfront, rfl⟩ := dispatch_node_back hnode'
    rcases List.mem_append.mp hstart with hstart | hstart
    · exact h.resting hrested node (List.mem_of_getElem? hnode) count hstart
    · have hnone := hclear _ (mem_sentTo.mp (hfront.subset hstart))
      rw [Command.concerns, beq_self_eq_true] at hnone
      cases hnone
  · intro hfresh
    exact h.fresh ((hdirected.resting (.inl hfresh)).2.1 hfresh)
  · intro hopen
    rw [hmaxUsed]
    exact h.unended (mt hclosed hopen)
  · intro hclosed'
    rw [hmaxUsed, hlength]
    rcases (hdirected.resting (.inr hclosed')).1 with hfresh | hclosed
    · have hopen : p.status ≠ .terminated := by
        rw [hfresh]
        decide
      rw [h.unended hopen, peaks_of_fresh (h.fresh hfresh)]
      exact ⟨le_rfl, fun _ => rfl⟩
    · exact h.ended hclosed
  · rw [hinquiry]
    change ∀ q ∈ f.inquiry, _
    rw [hidle]
    intro q hq
    cases hq
  · rw [hinquiry]
    rcases h.marks with ⟨i, node, hnode, hl⟩ | hmarks
    · obtain ⟨extra, -, -, hnode'⟩ := dispatch_node
        (f := { f with controller := c, notices := rest }) hnode sent
      exact .inl ⟨i, _, hnode', hl⟩
    · refine .inr fun i node' hnode' => ?_
      obtain ⟨node, extra, hnode, hfront, rfl⟩ := dispatch_node_back hnode'
      have htally := hmarks i node hnode
      change (node.enqueue extra).Tally index i _ f.inquiry
      rw [hidle] at htally ⊢
      refine (htally.enqueue fun c hc => ?_).mono fun top htells hopen => htells (mt hclosed hopen)
      exact hd.pointed _ (mem_sentTo.mp (hfront.subset hc))

lemma Marked.asks (h : f.Marked index p log) {i : Nat} {reset : Bool} (hidle : f.inquiry = none)
    (hready : i = index → reset = true → p.status ≠ .terminated) :
    (f.ask i reset).Marked index p log := by
  have hlength : (f.ask i reset).nodes.length = f.nodes.length := List.length_map _
  refine ⟨?_, h.fresh, h.unended, ?_, ?_, ?_⟩
  · intro hresting node' hmem count hstart
    obtain ⟨k, hnode'⟩ := List.mem_iff_getElem?.mp hmem
    obtain ⟨node, extra, hnode, hfront, rfl⟩ := ask_node_back hnode'
    rcases List.mem_append.mp hstart with hstart | hstart
    · exact h.resting hresting node (List.mem_of_getElem? hnode) count hstart
    · cases List.mem_singleton.mp (hfront.subset hstart)
  · rw [hlength]
    exact h.ended
  · rintro q ⟨⟩
    exact ⟨(List.length_replicate).trans hlength.symm, hready⟩
  · rcases h.marks with ⟨k, node, hnode, hdown, -⟩ | hmarks
    · have hlt := (List.getElem?_eq_some_iff.mp hnode).1
      refine .inl ⟨k, _, (f.ask_node i reset k).trans (congrArg _ hnode), hdown, ?_⟩
      rintro q ⟨⟩
      simp [Inquiry.new, hlt]
    · refine .inr fun k node' hnode' => ?_
      obtain ⟨node, extra, hnode, hfront, rfl⟩ := ask_node_back hnode'
      have htally := hmarks k node hnode
      rw [hidle] at htally
      exact htally.ask (List.getElem?_eq_some_iff.mp hnode).1 hfront

lemma Marked.all_told (h : f.Marked index p log) {q : Inquiry}
    {r : Except ContractViolation PhaseSnapshot} (hq : f.inquiry = some q)
    (hsum : q.sum? = some r) {i : Nat} {node : Node} (hnode : f.nodes[i]? = some node) :
    questions node.commands = [] ∧
      (¬ (q.index = index ∧ q.reset = true) → p.Tells log i (node.shard.mark index)) ∧
      (q.index = index → q.reset = true →
        (∃ snapshot, q.answers[i]? = some (some snapshot) ∧ p.Tells log i snapshot.maxUsed) ∧
        ∀ count, .start index count ∉ node.commands) := by
  have hlt := (List.getElem?_eq_some_iff.mp hnode).1
  rw [← (h.asked q hq).1] at hlt
  have ha := List.getElem?_eq_getElem hlt
  have hsome := isSome_of_sum? hsum ha
  rcases h.marks with ⟨k, lost, hget, -, hlost⟩ | hmarks
  · have hnone := isSome_of_sum? hsum (hlost q hq)
    cases hnone
  · obtain ⟨hnone, hmark, hsnapshot⟩ := (hmarks i node hnode).concluded hq ha hsome
    refine ⟨hnone, hmark, fun hindex hreset => ?_⟩
    obtain ⟨⟨snapshot, hanswer, htells⟩, hstarts⟩ := hsnapshot hindex hreset
    exact ⟨⟨snapshot, ha.trans (congrArg some hanswer), htells⟩, hstarts⟩

lemma eq_map_range {l : List Nat} {g : Nat → Nat} (h : ∀ i n, l[i]? = some n → n = g i) :
    l = (List.range l.length).map g := by
  refine List.ext_getElem? fun i => ?_
  rw [List.getElem?_map]
  cases hn : l[i]? with
  | none =>
    rw [List.getElem?_eq_none (by simpa using List.getElem?_eq_none_iff.mp hn)]
    rfl
  | some n =>
    rw [List.getElem?_range (List.getElem?_eq_some_iff.mp hn).1, h i n hn]
    rfl

lemma Marked.sum_maxUsed (h : f.Marked index p log) {q : Inquiry} {sum : PhaseSnapshot}
    (hq : f.inquiry = some q) (hsum : q.sum? = some (.ok sum)) (hindex : q.index = index)
    (hreset : q.reset = true) :
    sum.maxUsed ≤ peaks f.nodes.length log ∧
      (Lossless log → sum.maxUsed = peaks f.nodes.length log) := by
  obtain ⟨hlength, hopen⟩ := h.asked q hq
  have hsome : q.answers = q.answers.reduceOption.map some := by
    refine eq_map_some fun a ha => ?_
    obtain ⟨i, ha⟩ := List.mem_iff_getElem?.mp ha
    exact isSome_of_sum? hsum ha
  have htold (i n : Nat) (hn : (q.answers.reduceOption.map PhaseSnapshot.maxUsed)[i]? = some n) :
      p.Tells log i n := by
    rw [List.getElem?_map] at hn
    obtain ⟨snapshot, hsnapshot, rfl⟩ := Option.map_eq_some_iff.mp hn
    have ha : q.answers[i]? = some (some snapshot) := by
      rw [hsome, List.getElem?_map, hsnapshot]
      rfl
    have hlt := (List.getElem?_eq_some_iff.mp ha).1
    rw [hlength] at hlt
    obtain ⟨⟨snapshot', ha', htells⟩, -⟩ :=
      (h.all_told hq hsum (List.getElem?_eq_getElem hlt)).2.2 hindex hreset
    rw [ha, Option.some.injEq, Option.some.injEq] at ha'
    rwa [ha']
  have hsize : (q.answers.reduceOption.map PhaseSnapshot.maxUsed).length = f.nodes.length := by
    rw [← hlength, List.length_map]
    exact ((congrArg List.length hsome).trans (List.length_map _)).symm
  have hmaxUsed : sum.maxUsed = (q.answers.reduceOption.map PhaseSnapshot.maxUsed).sum := by
    unfold Inquiry.sum? at hsum
    split at hsum
    · have hmerge : PhaseSnapshot.empty.mergeFrom q.answers.reduceOption = .ok sum :=
        Option.some.inj hsum
      rw [PhaseSnapshot.mergeFrom_maxUsed hmerge]
      exact Nat.zero_add _
    · cases hsum
  have hopen := hopen hindex hreset
  rw [hmaxUsed, peaks, ← hsize]
  refine ⟨sum_le_range fun i n hn => (htold i n hn hopen).1, fun hlossless => ?_⟩
  exact congrArg List.sum (eq_map_range fun i n hn => (htold i n hn hopen).2 hlossless)

lemma Marked.concludes (h : f.Marked index p log) {q : Inquiry} {sum : PhaseSnapshot}
    {c : Controller} (hq : f.inquiry = some q) (hsum : q.sum? = some (.ok sum))
    (hp' : p' = p ∧ ¬ (q.index = index ∧ q.reset = true) ∨
      q.index = index ∧ q.reset = true ∧ p' = p.complete sum.statistics sum.maxUsed) :
    Marked { f with controller := c, inquiry := none } index p' log := by
  rcases hp' with ⟨rfl, hother⟩ | ⟨hindex, hreset, rfl⟩
  · refine ⟨h.resting, h.fresh, h.unended, h.ended, nofun, .inr fun i node hnode => ?_⟩
    obtain ⟨hnone, hmark, -⟩ := h.all_told hq hsum hnode
    exact .idle hnone (hmark hother)
  · refine ⟨?_, nofun, ?_, fun _ => h.sum_maxUsed hq hsum hindex hreset, nofun,
      .inr fun i node hnode => ?_⟩
    · intro _ node hmem
      obtain ⟨i, hnode⟩ := List.mem_iff_getElem?.mp hmem
      exact ((h.all_told hq hsum hnode).2.2 hindex hreset).2
    · intro hopen
      exact absurd rfl hopen
    · exact .idle (h.all_told hq hsum hnode).1 fun hopen => absurd rfl hopen

lemma Marked.concat (h : f.Marked index p log) :
    f.Marked index p (log ++ [⟨total, none, lost⟩]) := by
  obtain ⟨hresting, hfresh, hunended, hended, hasked, hmarks⟩ := h
  refine ⟨hresting, ?_, hunended, ?_, hasked, ?_⟩
  · simpa only [looksOn_concat] using hfresh
  · intro hclosed
    rw [peaks_concat]
    exact (hended hclosed).imp_right fun heq hlossless => heq hlossless.left
  · exact hmarks.imp_right fun htally i node hnode =>
      (htally i node hnode).mono fun top htells => htells.concat

lemma Marked.refuses (h : f.Marked index p log) (hlogged : f.Logged index p log) {q : Inquiry}
    {fault : ContractViolation} (hq : f.inquiry = some q)
    (hsum : q.sum? = some (.error fault)) :
    Marked { f with inquiry := none } index p
      (log ++ [⟨total, none, loses index (some q)⟩]) := by
  have hnext : f.Marked index p (log ++ [⟨total, none, loses index (some q)⟩]) := h.concat
  obtain ⟨hresting, hfresh, hunended, hended, -, -⟩ := hnext
  refine ⟨hresting, hfresh, hunended, hended, nofun, .inr fun i node hnode => ?_⟩
  obtain ⟨hnone, hmark, -⟩ := h.all_told hq hsum hnode
  refine .idle hnone ?_
  by_cases hlost : q.index = index ∧ q.reset = true
  · intro _
    rw [looksOn_concat]
    refine ⟨hlogged.mark i node hnode, fun hlossless => ?_⟩
    have hkept := hlossless _ (List.mem_append_right log List.mem_cons_self)
    simp [loses, hlost] at hkept
  · exact (hmark hlost).concat

lemma Marked.marks_served (h : f.Marked index p log) (hlogged : f.Logged index p log) {shard : Nat}
    {now : Nanos} {deed : Deed} {node node' : Node} {outputs : List Output}
    (hnode : f.nodes[shard]? = some node) (ha : node.Acted now deed node' outputs) :
    let inquiry := f.inquiry.map fun q => q.hear shard outputs
    (∃ (i : Nat) (n : Node), (f.nodes.set shard node')[i]? = some n ∧ n.Lost i inquiry) ∨
      ∀ (i : Nat) (n : Node), (f.nodes.set shard node')[i]? = some n →
        n.Tally index i (p.Tells (log ++ f.moments index (some (shard, now, deed))) i) inquiry := by
  rcases h.marks with ⟨i, lost, hget, hlost⟩ | hmarks
  · have hi : shard ≠ i := by
      rintro rfl
      rw [hnode, Option.some.injEq] at hget
      subst hget
      have hup := ha.running
      rw [hlost.1] at hup
      cases hup
    exact .inl ⟨i, lost, (List.getElem?_set_ne hi).trans hget, hlost.hears hi⟩
  · have hreckons := (hlogged.roomed shard node hnode).acted ha
    have htells (i top : Nat) (htop : p.Tells log i top) :
        p.Tells (log ++ f.moments index (some (shard, now, deed))) i
          (max top (crest (if shard = i then node.shard.looks now index deed else []))) := by
      have hmore := htop.append (f.moments index (some (shard, now, deed)))
      rwa [looksOn_moments hnode] at hmore
    have hacted := (hmarks shard node hnode).acted hreckons ha fun top htop => by
      have hmore := htells shard top htop
      rwa [if_pos rfl] at hmore
    rcases hacted with hacted | hacted
    · refine .inr fun i n hn => ?_
      obtain ⟨rfl, rfl⟩ | ⟨hi, hn⟩ := getElem?_set_back hn
      · exact hacted
      · refine ((hmarks i n hn).hears hi).mono fun top htop => ?_
        have hmore := htells i top htop
        rw [if_neg hi] at hmore
        exact Nat.max_zero top ▸ hmore
    · have hlt := (List.getElem?_eq_some_iff.mp hnode).1
      exact .inl ⟨shard, node', List.getElem?_set_self hlt, hacted⟩

lemma Marked.serves (h : f.Marked index p log) (hlogged : f.Logged index p log) {shard : Nat}
    {now : Nanos} {deed : Deed} {node node' : Node} {outputs : List Output}
    (hnode : f.nodes[shard]? = some node) (ha : node.Acted now deed node' outputs)
    (hnodes : f'.nodes = f.nodes.set shard node')
    (hinquiry : f'.inquiry = f.inquiry.map fun q => q.hear shard outputs) :
    f'.Marked index p (log ++ f.moments index (some (shard, now, deed))) := by
  have hmem := List.mem_of_getElem? hnode
  have hquiet (hresting : p.IsResting) (i : Nat) :
      looksOn i (f.moments index (some (shard, now, deed))) = [] := by
    rw [looksOn_moments hnode, Node.looks_of_not_mem ha (h.resting hresting node hmem), ite_self]
  have hlength : f'.nodes.length = f.nodes.length := hnodes ▸ List.length_set
  refine ⟨?_, ?_, h.unended, ?_, ?_, ?_⟩
  · intro hresting
    rw [hnodes]
    refine forall_mem_set (h.resting hresting) fun count hstart => ?_
    exact h.resting hresting node hmem count (ha.subset _ hstart)
  · intro hfresh i
    rw [looksOn_append, h.fresh hfresh, hquiet (.inl hfresh)]
    rfl
  · intro hclosed
    have hsame : peaks f.nodes.length (log ++ f.moments index (some (shard, now, deed))) =
        peaks f.nodes.length log := by
      refine congrArg List.sum (List.map_congr_left fun i _ => ?_)
      rw [looksOn_append, hquiet (.inr hclosed), List.append_nil]
    rw [hlength, hsame]
    exact (h.ended hclosed).imp_right fun heq hlossless => heq hlossless.left
  · intro q hq
    rw [hinquiry] at hq
    obtain ⟨old, hold, rfl⟩ := Option.map_eq_some_iff.mp hq
    obtain ⟨hindex, hreset⟩ := hear_index old shard outputs
    rw [hear_answers_length, hlength, hindex, hreset]
    exact h.asked old hold
  · rw [hnodes, hinquiry]
    exact h.marks_served hlogged hnode ha

lemma Marked.delivers (h : f.Marked index p log) (shard : Nat) (events : List Event) :
    Marked { f with nodes := f.nodes.modify shard fun node => node.deliver events }
      index p log := by
  have hlength : (f.nodes.modify shard fun node => node.deliver events).length = f.nodes.length :=
    List.length_modify ..
  refine ⟨?_, h.fresh, h.unended, ?_, ?_, ?_⟩
  · intro hresting node' hmem
    obtain ⟨i, hnode'⟩ := List.mem_iff_getElem?.mp hmem
    obtain ⟨node, hnode, rfl | rfl⟩ := deliver_node_back hnode'
    · exact h.resting hresting _ (List.mem_of_getElem? hnode)
    · rw [(deliver_frame node events).1]
      exact h.resting hresting node (List.mem_of_getElem? hnode)
  · rw [hlength]
    exact h.ended
  · intro q hq
    rw [hlength]
    exact h.asked q hq
  · rcases h.marks with ⟨i, node, hnode, hlost⟩ | hmarks
    · refine .inl ⟨i, if shard = i then node.deliver events else node, ?_, ?_, hlost.2⟩
      · rw [List.getElem?_modify, hnode]
        rfl
      · split
        · exact (deliver_frame node events).2.2.trans hlost.1
        · exact hlost.1
    · refine .inr fun i node' hnode' => ?_
      obtain ⟨node, hnode, rfl | rfl⟩ := deliver_node_back hnode'
      · exact hmarks i _ hnode
      · exact (hmarks i node hnode).deliver events

lemma Marked.befalls
    (h : ∀ p, f.controller.phases[index]? = some p → f.Logged index p log ∧ f.Marked index p log)
    (hb : f.Befalls index lost f' more) (hp' : f'.controller.phases[index]? = some p') :
    f'.Marked index p' (log ++ more ++ [⟨total, none, lost⟩]) := by
  cases hb with
  | @governs c heard rest sent hidle hnotices hd hg =>
    obtain ⟨hcontroller, -⟩ :=
      Fleet.dispatch_frame { f with controller := c, notices := rest } sent
    rw [hcontroller] at hp'
    obtain ⟨p, hp, hacts, hdirected⟩ := hg.back hd hp'
    rw [List.append_nil]
    exact ((h p hp).2.governs hidle hd hacts hdirected).concat
  | @asks i reset hidle hready =>
    rw [List.append_nil]
    refine ((h p' hp').2.asks hidle fun hi hreset => hready hreset p' ?_).concat
    rw [hi]
    exact hp'
  | @concludes q sum hq hsum =>
    obtain ⟨p, hp, hcases⟩ := concluded_back hp'
    rw [List.append_nil]
    exact ((h p hp).2.concludes hq hsum hcases).concat
  | @givesUp q i node hq hnode hdown hanswer =>
    have hnext : f.Marked index p' (log ++ [⟨total, none, false⟩]) := (h p' hp').2.concat
    obtain ⟨hresting, hfresh, hunended, hended, -, -⟩ := hnext
    rw [List.append_nil]
    exact ⟨hresting, hfresh, hunended, hended, nofun, .inl ⟨i, node, hnode, hdown, nofun⟩⟩
  | refuses hq hsum =>
    rw [List.append_nil]
    exact (h p' hp').2.refuses (h p' hp').1 hq hsum
  | serves hnode ha => exact ((h p' hp').2.serves (h p' hp').1 hnode ha rfl rfl).concat
  | delivers shard events =>
    rw [List.append_nil]
    exact ((h p' hp').2.delivers shard events).concat

lemma new_marked {settings : Settings} {benchmark : Benchmark} {known : String → Bool}
    {c : Controller} (h : Controller.new settings benchmark known = .ok c) (template : Recorder)
    (hp : c.phases[index]? = some p) : (Fleet.new c template).Marked index p [] := by
  obtain ⟨hphases, -⟩ := Controller.new_ok h
  have hprepare : ∀ node ∈ (Fleet.new c template).nodes, ∀ command ∈ node.commands,
      command.isPrepare = true := by
    intro node hmem command hcommand
    obtain ⟨shard, -, rfl⟩ := List.mem_map.mp hmem
    exact preparations_isPrepare hcommand
  have hstatus : p.status = .notStarted ∧ p.maxUsed = 0 := by
    rw [hphases, List.getElem?_map] at hp
    obtain ⟨phase, -, rfl⟩ := Option.map_eq_some_iff.mp hp
    exact ⟨rfl, rfl⟩
  refine ⟨?_, fun _ _ => rfl, fun _ => hstatus.2, ?_, nofun, .inr fun i node hnode => ?_⟩
  · intro _ node hmem count hstart
    have hother := hprepare node hmem _ hstart
    cases hother
  · rw [hstatus.1]
    exact nofun
  · refine .idle (List.filterMap_eq_nil_iff.mpr fun command hcommand => ?_) fun _ => ?_
    · have hone := hprepare node (List.mem_of_getElem? hnode) command hcommand
      cases command with
      | prepare => rfl
      | _ => cases hone
    · obtain ⟨shard, -, rfl⟩ := List.mem_map.mp (List.mem_of_getElem? hnode)
      exact ⟨le_rfl, fun _ => rfl⟩

theorem Chronicle.marked (h : Chronicle index f log) (hp : f.controller.phases[index]? = some p) :
    f.Marked index p log := by
  induction h generalizing p with
  | new h template => exact (new_marked h template hp).concat
  | happens h hf ih => exact Marked.befalls (fun p hp => ⟨h.logged hp, ih hp⟩) hf.befalls hp

/-- The ceiling of a phase holds over all that its log shows. -/
structure KeepsCeiling (f : Fleet) (index : Nat) (p : PhaseRun) (log : List Moment) : Prop where
  /-- The shards have the capacity among them. -/
  shares : p.shares.length = f.nodes.length ∧ p.shares.sum = p.phase.sessionCapacity
  /-- There never were more sessions at a time. -/
  ceiling : f.alive index ≤ p.phase.sessionCapacity ∧
    ∀ m ∈ log, m.total ≤ p.phase.sessionCapacity
  /-- What is collected at the end is no less than there were at any time, unless marks were lost
  with a sum that was refused. -/
  collected : p.status = .terminated → p.maxUsed ≤ p.phase.sessionCapacity ∧
    (Lossless log → ∀ m ∈ log, m.total ≤ p.maxUsed)
  /-- A start finds no slot just when all slots of its shard are taken. -/
  blocked : ∀ m ∈ log, ∀ shard a, m.look = some (shard, a) →
    a.there ≤ p.shareOf shard ∧ (a.blocked = true ↔ a.there = p.shareOf shard)
  /-- No start is counted as blocked that found a slot. -/
  counted : p.counters.blocked ≤ log.countP Moment.blocked

lemma Logged.peaks_le (h : f.Logged index p log) :
    peaks f.nodes.length log ≤ p.phase.sessionCapacity := by
  have hsum : p.shares.sum = p.phase.sessionCapacity := by
    rw [h.split]
    exact sum_share _ _ h.shards
  rw [← hsum, h.split]
  refine List.sum_le_sum fun i hi => crest_le fun a ha => ?_
  obtain ⟨m, hm, hlook⟩ := mem_looksOn.mp ha
  obtain ⟨hthere, hfull⟩ := h.looks m hm i a hlook
  have hshare : p.shareOf i = share p.phase.sessionCapacity f.nodes.length i := by
    rw [PhaseRun.shareOf, h.split]
    simp [splitCapacity, List.mem_range.mp hi]
  have hnumbered : Pool.numbered (p.shareOf i) ≤ p.shareOf i := Nat.mod_le _ _
  rw [← hshare]
  unfold Attempt.after
  split
  · omega
  · rename_i hfound
    have hne := mt hfull.mpr hfound
    omega

theorem Chronicle.keepsCeiling (h : Chronicle index f log)
    (hp : f.controller.phases[index]? = some p) (hshares : ∀ share ∈ p.shares, share < 2 ^ 32) :
    f.KeepsCeiling index p log := by
  have hlogged := h.logged hp
  have hmarked := h.marked hp
  have hpeaks := hlogged.peaks_le
  have halive := alive_le_peaks hlogged.roomed hlogged.mark
  refine ⟨⟨?_, ?_⟩, ⟨?_, ?_⟩, ?_, ?_, ?_⟩
  · rw [hlogged.split, splitCapacity, List.length_map, List.length_range]
  · rw [hlogged.split]
    exact sum_share _ _ hlogged.shards
  · exact halive.trans hpeaks
  · intro m hm
    exact (hlogged.totals m hm).trans hpeaks
  · intro hclosed
    obtain ⟨hle, heq⟩ := hmarked.ended hclosed
    refine ⟨hle.trans hpeaks, fun hlossless m hm => ?_⟩
    rw [heq hlossless]
    exact hlogged.totals m hm
  · intro m hm shard a ha
    have hlook := hlogged.looks m hm shard a ha
    rwa [PhaseRun.numbered_shareOf hshares] at hlook
  · exact (Nat.le_add_right _ _).trans hlogged.blocked

lemma moments_lossless (f : Fleet) (index : Nat) (deed : Option (Nat × Nanos × Deed)) :
    Lossless (f.moments index deed) := by
  intro moment hmem
  unfold moments at hmem
  split at hmem
  · cases hmem
  · split at hmem
    · cases hmem
    · obtain ⟨a, -, rfl⟩ := List.mem_map.mp hmem
      rfl

lemma Chronicle.move (h : Chronicle index f log) {m : Move} {outputs : List Output}
    (hm : f.move m = some (f', outputs)) (hout : Harmless outputs) :
    ∃ more, Chronicle index f' (log ++ more) ∧ Lossless more := by
  have hnext := h.happens (.move hm fun hcrash => nomatch hout _ hcrash)
  rw [List.append_assoc] at hnext
  exact ⟨_, hnext, List.forall_mem_append.mpr
    ⟨f.moments_lossless index _, List.forall_mem_singleton.mpr rfl⟩⟩

lemma Chronicle.later (h : Chronicle index f log) (hl : f.Later f') :
    ∃ more, Chronicle index f' (log ++ more) ∧ Lossless more := by
  induction hl with
  | refl => exact ⟨[], by rwa [List.append_nil], nofun⟩
  | move _ hm hout ih =>
    obtain ⟨more, hlog, hkept⟩ := ih
    obtain ⟨most, hnext, hmost⟩ := hlog.move hm hout
    rw [List.append_assoc] at hnext
    exact ⟨_, hnext, List.forall_mem_append.mpr ⟨hkept, hmost⟩⟩

lemma Reachable.chronicle (h : Reachable f) (index : Nat) :
    ∃ log, Chronicle index f log ∧ Lossless log := by
  induction h with
  | new h template => exact ⟨_, .new h template, List.forall_mem_singleton.mpr rfl⟩
  | move _ hm hout ih =>
    obtain ⟨log, hlog, hlossless⟩ := ih
    obtain ⟨more, hnext, hmore⟩ := hlog.move hm hout
    exact ⟨_, hnext, List.forall_mem_append.mpr ⟨hlossless, hmore⟩⟩

lemma Chronicle.seen (h : Chronicle index f log) : ∃ m ∈ log, m.total = f.alive index := by
  cases h with
  | new => exact ⟨_, List.mem_cons_self, rfl⟩
  | happens => exact ⟨_, List.mem_append_right _ List.mem_cons_self, rfl⟩

def packedPhase : Phase :=
  { Phase.simple "pack" ⟨[⟨"s", [.delay 5]⟩], [0], [], [], 1, (∅ : OrderedMap Nat Nat).insert 0 2⟩
      (.atOnce 4) with
    maxSessions := some 3 }

def packedStart : Controller where
  settings := .default 2
  name := "pack"
  phases := [.new packedPhase 2]
  startedAt := none
  fault := none

def packedMoves : List Move :=
  [.command 0 0, .command 1 0, .start 0 0, .command 1 0, .command 0 0, .timers 0 5, .timers 1 5,
    .notice 5, .notice 5, .notice 5, .notice 5, .notice 5, .ask 0 true, .command 0 5,
    .command 1 5, .conclude]

def packedFleet : Fleet := (new packedStart (.empty .default)).go packedMoves

lemma packedFleet_reachable : Reachable packedFleet := by
  have hnew : Controller.new (.default 2) ⟨"pack", [packedPhase]⟩ (fun _ => true) =
      .ok packedStart := rfl
  exact (Reachable.new hnew (.empty .default)).go packedMoves

theorem packedFleet_keepsCeiling : ∃ log p, Chronicle 0 packedFleet log ∧ Lossless log ∧
    packedFleet.controller.phases[0]? = some p ∧ (∀ share ∈ p.shares, share < 2 ^ 32) ∧
    packedFleet.KeepsCeiling 0 p log ∧ p.shares = [2, 1] ∧ p.status = .terminated ∧
    p.maxUsed = 3 ∧ 0 < log.countP Moment.blocked := by
  obtain ⟨log, hlog, hlossless⟩ := packedFleet_reachable.chronicle 0
  have hphase : packedFleet.controller.phases[0]?.map
      (fun p => (p.shares, p.status, p.maxUsed, p.counters.blocked)) =
      some ([2, 1], .terminated, 3, 1) := by decide +kernel
  obtain ⟨p, hp, heq⟩ := Option.map_eq_some_iff.mp hphase
  simp only [Prod.mk.injEq] at heq
  obtain ⟨hshares, hstatus, hmaxUsed, hblocked⟩ := heq
  have hsmall : ∀ share ∈ p.shares, share < 2 ^ 32 := by
    rw [hshares]
    decide
  have hkeeps := hlog.keepsCeiling hp hsmall
  refine ⟨log, p, hlog, hlossless, hp, hsmall, hkeeps, hshares, hstatus, hmaxUsed, ?_⟩
  have hcounted := hkeeps.counted
  rw [hblocked] at hcounted
  exact hcounted

/-- A request that has longer than any latency that can be told. -/
def eternalDraft : Draft where
  initial := ["s"]
  sequences := [⟨"s", [.operation { Operation.simple "p" "get" with timeout := 2 ^ 65 }]⟩]

def eternalPhase : Phase :=
  .simple "eternal" (eternalDraft.build.toOption.getD ⟨[], [], [], [], 0, ∅⟩) (.atOnce 2)

def eternalSettings : Settings :=
  { Settings.default 2 with histogramMax := Nanos.maxCount, sigfig := 1 }

def eternalStart : Controller where
  settings := eternalSettings
  name := "eternal"
  phases := [.new eternalPhase 2]
  startedAt := none
  fault := none

def eternalBegun : Fleet := (new eternalStart (.empty eternalSettings.shape)).go
  [.command 0 0, .command 1 0, .start 0 0, .command 0 0, .command 1 0]

def eternalAnswered : Fleet := eternalBegun.go
  [.deliver 0 [.complete ⟨0, 0, 0, 0, 0⟩ .success], .event 0 0,
    .deliver 1 [.complete ⟨0, 0, 0, 0, 0⟩ .success], .event 1 Nanos.maxCount,
    .notice Nanos.maxCount, .notice Nanos.maxCount, .notice Nanos.maxCount, .notice Nanos.maxCount,
    .ask 0 true, .command 0 Nanos.maxCount, .command 1 Nanos.maxCount]

/-- Their sum was refused, and they are asked once more. -/
def eternalOver : Fleet := { eternalAnswered with inquiry := none }.go
  [.ask 0 true, .command 0 Nanos.maxCount, .command 1 Nanos.maxCount, .conclude]

/-- After a sum that was refused, a phase that had two sessions at a time ends with none collected,
though no shard told of a broken contract and none is down. -/
theorem eternal_collects_too_little : ∃ log p, Chronicle 0 eternalOver log ∧
    eternalOver.controller.phases[0]? = some p ∧ (∀ share ∈ p.shares, share < 2 ^ 32) ∧
    eternalOver.controller.fault = none ∧ (∀ node ∈ eternalOver.nodes, node.running = true) ∧
    p.status = .terminated ∧ p.maxUsed = 0 ∧ ∃ m ∈ log, m.total = 2 := by
  have hnew : Controller.new eternalSettings ⟨"eternal", [eternalPhase]⟩ (fun _ => true) =
      .ok eternalStart := rfl
  have hbegun : Reachable eternalBegun := (Reachable.new hnew _).go _
  obtain ⟨log, hlog, -⟩ := hbegun.chronicle 0
  obtain ⟨m, hm, htotal⟩ := hlog.seen
  have htwo : eternalBegun.alive 0 = 2 := by decide +kernel
  obtain ⟨more, hanswered, -⟩ := hlog.later (.go eternalBegun _)
  have hrefused : (do
      let q ← eternalAnswered.inquiry
      let sum ← q.sum?
      some sum.isOk) = some false := by decide +kernel
  simp only [Option.bind_eq_bind, Option.bind_eq_some_iff, Option.some.injEq] at hrefused
  obtain ⟨q, hq, sum, hsum, hbad⟩ := hrefused
  cases sum with
  | ok sum => cases hbad
  | error fault =>
    obtain ⟨last, hover, -⟩ := (hanswered.happens (.refuse hq hsum)).later
      (.go { eternalAnswered with inquiry := none } _)
    have hphase : eternalOver.controller.phases[0]?.map (fun p => (p.shares, p.status, p.maxUsed)) =
        some ([1, 1], .terminated, 0) := by decide +kernel
    obtain ⟨p, hp, heq⟩ := Option.map_eq_some_iff.mp hphase
    simp only [Prod.mk.injEq] at heq
    obtain ⟨hshares, hstatus, hmaxUsed⟩ := heq
    refine ⟨_, p, hover, hp, ?_, by decide +kernel, by decide +kernel, hstatus, hmaxUsed, m, ?_,
      htotal.trans htwo⟩
    · rw [hshares]
      decide
    · simp only [List.append_assoc]
      exact List.mem_append_left _ hm

end Fleet

end LoadEngine
