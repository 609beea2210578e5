import LoadEngine.Proofs.CountedOnce
import LoadEngine.Proofs.FleetAudit

/-! The statistics of a phase are complete and final. While a phase goes on, its shards tell what
they have recorded, however often they are asked. When it ends, nothing can be recorded of it any
more from the moment on in which its shards are asked for the last time; so what is kept then is all
that was recorded, and what the shards tell later adds nothing. -/

namespace LoadEngine

open Recording (about about_append since since_of_notMem since_snoc_reset)

def Flight.recordings (f : Flight) : List Recording :=
  .request f.operation.metric :: (f.sample?.map fun x => .sample x.1 x.2).toList

/-- What the operations of a phase on some shards come to, for one metric: each counts as a request,
and with its outcome and latency once it has come to an end before its session. -/
def tally (shape : Histogram.Shape) (books : List Ledger) (phase : Nat) (metric : String) :
    Option Snapshot :=
  tallied shape ((books.flatMap fun l => l.ofPhase phase).flatMap Flight.recordings) metric

/-- What is told of a phase: what is kept of it, with what its shards answered in all. -/
def PhaseRun.pull (p : PhaseRun) (answer : Except ContractViolation PhaseSnapshot) :
    Except ContractViolation StatisticsSet := do
  p.statistics.merge (← answer).statistics

namespace Recording

lemma about_sorted (metric : String) (l : List Recording) :
    (about metric l).Perm (about metric ((l.filterMap request?).map .request ++
      (l.filterMap sample?).map fun x => .sample x.1 x.2)) := by
  induction l with
  | nil => exact .refl _
  | cons x rest ih =>
    cases x with
    | reset => exact ih
    | request m =>
      change (about metric ([.request m] ++ rest)).Perm (about metric ([.request m] ++ _))
      rw [about_append, about_append]
      exact ih.append_left _
    | sample m x =>
      change (about metric ([.sample m x] ++ rest)).Perm _
      rw [about_append]
      refine (ih.append_left _).trans ?_
      rw [← about_append]
      have hmiddle : (.sample m x :: ((rest.filterMap request?).map request ++
          (rest.filterMap sample?).map fun x => .sample x.1 x.2)).Perm
          ((rest.filterMap request?).map request ++
            .sample m x :: (rest.filterMap sample?).map fun x => .sample x.1 x.2) :=
        List.perm_middle.symm
      exact hmiddle.filter _

end Recording

lemma Flight.recordings_sorted (l : List Flight) : (l.flatMap Flight.recordings).Perm
    ((l.map fun f => .request f.operation.metric) ++
      (l.filterMap Flight.sample?).map fun x => .sample x.1 x.2) := by
  induction l with
  | nil => exact .refl _
  | cons f rest ih =>
    rw [List.flatMap_cons, List.map_cons, recordings, List.cons_append, List.cons_append]
    refine .cons _ ((ih.append_left _).trans ?_)
    cases hsample : f.sample? with
    | none => simp [hsample]
    | some x =>
      simp only [List.filterMap_cons, hsample, List.map_cons, Option.map_some, Option.toList_some,
        List.singleton_append]
      exact List.perm_middle.symm

lemma Shard.Run.about_perm {s : Shard} {l : Ledger} (h : s.Run l) (phase : Nat) (metric : String) :
    (about metric (l.recorded phase)).Perm
      (about metric ((l.ofPhase phase).flatMap Flight.recordings)) := by
  have hrequests := congrArg (List.map Recording.request) (h.requests phase)
  rw [List.map_map] at hrequests
  refine (Recording.about_sorted metric _).trans (.trans ?_
    ((Flight.recordings_sorted (l.ofPhase phase)).symm.filter _))
  rw [hrequests]
  exact (((h.samples phase).map _).append_left _).filter _

lemma tallied_eq_tally (shape : Histogram.Shape) {books : List Ledger}
    (h : ∀ l ∈ books, ∃ s : Shard, s.Run l) (phase : Nat) (metric : String) :
    tallied shape (books.flatMap fun l => l.recorded phase) metric =
      tally shape books phase metric := by
  refine tallied_congr shape ?_
  induction books with
  | nil => exact .refl _
  | cons l rest ih =>
    obtain ⟨⟨s, hrun⟩, hrest⟩ := List.forall_mem_cons.mp h
    rw [List.flatMap_cons, List.flatMap_cons, List.flatMap_append, about_append, about_append]
    exact (hrun.about_perm phase metric).append (ih hrest)

namespace Ledger

variable {l l' l₀ : Ledger} {phase : Nat} {ended : Bool} {answer : Option (Bool × Ledger)}

def Whole (l : Ledger) (phase : Nat) : Prop := .reset ∉ l.recorded phase

def Cleared (l : Ledger) (phase : Nat) : Prop := Recording.since (l.recorded phase) = []

def Agrees (l l' : Ledger) (phase : Nat) : Prop :=
  ∀ metric, about metric (l.recorded phase) = about metric (l'.recorded phase)

/-- Where a shard stands with a phase that is over or not, with what its books said when it answered
a question about the phase, if it did: whether that was to forget all, and what the books were. -/
inductive Stands (phase : Nat) : Bool → Option (Bool × Ledger) → Ledger → Prop
  | fresh {l : Ledger} (h : l.Whole phase) : Stands phase false none l
  | pulled {l l₀ : Ledger} (h₀ : l₀.Whole phase) (h : l.Whole phase) :
      Stands phase false (some (false, l₀)) l
  | collected {l l₀ : Ledger} (h₀ : l₀.Whole phase) (h : l.Cleared phase)
      (hagrees : l₀.Agrees l phase) : Stands phase false (some (true, l₀)) l
  | ended {l : Ledger} (h : l.Cleared phase) : Stands phase true none l
  | recalled {l l₀ : Ledger} {reset : Bool} (h₀ : l₀.Cleared phase) (h : l.Cleared phase)
      (hagrees : l₀.Agrees l phase) : Stands phase true (some (reset, l₀)) l

lemma Stands.whole {reset : Bool} (h : l.Stands phase false (some (reset, l₀))) :
    l₀.Whole phase := by
  cases h with
  | pulled h₀ _ => exact h₀
  | collected h₀ _ _ => exact h₀

lemma Stands.cleared {reset : Bool} (h : l.Stands phase true (some (reset, l₀))) :
    l₀.Cleared phase ∧ l₀.Agrees l phase := by
  cases h with
  | recalled h₀ _ hagrees => exact ⟨h₀, hagrees⟩

lemma Stands.concludes {reset : Bool} (h : l.Stands phase ended (some (reset, l₀))) :
    l.Stands phase (ended || reset) none := by
  cases h with
  | pulled _ h => exact .fresh h
  | collected _ h _ => exact .ended h
  | recalled _ h _ => exact .ended h

lemma about_of_agrees {books books' : List Ledger}
    (h : List.Forall₂ (fun l l' => l.Agrees l' phase) books books') (metric : String) :
    about metric (books.flatMap fun l => l.recorded phase) =
      about metric (books'.flatMap fun l => l.recorded phase) := by
  induction h with
  | nil => rfl
  | cons hl _ ih =>
    rw [List.flatMap_cons, List.flatMap_cons, about_append, about_append, hl metric, ih]

end Ledger

namespace Node

variable {n n' : Node} {l l' : Ledger} {now : Nanos} {deed : Deed} {outputs : List Output}
  {phase : Nat} {ended : Bool} {answer : Option (Bool × Ledger)}

structure Quiet (n : Node) (phase : Nat) : Prop where
  idle : n.shard.alive phase = 0
  unstarted : ∀ count, .start phase count ∉ n.commands

lemma Spent.quiet (h : n.Spent phase) : n.Quiet phase := by
  refine ⟨h.idle, fun count hmem => ?_⟩
  have hclear := h.clear _ hmem
  rw [Command.concerns, beq_self_eq_true] at hclear
  cases hclear

lemma Quiet.told (h : n.Quiet phase) (hshard : n'.shard = n.shard) {extra : List Command}
    (hcommands : n'.commands = n.commands ++ extra)
    (hextra : ∀ c ∈ extra, c.concerns phase = false) : n'.Quiet phase := by
  refine ⟨hshard ▸ h.idle, fun count hmem => ?_⟩
  rw [hcommands, List.mem_append] at hmem
  refine hmem.elim (h.unstarted count) fun hmem => ?_
  have hclear := hextra _ hmem
  rw [Command.concerns, beq_self_eq_true] at hclear
  cases hclear

lemma Quiet.does (h : n.Quiet phase) (horderly : n.Orderly) (hdoes : n.Does now deed n' outputs)
    (hout : Harmless outputs) : n'.Quiet phase :=
  ⟨(hdoes.idle h.idle ((Fleet.startsIn_eq_zero_iff horderly phase).mpr h.unstarted) hout).1,
    fun count hmem => h.unstarted count (hdoes.subset _ hmem)⟩

lemma Quiet.recorded (h : n.Quiet phase) (hbooked : n.Booked l)
    (hdoes : n.Does now deed n' outputs) (hlogs : n.shard.Logs l deed (n'.shard, outputs) l')
    (hdeed : deed ≠ .command (.collect phase true)) : l'.recorded phase = l.recorded phase := by
  have hperform : (n'.shard, outputs) = n.shard.perform now deed := by
    rw [hdoes.shard, hdoes.told]
  rw [hperform] at hlogs
  refine hbooked.run.recorded_idle hlogs ?_ h.idle ?_ hdeed
  · rintro c rfl
    exact hbooked.allowed c hdoes.mem
  · rintro count rfl
    exact h.unstarted count hdoes.mem

lemma Booked.stands (hbooked : n.Booked l) (hdoes : n.Does now deed n' outputs)
    (hlogs : n.shard.Logs l deed (n'.shard, outputs) l')
    (hdeed : deed ≠ .command (.collect phase true)) (h : l.Stands phase ended answer)
    (hquiet : (ended = true ∨ ∃ l₀, answer = some (true, l₀)) → n.Quiet phase) :
    l'.Stands phase ended answer := by
  have hwhole : l.Whole phase → l'.Whole phase := by
    intro hl hmem
    obtain ⟨extra, hextra, hrecorded⟩ := hlogs.recorded hdeed
    rw [hrecorded, List.mem_append] at hmem
    exact hmem.elim hl hextra
  have hsame (hq : n.Quiet phase) := hq.recorded hbooked hdoes hlogs hdeed
  cases h with
  | fresh h => exact .fresh (hwhole h)
  | pulled h₀ h => exact .pulled h₀ (hwhole h)
  | collected h₀ h hagrees =>
    have hrecorded := hsame (hquiet (.inr ⟨_, rfl⟩))
    refine .collected h₀ ?_ fun metric => ?_
    · rwa [Ledger.Cleared, hrecorded]
    · rw [hrecorded]
      exact hagrees metric
  | ended h =>
    refine .ended ?_
    rwa [Ledger.Cleared, hsame (hquiet (.inl rfl))]
  | recalled h₀ h hagrees =>
    have hrecorded := hsame (hquiet (.inl rfl))
    refine .recalled h₀ ?_ fun metric => ?_
    · rwa [Ledger.Cleared, hrecorded]
    · rw [hrecorded]
      exact hagrees metric

lemma Booked.stands_answered (hbooked : n.Booked l) {reset : Bool}
    (hdoes : n.Does now (.command (.collect phase reset)) n' outputs)
    (hlogs : n.shard.Logs l (.command (.collect phase reset)) (n'.shard, outputs) l')
    (h : l.Stands phase ended none) (hover : ended = true → reset = false ∧ n.Quiet phase) :
    l'.Stands phase ended (some (reset, l)) := by
  cases h with
  | fresh h =>
    cases reset with
    | false =>
      refine .pulled h fun hmem => ?_
      obtain ⟨extra, hextra, hrecorded⟩ := hlogs.recorded nofun
      rw [hrecorded, List.mem_append] at hmem
      exact hmem.elim h hextra
    | true =>
      rcases hbooked.run.recorded_reset hlogs with hrecorded | ⟨hnone, hnone'⟩
      · refine .collected h ?_ fun metric => ?_
        · rw [Ledger.Cleared, hrecorded, since_snoc_reset]
        · rw [hrecorded, about_append]
          exact (List.append_nil _).symm
      · refine .collected h ?_ fun metric => ?_
        · rw [Ledger.Cleared, hnone']
          rfl
        · rw [hnone, hnone']
  | ended h =>
    obtain ⟨rfl, hquiet⟩ := hover rfl
    have hrecorded := hquiet.recorded hbooked hdoes hlogs nofun
    refine .recalled h ?_ fun metric => ?_
    · rwa [Ledger.Cleared, hrecorded]
    · rw [hrecorded]

end Node

namespace Fleet

variable {f f' : Fleet} {ls ls' : List Ledger} {told : List (Option Ledger)} {m : Move}
  {outputs : List Output} {actor : Option Nat} {sent : List Dispatch} {shape : Histogram.Shape}
  {index shard : Nat} {p p' : PhaseRun} {node node' : Node} {l l' : Ledger} {now : Nanos}
  {deed : Deed} {q : Inquiry}

def answered (f : Fleet) (told : List (Option Ledger)) (index shard : Nat) :
    Option (Bool × Ledger) :=
  f.inquiry.bind fun q => if q.index = index then told[shard]?.join.map (Prod.mk q.reset) else none

/-- How the shards stand with every phase. Nothing is recorded of a phase that was not started,
nothing is kept of one that is not over, and of one that is over there is kept what was recorded. -/
structure Settled (shape : Histogram.Shape) (f : Fleet) (ls : List Ledger)
    (told : List (Option Ledger)) : Prop where
  unstarted : ∀ (index : Nat) (p : PhaseRun) (l : Ledger), f.controller.phases[index]? = some p →
    p.status = .notStarted → l ∈ ls → l.recorded index = []
  blank : ∀ (index : Nat) (p : PhaseRun), f.controller.phases[index]? = some p →
    p.status ≠ .terminated → p.statistics = ∅
  stands : ∀ (index : Nat) (p : PhaseRun) (shard : Nat) (l : Ledger),
    f.controller.phases[index]? = some p → ls[shard]? = some l →
    l.Stands index (decide (p.status = .terminated)) (f.answered told index shard)
  quiet : ∀ (index : Nat) (p : PhaseRun) (node : Node), f.controller.phases[index]? = some p →
    p.status = .terminated → node ∈ f.nodes → node.Quiet index
  kept : ∀ (index : Nat) (p : PhaseRun) (metric : String),
    f.controller.phases[index]? = some p → p.status = .terminated →
    p.statistics.get? metric = tallied shape (ls.flatMap fun l => l.recorded index) metric

lemma answered_of_idle (hidle : f.inquiry = none) (told : List (Option Ledger))
    (index shard : Nat) : f.answered told index shard = none := by
  rw [answered, hidle, Option.bind_none]

lemma answered_of_silent (hinquiry : f'.inquiry = f.inquiry.map fun q => q.hear shard outputs)
    (hsilent : outputs.findSome? Output.snapshot? = none) (index i : Nat) :
    f'.answered (f.heard ls told (some shard) outputs) index i = f.answered told index i := by
  cases hq : f.inquiry with
  | none =>
    rw [answered_of_idle hq, answered_of_idle]
    rw [hinquiry, hq, Option.map_none]
  | some q =>
    rw [heard_of_silent hq hsilent, answered, answered, hinquiry, hq, Option.map_some,
      hear_of_silent q shard hsilent]

lemma answered_of_open (hq : f.inquiry = some q) (hopen : told[shard]? = some none) :
    f.answered told index shard = none := by
  rw [answered, hq, Option.bind_some, hopen]
  split <;> rfl

lemma answered_of_snapshot (hinquiry : f'.inquiry = f.inquiry.map fun q => q.hear shard outputs)
    (hq : f.inquiry = some q) (hopen : told[shard]? = some none) (hl : ls[shard]? = some l)
    (hsaid : ∃ snapshot, outputs.findSome? Output.snapshot? = some snapshot) (index : Nat) :
    f'.answered (f.heard ls told (some shard) outputs) index shard =
      if q.index = index then some (q.reset, l) else none := by
  have hheard : (f.heard ls told (some shard) outputs)[shard]? = some (some l) := by
    obtain ⟨snapshot, hsaid⟩ := hsaid
    have hlt := (List.getElem?_eq_some_iff.mp hopen).1
    simp only [heard, hq, hsaid, hl]
    rw [List.getElem?_set_self hlt]
  rw [answered, hinquiry, hq, Option.map_some, Option.bind_some, (hear_index q shard _).1,
    (hear_index q shard _).2, hheard]
  rfl

lemma Tuned.asked_status (h : f.Tuned) (hq : f.inquiry = some q) (hreset : q.reset = true)
    (hp : f.controller.phases[q.index]? = some p) :
    (p.status = .finished ∨ p.status = .terminating) ∧ p.isDrained = true := by
  have hready := h.asked q hq hreset
  simpa [Controller.canTerminate, hp, PhaseRun.canTerminate] using hready

lemma Sane.quiet (h : f.Sane) (hp : f.controller.phases[index]? = some p)
    (hdrained : p.isDrained = true) (hnode : node ∈ f.nodes) : node.Quiet index := by
  have hrest := (atRest_iff h index).mpr ((h.balanced index p hp).isDrained_iff.mp hdrained)
  exact ⟨hrest.sessions node hnode, hrest.commands node hnode⟩

lemma Asking.not_collects (h : Asking shape f told) (htuned : f.Tuned)
    (hp : f.controller.phases[index]? = some p)
    (hstatus : p.status = .notStarted ∨ p.status = .terminated)
    (hnode : f.nodes[shard]? = some node) (hdoes : node.Does now deed node' outputs) :
    deed ≠ .command (.collect index true) := by
  rintro rfl
  obtain ⟨q, hq, rfl, hreset, -⟩ := h.collects hnode hdoes.mem
  obtain ⟨hready, -⟩ := htuned.asked_status hq hreset hp
  rcases hready with hready | hready <;> rw [hready] at hstatus <;> rcases hstatus with h | h <;>
    cases h

section Serves

variable (h : Settled shape f ls told) (hsane : f.Sane) (htuned : f.Tuned)
  (hasking : Asking shape f told) (hbooked : node.Booked l)
  (hnode : f.nodes[shard]? = some node) (hl : ls[shard]? = some l)
  (hdoes : node.Does now deed node' outputs)
  (hlogs : node.shard.Logs l deed (node'.shard, outputs) l')

include h htuned hasking hbooked hnode hdoes hlogs in
lemma Settled.recorded (hp : f.controller.phases[index]? = some p)
    (hstatus : p.status = .notStarted ∨ p.status = .terminated) :
    l'.recorded index = l.recorded index := by
  have hmem := List.mem_of_getElem? hnode
  have hquiet : node.Quiet index := by
    rcases hstatus with hfresh | hover
    · exact ((htuned.follows index p node hp hmem).unstarted hfresh).quiet
    · exact h.quiet index p node hp hover hmem
  exact hquiet.recorded hbooked hdoes hlogs
    (hasking.not_collects htuned hp hstatus hnode hdoes)

include h hsane htuned hasking hbooked hnode hl hdoes hlogs in
lemma Settled.served (hp : f.controller.phases[index]? = some p)
    (hinquiry : f'.inquiry = f.inquiry.map fun q => q.hear shard outputs) :
    l'.Stands index (decide (p.status = .terminated))
      (f'.answered (f.heard ls told (some shard) outputs) index shard) := by
  have hmem := List.mem_of_getElem? hnode
  have hstands := h.stands index p shard l hp hl
  have hover (hover : decide (p.status = .terminated) = true) : node.Quiet index :=
    h.quiet index p node hp (of_decide_eq_true hover) hmem
  have hreplies := hdoes.replies
  cases hreplies with
  | @other deed outputs hdeed _ hsilent =>
    rw [answered_of_silent hinquiry hsilent]
    refine hbooked.stands hdoes hlogs (hdeed index true) hstands ?_
    rintro (hterminated | ⟨l₀, hanswer⟩)
    · exact hover hterminated
    · obtain ⟨q, hq, hsome⟩ := Option.bind_eq_some_iff.mp hanswer
      by_cases hindex : q.index = index
      · subst hindex
        rw [if_pos rfl] at hsome
        obtain ⟨l₁, -, heq⟩ := Option.map_eq_some_iff.mp hsome
        obtain ⟨-, hdrained⟩ := htuned.asked_status hq (Prod.mk.inj heq).1 hp
        exact hsane.quiet hp hdrained hmem
      · rw [if_neg hindex] at hsome
        cases hsome
  | @answers phase reset _ =>
    obtain ⟨q, hq, rfl, rfl, hopen⟩ := hasking.collects hnode hdoes.mem
    rw [answered_of_open hq hopen] at hstands
    rw [answered_of_snapshot hinquiry hq hopen hl ⟨_, findSome?_snapshot _ _⟩]
    split
    · rename_i hindex
      subst hindex
      refine hbooked.stands_answered hdoes hlogs hstands fun hterminated => ⟨?_, hover hterminated⟩
      by_contra hreset
      obtain ⟨hready, -⟩ := htuned.asked_status hq (Bool.eq_true_of_not_eq_false hreset) hp
      rw [of_decide_eq_true hterminated] at hready
      rcases hready with hready | hready <;> cases hready
    · rename_i hne
      refine hbooked.stands hdoes hlogs (fun hdeed => hne ?_) hstands ?_
      · exact (Command.collect.inj (Deed.command.inj hdeed)).1
      · rintro (hterminated | ⟨l₀, hanswer⟩)
        · exact hover hterminated
        · cases hanswer

end Serves

lemma Settled.answering (h : Settled shape f ls told) {books : List Ledger}
    (htold : told = books.map some) (hlength : told.length = ls.length) (hq : f.inquiry = some q)
    (hp : f.controller.phases[q.index]? = some p) :
    List.Forall₂ (fun l₀ l => l.Stands q.index (decide (p.status = .terminated))
      (some (q.reset, l₀))) books ls := by
  rw [htold, List.length_map] at hlength
  refine List.forall₂_iff_get.mpr ⟨hlength, fun i hi hi' => ?_⟩
  have hstands := h.stands q.index p i _ hp (List.getElem?_eq_getElem hi')
  have hanswer : f.answered told q.index i = some (q.reset, books[i]) := by
    rw [answered, hq, Option.bind_some, if_pos rfl, htold, List.getElem?_map,
      List.getElem?_eq_getElem hi]
    rfl
  rwa [hanswer] at hstands

lemma Settled.collected (h : Settled shape f ls told) (hasking : Asking shape f told)
    (hlength : told.length = ls.length) (hq : f.inquiry = some q) (hreset : q.reset = true)
    {sum : PhaseSnapshot} (hsum : q.sum? = some (.ok sum))
    (hp : f.controller.phases[q.index]? = some p) (hopen : p.status ≠ .terminated)
    (metric : String) : sum.statistics.get? metric =
      tallied shape (ls.flatMap fun l => l.recorded q.index) metric := by
  obtain ⟨books, htold, ⟨_, hok, hshows⟩ | ⟨_, herror, -⟩⟩ := hasking.sum_shows hq hsum
  · cases hok
    have hheard := h.answering htold hlength hq hp
    rw [decide_eq_false hopen, hreset] at hheard
    have hwhole : ∀ l ∈ books, since (l.recorded q.index) = l.recorded q.index :=
      fun l hl => since_of_notMem (((List.forall₂_and_left _ _).mp
        (hheard.imp fun _ _ hl => ⟨hl.whole, hl⟩)).1 l hl)
    have hagrees := hheard.imp fun l₀ l hl => by
      cases hl with
      | collected _ _ hagrees => exact hagrees
    rw [hshows.2, List.flatMap_congr hwhole]
    exact tallied_congr shape (.of_eq (Ledger.about_of_agrees hagrees metric))
  · cases herror

lemma over_or_never (hd : p.Directed f.nodes.length index sent p') :
    (p'.status = .terminated ↔ p.status = .terminated) ∨
      p.status = .notStarted ∧ p'.status = .terminated ∧ sent = [] := by
  cases hending : p.status.isEnding with
  | true => exact .inl (by rw [(hd.kept hending).1])
  | false =>
    have hopen : p.status ≠ .terminated := by
      intro hover
      rw [hover] at hending
      cases hending
    cases hending' : p'.status.isEnding with
    | true =>
      rcases hd.ends hending hending' with ⟨hstatus, -⟩ | hnever
      · refine .inl ⟨fun hover => ?_, fun hover => absurd hover hopen⟩
        rw [hover] at hstatus
        cases hstatus
      · exact .inr hnever
    | false =>
      refine .inl ⟨fun hover => ?_, fun hover => absurd hover hopen⟩
      rw [hover] at hending'
      cases hending'

lemma Settled.directs (h : Settled shape f ls told) (htuned : f.Tuned) (hidle : f.inquiry = none)
    {c : Controller} {notices : List Notice} (hd : f.controller.Directs c f.nodes.length sent)
    (told' : List (Option Ledger)) :
    Settled shape ⟨c, tell f.nodes sent, notices, none⟩ ls told' := by
  have hback {index : Nat} {p' : PhaseRun} (hp' : c.phases[index]? = some p') :
      ∃ p, f.controller.phases[index]? = some p ∧ p.Directed f.nodes.length index sent p' := by
    have hlt := (List.getElem?_eq_some_iff.mp hp').1
    rw [hd.length] at hlt
    have hp := List.getElem?_eq_getElem hlt
    exact ⟨_, hp, hd.phases index _ p' hp hp'⟩
  refine ⟨?_, ?_, ?_, ?_, ?_⟩
  · intro index p' l hp' hfresh hl
    obtain ⟨p, hp, hdirected⟩ := hback hp'
    exact h.unstarted index p l hp (hdirected.unstarted hfresh).1 hl
  · intro index p' hp' hopen
    obtain ⟨p, hp, hdirected⟩ := hback hp'
    rw [hdirected.statistics]
    refine h.blank index p hp fun hover => hopen ?_
    rw [(hdirected.kept (by rw [hover]; rfl)).1, hover]
  · intro index p' shard l hp' hl
    obtain ⟨p, hp, hdirected⟩ := hback hp'
    have hstands := h.stands index p shard l hp hl
    rw [answered_of_idle hidle] at hstands
    rw [answered_of_idle rfl]
    rcases over_or_never hdirected with hsame | ⟨hfresh, hover, -⟩
    · rwa [decide_eq_decide.mpr hsame]
    · rw [decide_eq_true hover]
      refine .ended ?_
      rw [Ledger.Cleared, h.unstarted index p l hp hfresh (List.mem_of_getElem? hl)]
      rfl
  · intro index p' node' hp' hover hmem
    obtain ⟨p, hp, hdirected⟩ := hback hp'
    obtain ⟨i, hnode'⟩ := List.mem_iff_getElem?.mp hmem
    rw [tell_getElem?] at hnode'
    obtain ⟨node, hnode, rfl⟩ := Option.map_eq_some_iff.mp hnode'
    have hnodeMem := List.mem_of_getElem? hnode
    rcases over_or_never hdirected with hsame | ⟨hfresh, -, rfl⟩
    · have hbefore := hsame.mp hover
      refine (h.quiet index p node hp hbefore hnodeMem).told rfl rfl fun c hc => ?_
      exact (hdirected.kept (by rw [hbefore]; rfl)).2 _ (mem_sentTo.mp hc)
    · exact ((htuned.follows index p node hp hnodeMem).unstarted hfresh).quiet.told rfl rfl nofun
  · intro index p' metric hp' hover
    obtain ⟨p, hp, hdirected⟩ := hback hp'
    rw [hdirected.statistics]
    rcases over_or_never hdirected with hsame | ⟨hfresh, -, -⟩
    · exact h.kept index p metric hp (hsame.mp hover)
    · have hopen : p.status ≠ .terminated := by
        rw [hfresh]
        exact nofun
      have hnone : (ls.flatMap fun l => l.recorded index) = [] :=
        List.flatMap_eq_nil_iff.mpr fun l hl => h.unstarted index p l hp hfresh hl
      rw [h.blank index p hp hopen, hnone]
      rfl

lemma Settled.stands_concluded (h : Settled shape f ls told) (hasking : Asking shape f told)
    (hlength : told.length = ls.length) (hq : f.inquiry = some q) {sum : PhaseSnapshot}
    (hsum : q.sum? = some (.ok sum)) (hp : f.controller.phases[index]? = some p)
    (hl : ls[shard]? = some l) :
    l.Stands index (decide (p.status = .terminated) || (decide (q.index = index) && q.reset))
      none := by
  have hstands := h.stands index p shard l hp hl
  by_cases hi : q.index = index
  · -- Every shard has answered, so this one stands where its answer left it.
    subst hi
    obtain ⟨books, htold, -⟩ := hasking.sum_shows hq hsum
    have hlt := (List.getElem?_eq_some_iff.mp hl).1
    rw [← hlength, htold, List.length_map] at hlt
    have ht : told[shard]? = some (some books[shard]) := by
      rw [htold, List.getElem?_map, List.getElem?_eq_getElem hlt]
      rfl
    rw [answered, hq, Option.bind_some, if_pos rfl, ht] at hstands
    rw [decide_eq_true rfl, Bool.true_and]
    exact Ledger.Stands.concludes hstands
  · rw [answered, hq, Option.bind_some, if_neg hi] at hstands
    rwa [decide_eq_false hi, Bool.false_and, Bool.or_false]

lemma Settled.concludes (h : Settled shape f ls told) (hsane : f.Sane) (htuned : f.Tuned)
    (hasking : Asking shape f told) (hlength : told.length = ls.length) (hq : f.inquiry = some q)
    {sum : PhaseSnapshot} (hsum : q.sum? = some (.ok sum)) (told' : List (Option Ledger)) :
    Settled shape ⟨if q.reset then f.controller.complete q.index sum else f.controller, f.nodes,
      f.notices, none⟩ ls told' := by
  constructor
  case unstarted =>
    intro index p' l hp' hfresh hl
    obtain ⟨p, hp, ⟨rfl, -⟩ | ⟨-, -, rfl⟩⟩ := concluded_back hp'
    · exact h.unstarted index p' l hp hfresh hl
    · cases hfresh
  case blank =>
    intro index p' hp' hopen
    obtain ⟨p, hp, ⟨rfl, -⟩ | ⟨-, -, rfl⟩⟩ := concluded_back hp'
    · exact h.blank index p' hp hopen
    · exact absurd rfl hopen
  case stands =>
    intro index p' shard l hp' hl
    rw [answered_of_idle rfl]
    obtain ⟨p, hp, ⟨rfl, hnot⟩ | ⟨hi, hreset, rfl⟩⟩ := concluded_back hp'
    · have hsame := h.stands_concluded hasking hlength hq hsum hp hl
      have hnone : (decide (q.index = index) && q.reset) = false := by
        by_cases hi : q.index = index
        · rw [Bool.eq_false_iff.mpr fun hreset => hnot ⟨hi, hreset⟩, Bool.and_false]
        · rw [decide_eq_false hi, Bool.false_and]
      rwa [hnone, Bool.or_false] at hsame
    · have hended := h.stands_concluded hasking hlength hq hsum hp hl
      rw [decide_eq_true hi, hreset, Bool.true_and, Bool.or_true] at hended
      exact hended
  case quiet =>
    intro index p' node hp' hover hmem
    obtain ⟨p, hp, ⟨rfl, -⟩ | ⟨rfl, hreset, -⟩⟩ := concluded_back hp'
    · exact h.quiet index p' node hp hover hmem
    · exact hsane.quiet hp (htuned.asked_status hq hreset hp).2 hmem
  case kept =>
    intro index p' metric hp' hover
    obtain ⟨p, hp, ⟨rfl, -⟩ | ⟨rfl, hreset, rfl⟩⟩ := concluded_back hp'
    · exact h.kept index p' metric hp hover
    · refine h.collected hasking hlength hq hreset hsum hp (fun hterminated => ?_) metric
      obtain ⟨hready, -⟩ := htuned.asked_status hq hreset hp
      rw [hterminated] at hready
      rcases hready with hready | hready <;> cases hready

lemma Settled.serves (h : Settled shape f ls told) (hsane : f.Sane) (htuned : f.Tuned)
    (hasking : Asking shape f told) (hbooked : node.Booked l)
    (hnode : f.nodes[shard]? = some node) (hl : ls[shard]? = some l)
    (hdoes : node.Does now deed node' outputs) (hout : Harmless outputs)
    (hlogs : node.shard.Logs l deed (node'.shard, outputs) l') :
    Settled shape ⟨f.controller, f.nodes.set shard node', f.notices ++ noticesOf outputs,
      f.inquiry.map fun q => q.hear shard outputs⟩ (ls.set shard l')
      (f.heard ls told (some shard) outputs) := by
  have hmem := List.mem_of_getElem? hnode
  have hrecorded {index : Nat} {p : PhaseRun} (hp : f.controller.phases[index]? = some p)
      (hstatus : p.status = .notStarted ∨ p.status = .terminated) :
      l'.recorded index = l.recorded index :=
    h.recorded htuned hasking hbooked hnode hdoes hlogs hp hstatus
  refine ⟨?_, h.blank, ?_, ?_, ?_⟩
  · intro index p l₁ hp hfresh hl₁
    refine forall_mem_set (P := fun l => l.recorded index = [])
      (fun l hl => h.unstarted index p l hp hfresh hl) ?_ l₁ hl₁
    rw [hrecorded hp (.inl hfresh)]
    exact h.unstarted index p l hp hfresh (List.mem_of_getElem? hl)
  · intro index p i l₁ hp hl₁
    by_cases hi : shard = i
    · subst hi
      rw [List.getElem?_set_self (List.getElem?_eq_some_iff.mp hl).1, Option.some.injEq] at hl₁
      subst hl₁
      exact h.served hsane htuned hasking hbooked hnode hl hdoes hlogs hp rfl
    · rw [List.getElem?_set_ne hi] at hl₁
      have hsame : answered ⟨f.controller, f.nodes.set shard node', f.notices ++ noticesOf outputs,
          f.inquiry.map fun q => q.hear shard outputs⟩ (f.heard ls told (some shard) outputs) index
            i = f.answered told index i := by
        cases hq : f.inquiry with
        | none => rw [answered_of_idle rfl, answered_of_idle hq]
        | some q =>
          rw [answered, answered, hq, Option.map_some, Option.bind_some, Option.bind_some,
            heard_other hq ls told hi,
            (hear_index q shard outputs).1, (hear_index q shard outputs).2]
      rw [hsame]
      exact h.stands index p i l₁ hp hl₁
  · intro index p node₁ hp hover hmem₁
    refine forall_mem_set (P := fun node => node.Quiet index)
      (fun node hnode => h.quiet index p node hp hover hnode) ?_ node₁ hmem₁
    exact (h.quiet index p node hp hover hmem).does (hsane.orderly node hmem) hdoes hout
  · intro index p metric hp hover
    have hsame : (ls.set shard l').map (fun l => l.recorded index) =
        ls.map fun l => l.recorded index := map_set_of_eq hl (hrecorded hp (.inr hover))
    rw [List.flatMap_def, hsame, ← List.flatMap_def]
    exact h.kept index p metric hp hover

lemma Settled.step (h : Settled shape f ls told)
    (hbooked : ∀ (shard : Nat) (node : Node) (l : Ledger), f.nodes[shard]? = some node →
      ls[shard]? = some l → node.Booked l) (hsane : f.Sane) (htuned : f.Tuned)
    (hasking : Asking shape f told) (hlength : told.length = ls.length)
    (hstep : Step f actor sent f' outputs) (hout : Harmless outputs)
    (hw : f.Writes ls f' outputs actor ls') :
    Settled shape f' ls' (f.heard ls told actor outputs) := by
  cases hw with
  | rests =>
    cases hstep with
    | directs hidle hd _ => exact h.directs htuned hidle hd _
    | @asks index reset hidle _ =>
      refine ⟨h.unstarted, h.blank, ?_, ?_, h.kept⟩
      · intro i p shard l hp hl
        have hstands := h.stands i p shard l hp hl
        rw [answered_of_idle hidle] at hstands
        have hnone : answered ⟨f.controller, tell f.nodes (everyone f.nodes.length
            (.collect index reset)), f.notices, some (.new index reset f.nodes.length)⟩
            (List.replicate ls.length none) i shard = none := by
          rw [answered, Option.bind_some, List.getElem?_replicate]
          split
          · split <;> rfl
          · rfl
        rwa [heard_of_idle hidle, hnone]
      · intro i p node' hp hover hmem
        obtain ⟨shard, hnode'⟩ := List.mem_iff_getElem?.mp hmem
        rw [tell_getElem?] at hnode'
        obtain ⟨node, hnode, rfl⟩ := Option.map_eq_some_iff.mp hnode'
        refine (h.quiet i p node hp hover (List.mem_of_getElem? hnode)).told rfl rfl fun c hc => ?_
        obtain rfl : c = .collect index reset := (mem_everyone.mp (mem_sentTo.mp hc)).2
        rfl
    | concludes hq hsum => exact h.concludes hsane htuned hasking hlength hq hsum _
    | delivers shard events =>
      have hheard : ∀ index i, f.answered (f.heard ls told none []) index i =
          f.answered told index i := by
        intro index i
        cases hq : f.inquiry with
        | none => rw [answered_of_idle hq, answered_of_idle hq]
        | some q => rw [heard_of_asking hq]
      refine ⟨h.unstarted, h.blank, ?_, ?_, h.kept⟩
      · intro index p i l hp hl
        change l.Stands index _ (f.answered _ index i)
        rw [hheard]
        exact h.stands index p i l hp hl
      · intro index p node' hp hover hmem
        obtain ⟨i, hnode'⟩ := List.mem_iff_getElem?.mp hmem
        rw [List.getElem?_modify] at hnode'
        obtain ⟨node, hnode, rfl⟩ := Option.map_eq_some_iff.mp hnode'
        have hnodeMem := List.mem_of_getElem? hnode
        have hquiet := h.quiet index p node hp hover hnodeMem
        split
        · rw [((hsane.orderly node hnodeMem).deliver events).1]
          exact ⟨hquiet.idle, hquiet.unstarted⟩
        · exact hquiet
  | @writes shard now deed node node' l l' hnode hnode' hl hdoes hlogs =>
    cases hstep with
    | @serves _ now' deed' node₀ node₁ _ hnode₀ hdoes₀ =>
      rw [hnode₀, Option.some.injEq] at hnode
      subst hnode
      rw [List.getElem?_set_self (List.getElem?_eq_some_iff.mp hnode₀).1,
        Option.some.injEq] at hnode'
      subst hnode'
      exact h.serves hsane htuned hasking (hbooked shard _ l hnode₀ hl) hnode₀ hl hdoes hout hlogs

theorem Audited.settled (h : Audited shape f ls told) (hbuilt : f.Built) :
    Settled shape f ls told := by
  induction h with
  | @new settings benchmark known c h =>
    obtain ⟨hphases, -⟩ := Controller.new_ok h
    have hstart {index : Nat} {p : PhaseRun}
        (hp : (Fleet.new c (.empty settings.shape)).controller.phases[index]? = some p) :
        p.status = .notStarted ∧ p.statistics = ∅ := by
      change c.phases[index]? = some p at hp
      rw [hphases, List.getElem?_map] at hp
      obtain ⟨phase, -, rfl⟩ := Option.map_eq_some_iff.mp hp
      exact ⟨rfl, rfl⟩
    have hover {index : Nat} {p : PhaseRun}
        (hp : (Fleet.new c (.empty settings.shape)).controller.phases[index]? = some p) :
        p.status ≠ .terminated := by
      rw [(hstart hp).1]
      exact nofun
    refine ⟨?_, fun index p hp _ => (hstart hp).2, ?_, fun index p node hp h => absurd h (hover hp),
      fun index p metric hp h => absurd h (hover hp)⟩
    · intro index p l hp _ hl
      rw [List.eq_of_mem_replicate hl]
      rfl
    · intro index p shard l hp hl
      rw [decide_eq_false (hover hp), answered_of_idle rfl,
        List.eq_of_mem_replicate (List.mem_of_getElem? hl)]
      exact .fresh (by simp [Ledger.Whole, Ledger.empty])
  | move h hm hout hw ih =>
    have hsane := h.reachable.sane
    obtain ⟨sent, hstep⟩ := hsane.step hm
    have hbefore := hstep.built_iff.mp hbuilt
    have hasking := h.asking hbefore
    exact (ih hbefore).step (fun _ _ _ hnode hl => (h.booked hbefore hnode hl).1) hsane
      (h.reachable.tuned hbefore) hasking (hasking.size.trans h.length.symm) hstep hout hw

lemma Later.over_kept (hl : f.Later f') (h : Reachable f) (hbuilt : f.Built)
    (hp : f.controller.phases[index]? = some p) (hover : p.status = .terminated) :
    ∃ p', f'.controller.phases[index]? = some p' ∧ p'.status = .terminated ∧
      p'.statistics = p.statistics := by
  induction hl with
  | refl => exact ⟨p, hp, hover, rfl⟩
  | move hl hm hout ih =>
    obtain ⟨p₁, hp₁, hover₁, hkept₁⟩ := ih
    have hreachable := h.later hl
    obtain ⟨sent, hstep⟩ := hreachable.sane.step hm
    obtain ⟨p₂, hp₂, hdirected | ⟨-, q, sum, hq, rfl, hreset, -, -⟩⟩ := hstep.phase hp₁
    · have hstatus := (hdirected.kept (by rw [hover₁]; rfl)).1
      exact ⟨p₂, hp₂, hstatus.trans hover₁, hdirected.statistics.trans hkept₁⟩
    · obtain ⟨hready, -⟩ :=
        (hreachable.tuned (hl.built h hbuilt)).asked_status hq hreset hp₁
      rw [hover₁] at hready
      rcases hready with hready | hready <;> cases hready

lemma Settled.recalled (h : Settled shape f ls told) (hasking : Asking shape f told)
    (hlength : told.length = ls.length) (hq : f.inquiry = some q)
    {r : Except ContractViolation PhaseSnapshot} (hr : q.sum? = some r)
    (hp : f.controller.phases[q.index]? = some p) (hover : p.status = .terminated) :
    p.pull r = .ok p.statistics := by
  obtain ⟨books, htold, hcases⟩ := hasking.sum_shows hq hr
  have hstands := h.answering htold hlength hq hp
  rw [decide_eq_true hover] at hstands
  have hcleared : (books.flatMap fun l => since (l.recorded q.index)) = [] := by
    exact List.flatMap_eq_nil_iff.mpr ((List.forall₂_and_left _ _).mp
      (hstands.imp fun _ _ hl => ⟨hl.cleared.1, hl⟩)).1
  have hagrees := Ledger.about_of_agrees (hstands.imp fun _ _ hl => hl.cleared.2)
  have hkept : p.statistics.Shows shape (ls.flatMap fun l => l.recorded q.index)
      (ls.flatMap fun l => l.recorded q.index) :=
    ⟨fun _ => id, fun metric => h.kept q.index p metric hp hover⟩
  rw [hcleared] at hcases
  rcases hcases with ⟨sum, rfl, hshows⟩ | ⟨_, _, metric, x, hx, -⟩
  · change p.statistics.merge sum.statistics = .ok p.statistics
    rcases hkept.merge hshows with ⟨u, hu, hsum⟩ | ⟨_, _, metric, x, hx, -⟩
    · rw [hu]
      refine congrArg Except.ok (StatisticsSet.ext_get? fun metric => ?_)
      rw [hsum.2, hkept.2, shown, shown, List.append_nil, about_append, hagrees metric]
      simp only [List.append_eq_nil_iff, and_self]
    · cases hx
  · cases hx

lemma Settled.pulled (h : Settled shape f ls told) (hasking : Asking shape f told)
    (hlength : told.length = ls.length) (hrun : ∀ l, some l ∈ told → ∃ s : Shard, s.Run l)
    (hq : f.inquiry = some q) {r : Except ContractViolation PhaseSnapshot} (hr : q.sum? = some r)
    (hp : f.controller.phases[q.index]? = some p) (hopen : p.status ≠ .terminated) :
    ∃ books : List Ledger, told = books.map some ∧
      ((∃ set, p.pull r = .ok set ∧ ∀ metric, set.get? metric = tally shape books q.index metric) ∨
      (∃ e, p.pull r = .error e ∧ ∃ l ∈ books, ∃ flight ∈ l.ofPhase q.index, ∃ x,
        flight.sample? = some x ∧ Nanos.maxCount ≤ x.2.latency)) := by
  obtain ⟨books, htold, hcases⟩ := hasking.sum_shows hq hr
  refine ⟨books, htold, ?_⟩
  have hbooks : ∀ l ∈ books, ∃ s : Shard, s.Run l := by
    intro l hl
    refine hrun l ?_
    rw [htold]
    exact List.mem_map_of_mem hl
  have hstands := h.answering htold hlength hq hp
  rw [decide_eq_false hopen] at hstands
  have hwhole : ∀ l ∈ books, since (l.recorded q.index) = l.recorded q.index :=
    fun l hl => since_of_notMem (((List.forall₂_and_left _ _).mp
      (hstands.imp fun _ _ hl => ⟨hl.whole, hl⟩)).1 l hl)
  have hlate : ∀ (metric : String) (x : Sample),
      .sample metric x ∈ (books.flatMap fun l => since (l.recorded q.index)) →
      Nanos.maxCount ≤ x.latency → ∃ l ∈ books, ∃ flight ∈ l.ofPhase q.index, ∃ x,
        flight.sample? = some x ∧ Nanos.maxCount ≤ x.2.latency := by
    intro metric x hx hlatency
    obtain ⟨l, hl, hx⟩ := List.mem_flatMap.mp hx
    rw [hwhole l hl] at hx
    obtain ⟨s, hs⟩ := hbooks l hl
    have hsample : (metric, x) ∈ (l.recorded q.index).filterMap Recording.sample? :=
      List.mem_filterMap.mpr ⟨_, hx, rfl⟩
    obtain ⟨flight, hflight, hsome⟩ := List.mem_filterMap.mp ((hs.samples q.index).subset hsample)
    exact ⟨l, hl, flight, hflight, _, hsome, hlatency⟩
  have hblank : p.statistics.Shows shape [] [] := by
    rw [h.blank q.index p hp hopen]
    exact StatisticsSet.shows_empty shape
  rcases hcases with ⟨sum, rfl, hshows⟩ | ⟨e, rfl, metric, x, hx, hlatency⟩
  · rcases hblank.merge hshows with ⟨u, hu, hsum⟩ | ⟨e, he, metric, x, hx, hlatency⟩
    · refine .inl ⟨u, hu, fun metric => ?_⟩
      rw [hsum.2, List.nil_append, List.nil_append, List.flatMap_congr hwhole]
      exact tallied_eq_tally shape hbooks q.index metric
    · exact .inr ⟨e, he, hlate metric x hx hlatency⟩
  · exact .inr ⟨e, rfl, hlate metric x hx hlatency⟩

/-- The statistics of every phase are complete and final. -/
structure TellsAll (shape : Histogram.Shape) (f : Fleet) (ls : List Ledger)
    (told : List (Option Ledger)) : Prop where
  /-- No operation stands in the books twice. -/
  once : ∀ l ∈ ls, (l.flights.map Flight.tag).Nodup
  /-- What is kept of a phase that is over is what all operations come to that were ever issued in
  it, on all shards. -/
  complete : ∀ (index : Nat) (p : PhaseRun) (metric : String),
    f.controller.phases[index]? = some p → p.status = .terminated →
    p.statistics.get? metric = tally shape ls index metric
  /-- Nothing that happens later changes what is kept of it or what is told of it. -/
  final : ∀ (index : Nat) (p : PhaseRun), f.controller.phases[index]? = some p →
    p.status = .terminated → ∀ f' : Fleet, f.Later f' →
    ∃ p', f'.controller.phases[index]? = some p' ∧ p'.status = .terminated ∧
      p'.statistics = p.statistics ∧
      ∀ (q : Inquiry) (r : Except ContractViolation PhaseSnapshot), f'.inquiry = some q →
        q.index = index → q.sum? = some r → p'.pull r = .ok p.statistics
  /-- What is told of a phase before is what all operations come to that stood in the books of each
  shard when it answered, unless an answer took longer than can be counted. -/
  live : ∀ (q : Inquiry) (p : PhaseRun) (r : Except ContractViolation PhaseSnapshot),
    f.inquiry = some q → f.controller.phases[q.index]? = some p → p.status ≠ .terminated →
    q.sum? = some r → told.length = f.nodes.length ∧ ∃ books : List Ledger, told = books.map some ∧
      ((∃ set, p.pull r = .ok set ∧
        ∀ metric, set.get? metric = tally shape books q.index metric) ∨
      (∃ e, p.pull r = .error e ∧ ∃ l ∈ books, ∃ flight ∈ l.ofPhase q.index, ∃ x,
        flight.sample? = some x ∧ Nanos.maxCount ≤ x.2.latency))

/-- Wherever a fleet comes to, books can have been kept of its shards; and whatever books were kept,
they bear the statistics out. -/
theorem Later.tellsAll {settings : Settings} {benchmark : Benchmark} {known : String → Bool}
    {c : Controller} (h : Controller.new settings benchmark known = .ok c)
    (hl : (Fleet.new c (.empty settings.shape)).Later f) (hbuilt : f.Built) :
    (∃ ls told, Audited settings.shape f ls told) ∧
      ∀ ls told, Audited settings.shape f ls told → f.TellsAll settings.shape ls told := by
  refine ⟨(Audited.new h).later hl, fun ls told haudited => ?_⟩
  have hsettled := haudited.settled hbuilt
  have hasking := haudited.asking hbuilt
  have hlength := hasking.size.trans haudited.length.symm
  refine ⟨?_, ?_, ?_, ?_⟩
  · intro l hmem
    obtain ⟨s, hrun⟩ := haudited.run hbuilt hmem
    exact hrun.books.tags_nodup
  · intro index p metric hp hover
    rw [hsettled.kept index p metric hp hover]
    exact tallied_eq_tally settings.shape (fun l hmem => haudited.run hbuilt hmem) index metric
  · intro index p hp hover f' hl'
    obtain ⟨p', hp', hover', hkept⟩ := hl'.over_kept haudited.reachable hbuilt hp hover
    refine ⟨p', hp', hover', hkept, ?_⟩
    rintro q r hq rfl hr
    obtain ⟨ls', told', haudited'⟩ := haudited.later hl'
    have hbuilt' := hl'.built haudited.reachable hbuilt
    have hasking' := haudited'.asking hbuilt'
    rw [← hkept]
    exact (haudited'.settled hbuilt').recalled hasking'
      (hasking'.size.trans haudited'.length.symm) hq hr hp' hover'
  · intro q p r hq hp hopen hr
    exact ⟨hasking.size, hsettled.pulled hasking hlength
      (fun l hmem => haudited.run_told hbuilt hmem) hq hr hp hopen⟩

def errandsAskedMoves : List Move :=
  [.command 0 0, .start 0 0, .command 0 0,
    .deliver 0 [.data ⟨0, 0, 0, 0, 0⟩ [98], .complete ⟨0, 0, 0, 0, 0⟩ .success],
    .event 0 3, .event 0 4, .ask 0 false, .command 0 5]

def errandsAsked : Fleet := (new errandsStart (.empty .default)).go errandsAskedMoves

def errandsToldMoves : List Move :=
  [.conclude, .terminate 0 6, .command 0 7, .notice 8, .notice 8, .notice 8, .ask 0 true,
    .command 0 9, .conclude, .ask 0 false, .command 0 10]

def errandsTold : Fleet := errandsAsked.go errandsToldMoves

theorem errands_tellsAll :
    (∃ ls told, Audited .default errandsAsked ls told ∧ errandsAsked.TellsAll .default ls told ∧
      ∃ books : List Ledger, told = books.map some ∧
        (tally .default books 0 "get").map (fun s => (s.requests, s.successes)) = some (2, 1)) ∧
    ∃ ls told, Audited .default errandsTold ls told ∧ errandsTold.TellsAll .default ls told ∧
      errandsTold.controller.phases.map PhaseRun.status = [.terminated] ∧
      (tally .default ls 0 "get").map (fun s => (s.requests, s.successes)) = some (2, 1) := by
  have hnew : Controller.new (.default 1) ⟨"errands", [errandsPhase]⟩ (fun _ => true) =
      .ok errandsStart := rfl
  have hasked : (new errandsStart (.empty .default)).Later errandsAsked := .go _ errandsAskedMoves
  have htold : errandsAsked.Later errandsTold := .go _ errandsToldMoves
  have hreachable := Reachable.new hnew (.empty .default)
  have hbuilt := hasked.built hreachable errandsStart_built
  constructor
  · obtain ⟨⟨ls, told, haudited⟩, htells⟩ := Later.tellsAll hnew hasked hbuilt
    refine ⟨ls, told, haudited, htells ls told haudited, ?_⟩
    have hpulled : (do
        let q ← errandsAsked.inquiry
        let r ← q.sum?
        let p ← errandsAsked.controller.phases[q.index]?
        let set ← (p.pull r).toOption
        let s ← set.get? "get"
        some (q.index, p.status, s.requests, s.successes)) = some (0, .finished, 2, 1) := by
      decide +kernel
    simp only [Option.bind_eq_bind, Option.bind_eq_some_iff, Option.some.injEq,
      Prod.mk.injEq] at hpulled
    obtain ⟨q, hq, r, hr, p, hp, set, hset, s, hs, hindex, hstatus, hrequests, hsuccesses⟩ :=
      hpulled
    have hopen : p.status ≠ .terminated := by
      rw [hstatus]
      exact nofun
    obtain ⟨-, books, rfl, ⟨set', hset', htally⟩ | ⟨e, herror, -⟩⟩ :=
      (htells ls told haudited).live q p r hq hp hopen hr
    · rw [hset'] at hset
      cases hset
      have hget : tally .default books q.index "get" = some s := (htally "get").symm.trans hs
      rw [hindex] at hget
      exact ⟨books, rfl, by rw [hget, Option.map_some, hrequests, hsuccesses]⟩
    · rw [herror] at hset
      cases hset
  · obtain ⟨⟨ls, told, haudited⟩, htells⟩ := Later.tellsAll hnew (hasked.trans htold)
      (htold.built (hreachable.later hasked) hbuilt)
    have hkept : (do
        let p ← errandsTold.controller.phases[0]?
        let s ← p.statistics.get? "get"
        some (p.status, s.requests, s.successes)) = some (.terminated, 2, 1) := by decide +kernel
    simp only [Option.bind_eq_bind, Option.bind_eq_some_iff, Option.some.injEq,
      Prod.mk.injEq] at hkept
    obtain ⟨p, hp, s, hs, hover, hrequests, hsuccesses⟩ := hkept
    refine ⟨ls, told, haudited, htells ls told haudited, by decide +kernel, ?_⟩
    have hget : tally .default ls 0 "get" = some s :=
      ((htells ls told haudited).complete 0 p "get" hp hover).symm.trans hs
    rw [hget, Option.map_some, hrequests, hsuccesses]

end Fleet

end LoadEngine
