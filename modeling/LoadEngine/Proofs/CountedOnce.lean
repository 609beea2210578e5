import LoadEngine.Proofs.Recordings
import LoadEngine.Proofs.ShardDeeds

/-! Every operation is counted once. The recorder of a phase hears of each when it is issued, and
once more if it comes to an end before its session does; and those it has not heard the end of are
those that live sessions wait for and those that were given up with their sessions. -/

namespace LoadEngine

namespace Flight

/-- What a recorder was told of the end of the operation. -/
def sample? (f : Flight) : Option (String × Sample) :=
  match f.fate with
  | .settled sample => some (f.operation.metric, sample)
  | _ => none

def isAbandoned (f : Flight) : Bool :=
  match f.fate with
  | .abandoned _ => true
  | _ => false

end Flight

namespace Ledger

def ofPhase (l : Ledger) (phase : Nat) : List Flight :=
  l.flights.filter fun f => f.tag.phase == phase

/-- The operations of a metric that were given up with their sessions. -/
def abandoned (l : Ledger) (phase : Nat) (metric : String) : Nat :=
  (l.ofPhase phase).countP fun f => f.isAbandoned && f.operation.metric == metric

end Ledger

def Branch.asksFor (sc : Scenario) (metric : String) (b : Branch) : Bool :=
  match b.wait with
  | .operation _ _ =>
    (sc.step? b.sequence b.step >>= Step.operation?).any fun operation => operation.metric == metric
  | _ => false

namespace Lane

/-- The branches of live sessions that wait for an operation of the metric. -/
def waiting (lane : Lane) (metric : String) : Nat :=
  (lane.sessions.acquired.map fun x =>
    x.2.branches.countP (Branch.asksFor lane.scenario metric)).sum

def held (lane : Lane) (metric : String) : Snapshot :=
  (lane.recorder.current.get? metric).getD (.empty lane.recorder.shape)

end Lane

/-- The operations of a phase are counted once each, and those of its live sessions are waited for.
What a session leaves open at its end stays open, and one that completes leaves nothing open. -/
structure Shard.CountsOnce (s : Shard) (l : Ledger) (phase : Nat) (lane : Lane) : Prop where
  told : lane.recorder = (l.recorded phase).foldl Recorder.enter s.template
  requests : (l.recorded phase).filterMap Recording.request? =
    (l.ofPhase phase).map fun f => f.operation.metric
  samples : ((l.recorded phase).filterMap Recording.sample?).Perm
    ((l.ofPhase phase).filterMap Flight.sample?)
  tags : (l.flights.map Flight.tag).Nodup
  balance : .reset ∉ l.recorded phase → ∀ metric, (lane.held metric).requests =
    (lane.held metric).completed + lane.waiting metric + l.abandoned phase metric
  whole : ∀ f ∈ l.flights, f.fate ≠ .abandoned .completed
  final : ∀ now cause slot s₁, s.Arises now cause phase slot s₁ →
    ∀ (k : Nat) (f : Flight), l.flights[k]? = some f → f.isPending = false →
      (l.after (s₁.turn now phase slot cause).2).flights[k]? = some f

namespace Flight

variable {now : Nanos} {cause : Cause} {f : Flight}

@[simp] lemma hear_operation (now : Nanos) (cause : Cause) (f : Flight) :
    (f.hear now cause).operation = f.operation := by
  unfold hear
  split
  · split <;> rfl
  · rfl

@[simp] lemma closes_operation (verdict : Verdict) (f : Flight) :
    (verdict.closes f).operation = f.operation := by
  cases verdict with
  | ended how =>
    simp only [Verdict.closes, forsake]
    split <;> rfl
  | _ => rfl

lemma closes_sample? (verdict : Verdict) (f : Flight) : (verdict.closes f).sample? = f.sample? := by
  cases verdict with
  | ended how =>
    simp only [Verdict.closes, forsake]
    split
    · rename_i hpending
      obtain ⟨body, hbody⟩ := isPending_iff.mp hpending
      simp only [sample?, hbody]
    · rfl
  | _ => rfl

lemma sample?_of_isPending (h : f.isPending = true) : f.sample? = none := by
  obtain ⟨body, hbody⟩ := isPending_iff.mp h
  simp only [sample?, hbody]

lemma hear_sample? (now : Nanos) (cause : Cause) (f : Flight) : (f.hear now cause).sample? =
    (f.sample? <|> (f.settles? now cause).map fun x => (f.operation.metric, x)) := by
  by_cases hpending : f.isPending = true
  · rw [sample?_of_isPending hpending]
    obtain ⟨body, hbody⟩ := isPending_iff.mp hpending
    simp only [hear, hbody]
    cases f.settles? now cause <;> rfl
  · rw [Bool.not_eq_true] at hpending
    rw [hear_of_not_pending hpending, settles?_of_not_pending hpending]
    cases f.sample? <;> rfl

lemma countP_split (l : List Flight) (P : Flight → Bool) : l.countP P =
    (l.countP fun f => f.sample?.isSome && P f) + (l.countP fun f => f.isPending && P f) +
      l.countP fun f => f.isAbandoned && P f := by
  induction l with
  | nil => rfl
  | cons f rest ih =>
    simp only [List.countP_cons, ih]
    cases hf : f.fate <;> simp [sample?, isPending, body?, isAbandoned, hf] <;> omega

end Flight

namespace Ledger

variable {l : Ledger} {v : Visit} {phase : Nat}

lemma after_ofPhase (l : Ledger) (v : Visit) (phase : Nat) : (l.after v).ofPhase phase =
    ((l.ofPhase phase).map (Flight.hear v.now v.cause) ++
      ((callsOf v.outputs).filter fun x => x.2.phase == phase).map
        fun x => Flight.new v.now x.1 x.2).map
      fun f => if f.isOf v.phase v.slot then v.verdict.closes f else f := by
  have htag : ∀ f : Flight,
      (if f.isOf v.phase v.slot then v.verdict.closes f else f).tag = f.tag := by
    intro f
    split
    · exact closes_tag v.verdict f
    · rfl
  rw [ofPhase, after_flights, List.filter_map, List.filter_append, List.filter_map, List.filter_map,
    ofPhase]
  simp only [Function.comp_def, htag, Flight.hear_tag]
  rfl

lemma after_recorded_ofPhase (l : Ledger) (v : Visit) (phase : Nat) :
    (l.after v).recorded phase = l.recorded phase ++
      (l.ofPhase phase).filterMap (Flight.recording? v.now v.cause) ++
      ((callsOf v.outputs).filter fun x => x.2.phase == phase).map
        fun x => .request x.1.metric := by
  rw [after_recorded_eq, ofPhase, List.filterMap_filter, ← List.filterMap_eq_map,
    List.filterMap_filter]
  simp only [beq_iff_eq, Function.comp_def]

lemma requests_after (h : (l.recorded phase).filterMap Recording.request? =
      (l.ofPhase phase).map fun f => f.operation.metric) (v : Visit) :
    ((l.after v).recorded phase).filterMap Recording.request? =
      ((l.after v).ofPhase phase).map fun f => f.operation.metric := by
  have hnone : ((l.ofPhase phase).filterMap (Flight.recording? v.now v.cause)).filterMap
      Recording.request? = [] := by
    rw [List.filterMap_filterMap, List.filterMap_eq_nil_iff]
    intro f _
    unfold Flight.recording?
    cases f.settles? v.now v.cause <;> rfl
  have hoperation : ∀ f : Flight,
      (if f.isOf v.phase v.slot then v.verdict.closes f else f).operation = f.operation := by
    intro f
    split
    · exact Flight.closes_operation v.verdict f
    · rfl
  rw [after_recorded_ofPhase, after_ofPhase, List.filterMap_append, List.filterMap_append, h, hnone,
    List.append_nil, List.filterMap_map, List.map_map, List.map_append, List.map_map, List.map_map]
  congr 1
  · refine List.map_congr_left fun f _ => ?_
    simp only [Function.comp_apply, hoperation, Flight.hear_operation]
  · rw [← List.filterMap_eq_map]
    refine List.filterMap_congr fun x _ => ?_
    simp only [Function.comp_apply, hoperation]
    rfl

lemma samples_after (h : ((l.recorded phase).filterMap Recording.sample?).Perm
      ((l.ofPhase phase).filterMap Flight.sample?)) (v : Visit) :
    (((l.after v).recorded phase).filterMap Recording.sample?).Perm
      (((l.after v).ofPhase phase).filterMap Flight.sample?) := by
  have hissued : (((callsOf v.outputs).filter fun x => x.2.phase == phase).map
      fun x => Recording.request x.1.metric).filterMap Recording.sample? = [] := by
    rw [List.filterMap_map, List.filterMap_eq_nil_iff]
    intro x _
    rfl
  have hclosed : ∀ f : Flight,
      (if f.isOf v.phase v.slot then v.verdict.closes f else f).sample? = f.sample? := by
    intro f
    split
    · exact Flight.closes_sample? v.verdict f
    · rfl
  have hflights : ((l.after v).ofPhase phase).filterMap Flight.sample? =
      (l.ofPhase phase).filterMap fun f => f.sample? <|>
        (f.settles? v.now v.cause).map fun x => (f.operation.metric, x) := by
    rw [after_ofPhase, List.filterMap_map, List.filterMap_append, List.filterMap_map,
      List.filterMap_map]
    simp only [Function.comp_def, hclosed, Flight.hear_sample?]
    rw [List.append_right_eq_self]
    exact List.filterMap_eq_nil_iff.mpr fun x _ => rfl
  have hheard : ((l.ofPhase phase).filterMap (Flight.recording? v.now v.cause)).filterMap
      Recording.sample? = (l.ofPhase phase).filterMap fun f =>
        (f.settles? v.now v.cause).map fun x => (f.operation.metric, x) := by
    rw [List.filterMap_filterMap]
    refine List.filterMap_congr fun f _ => ?_
    unfold Flight.recording?
    cases f.settles? v.now v.cause <;> rfl
  rw [after_recorded_ofPhase, List.filterMap_append, List.filterMap_append, hissued,
    List.append_nil,
    hheard, hflights]
  refine (h.append_right _).trans (filterMap_orElse_perm fun f _ => ?_).symm
  by_cases hpending : f.isPending = true
  · exact .inl (Flight.sample?_of_isPending hpending)
  · rw [Bool.not_eq_true] at hpending
    rw [Flight.settles?_of_not_pending hpending]
    exact .inr rfl

lemma after_final {k : Nat} {f : Flight} (hf : l.flights[k]? = some f) (hnot : f.isPending = false)
    (v : Visit) : (l.after v).flights[k]? = some f := by
  have hlt := (List.getElem?_eq_some_iff.mp hf).1
  have hclosed : (if f.isOf v.phase v.slot then v.verdict.closes f else f) = f := by
    split
    · cases v.verdict with
      | ended how =>
        simp only [Verdict.closes, Flight.forsake, hnot]
        rfl
      | _ => rfl
    · rfl
  rw [after_flights, List.getElem?_map, List.getElem?_append_left (by rwa [List.length_map]),
    List.getElem?_map, hf, Option.map_some, Option.map_some, Flight.hear_of_not_pending hnot,
    hclosed]

end Ledger

namespace Session

variable {sc : Scenario} {phase : Nat} {s : Session} {requests : Pool Request}
  {flights : List Flight} {timers : List Timer} {since : Nat → Nanos}

lemma asksFor_of_awaits (metric : String) {k id step op r : Nat}
    {operation : Operation BoundValidator}
    (ha : awaits s.branches k = some ⟨id, step, .operation op r⟩)
    (hs : sc.step? id step = some (.operation operation)) :
    ∃ b, s.branches[k]? = some b ∧ b.asksFor sc metric = (operation.metric == metric) := by
  obtain ⟨b, hb, hid, hstep, hw⟩ := Turn.exists_of_awaits ha
  refine ⟨b, hb, ?_⟩
  simp only at hid hstep hw
  unfold Branch.asksFor
  simp only [hw, hid, hstep, hs]
  rfl

lemma Booked.count_pending (h : s.Booked sc phase requests flights timers since) (metric : String) :
    (flights.countP fun f => f.isPending && f.operation.metric == metric) =
      s.branches.countP (Branch.asksFor sc metric) := by
  -- Both lists are counted through the branches that they name, which are the same ones.
  set pending := flights.filter fun f => f.isPending && f.operation.metric == metric with hpending
  set asking := s.branches.zipIdx.filter fun x => x.1.asksFor sc metric with hasking
  have hflies : ∀ f ∈ pending, ∃ body, f.fate = .pending body ∧ f ∈ flights ∧
      f.operation.metric = metric := by
    intro f hf
    obtain ⟨hf, hmetric⟩ := List.mem_filter.mp hf
    rw [Bool.and_eq_true, beq_iff_eq] at hmetric
    obtain ⟨body, hbody⟩ := Flight.isPending_iff.mp hmetric.1
    exact ⟨body, hbody, hf, hmetric.2⟩
  have hdistinct : (pending.map fun f => f.tag.branch).Nodup := by
    refine List.Nodup.map_on ?_ ((List.Nodup.of_map _ h.flightOps).filter _)
    intro f hf g hg hbranch
    obtain ⟨body, hbody, hf, -⟩ := hflies f hf
    obtain ⟨body', hbody', hg, -⟩ := hflies g hg
    obtain ⟨id, step, r, hwait, -⟩ := (h.flies f hf body hbody).1.wait
    obtain ⟨id', step', r', hwait', -⟩ := (h.flies g hg body' hbody').1.wait
    rw [hbranch, hwait', Option.some.injEq, Await.mk.injEq, Wait.operation.injEq] at hwait
    exact List.inj_on_of_nodup_map h.flightOps hf hg hwait.2.2.1.symm
  have hplaces : (asking.map Prod.snd).Nodup := by
    refine (List.filter_sublist.map Prod.snd).nodup ?_
    rw [List.zipIdx_map_snd]
    exact List.nodup_range'
  have hsame : (pending.map fun f => f.tag.branch).Perm (asking.map Prod.snd) := by
    rw [List.perm_ext_iff_of_nodup hdistinct hplaces]
    intro k
    constructor
    · intro hk
      obtain ⟨f, hf, rfl⟩ := List.mem_map.mp hk
      obtain ⟨body, hbody, hf, hmetric⟩ := hflies f hf
      obtain ⟨id, step, r, hwait, hstep, -⟩ := (h.flies f hf body hbody).1.wait
      obtain ⟨b, hb, hasks⟩ := asksFor_of_awaits metric hwait hstep
      refine List.mem_map.mpr ⟨(b, f.tag.branch), List.mem_filter.mpr ⟨?_, ?_⟩, rfl⟩
      · exact List.mem_zipIdx_iff_getElem?.mpr hb
      · rw [hasks, hmetric, beq_self_eq_true]
    · intro hk
      obtain ⟨⟨b, k⟩, hmem, rfl⟩ := List.mem_map.mp hk
      obtain ⟨hb, hasks⟩ := List.mem_filter.mp hmem
      have hb := List.mem_zipIdx_iff_getElem?.mp hb
      cases hw : b.wait with
      | operation op r =>
        have hwait := Turn.awaits_of_request hb hw
        obtain ⟨f, hf, htag, hopen⟩ := h.flown k _ _ op r hwait
        obtain ⟨body, hbody⟩ := Flight.isPending_iff.mp hopen
        obtain ⟨id, step, r', hwait', hstep, -⟩ := (h.flies f hf body hbody).1.wait
        have hbranch : f.tag.branch = k := by rw [htag]; rfl
        obtain ⟨b', hb', hmetric⟩ := asksFor_of_awaits metric hwait' hstep
        rw [hbranch, hb, Option.some.injEq] at hb'
        subst hb'
        refine List.mem_map.mpr ⟨f, List.mem_filter.mpr ⟨hf, ?_⟩, hbranch⟩
        rw [hopen, ← hmetric, Bool.true_and]
        exact hasks
      | _ => simp [Branch.asksFor, hw] at hasks
  have hlength := hsame.length_eq
  rw [List.length_map, List.length_map, hpending, hasking, ← List.countP_eq_length_filter,
    ← List.countP_eq_length_filter] at hlength
  rw [hlength]
  have hzip := congrArg (List.countP (Branch.asksFor sc metric)) (List.zipIdx_map_fst 0 s.branches)
  rwa [List.countP_map] at hzip

end Session

namespace Shard

variable {s : Shard} {l : Ledger} {phase : Nat} {lane : Lane}

lemma Books.count_pending (h : Books s l) (hlane : s.lanes.get? phase = some lane)
    (metric : String) :
    ((l.ofPhase phase).countP fun f => f.isPending && f.operation.metric == metric) =
      lane.waiting metric := by
  obtain ⟨_, _, hbooks⟩ := h.lanes phase lane hlane
  have hpage : ∀ slot, ((l.ofPhase phase).filter fun f => f.tag.slot == slot) =
      (s.page l phase slot).flights := by
    intro slot
    rw [Ledger.ofPhase, List.filter_filter]
    exact List.filter_congr fun f _ => Bool.and_comm _ _
  have hlive : ∀ f ∈ l.ofPhase phase, (f.isPending && f.operation.metric == metric) = true →
      f.tag.slot ∈ lane.sessions.acquired.map Prod.fst := by
    intro f hf hmetric
    rw [Bool.and_eq_true] at hmetric
    have hown : f ∈ (s.page l phase f.tag.slot).flights := by
      rw [← hpage]
      exact List.mem_filter.mpr ⟨hf, beq_self_eq_true _⟩
    cases hitem : lane.sessions.item? f.tag.slot with
    | none =>
      rw [hbooks.blank _ hitem] at hown
      cases hown
    | some session =>
      cases hstate : session.state.isLive with
      | true =>
        have hheld := ((hbooks.live _ session hitem).mp hstate).1
        exact List.mem_map.mpr ⟨(f.tag.slot, session),
          Pool.mem_acquired.mpr (Pool.get?_eq_some.mpr ⟨hheld, hitem⟩), rfl⟩
      | false =>
        have hvacant := hbooks.vacant _ session hitem hstate
        have hnot := (hbooks.placed _ session hitem).booked.not_pending
          (fun k => by rw [hvacant]; rfl) f hown
        rw [hmetric.1] at hnot
        cases hnot
  rw [countP_eq_sum_of_key lane.sessions.acquired_slots_nodup hlive, Lane.waiting, List.map_map]
  congr 1
  refine List.map_congr_left fun x hx => ?_
  obtain ⟨-, hitem⟩ := Pool.get?_eq_some.mp (Pool.mem_acquired.mp hx)
  rw [Function.comp_apply, hpage]
  exact (hbooks.placed x.1 x.2 hitem).booked.count_pending metric

lemma Books.tags_nodup (h : Books s l) : (l.flights.map Flight.tag).Nodup := by
  rw [List.Nodup, List.pairwise_map, List.pairwise_iff_getElem]
  intro i j hi hj hij heq
  set f := l.flights[i] with hf
  have hown : (l.of f.tag.phase f.tag.slot).Pairwise fun f g => f.tag.op ≠ g.tag.op := by
    obtain ⟨lane, hlane⟩ := h.flights f (List.getElem_mem hi)
    obtain ⟨_, _, hbooks⟩ := h.lanes _ lane hlane
    cases hitem : lane.sessions.item? f.tag.slot with
    | none =>
      have hblank : l.of f.tag.phase f.tag.slot = [] := hbooks.blank _ hitem
      rw [hblank]
      exact .nil
    | some session =>
      exact List.pairwise_map.mp (hbooks.placed _ session hitem).booked.flightOps
  rw [Ledger.of, List.pairwise_filter] at hown
  refine List.pairwise_iff_getElem.mp hown i j hi hj hij ?_ ?_ (by rw [← hf, heq])
  · simp [Flight.isOf, hf]
  · simp [Flight.isOf, heq]

lemma Books.turn_whole {s₁ : Shard} {now : Nanos} {cause : Cause} {slot : Nat} (h : Books s l)
    (ha : Arises s now cause phase slot s₁)
    (hended : (s₁.turn now phase slot cause).2.verdict = .ended .completed) {f : Flight}
    (hf : f ∈ l.flights.map (Flight.hear now cause) ++
      (callsOf (s₁.turn now phase slot cause).2.outputs).map fun x => Flight.new now x.1 x.2)
    (hown : f.isOf phase slot = true) : f.isPending = false := by
  cases hlane : s₁.lanes.get? phase with
  | none =>
    rw [Shard.turn_of_none hlane] at hended
    cases hended
  | some lane =>
    obtain ⟨_, _, lane', effects, outputs, verdict, s', hdriven, hturned, hturn⟩ :=
      h.driven ha hlane
    rw [hturn] at hended hf
    refine hdriven.whole hended f ?_
    rcases List.mem_append.mp hf with hf | hf
    · obtain ⟨g, hg, rfl⟩ := List.mem_map.mp hf
      refine List.mem_append_left _ (List.mem_map_of_mem (List.mem_filter.mpr ⟨hg, ?_⟩))
      rwa [Ledger.isOf_heard] at hown
    · rw [hturned.calls] at hf
      exact List.mem_append_right _ hf

lemma Run.whole (h : Run s l) : ∀ f ∈ l.flights, f.fate ≠ .abandoned .completed := by
  induction h with
  | new id template =>
    intro f hf
    cases hf
  | prepare h _ _ _ _ ih => exact ih
  | reset h _ ih => exact ih
  | @turn s s₁ l now cause phase slot h ha ih =>
    intro f hf hfate
    have hwhole := fun hended g hg => h.books.turn_whole ha hended (f := g) hg
    rw [Ledger.after_flights] at hf
    obtain ⟨g, hg, rfl⟩ := List.mem_map.mp hf
    have hopen : g.fate ≠ .abandoned .completed := by
      rcases List.mem_append.mp hg with hg | hg
      · obtain ⟨g', hg', rfl⟩ := List.mem_map.mp hg
        unfold Flight.hear
        split
        · split <;> simp
        · exact ih g' hg'
      · obtain ⟨x, -, rfl⟩ := List.mem_map.mp hg
        simp [Flight.new]
    split at hfate
    · rename_i hown
      cases hverdict : (s₁.turn now phase slot cause).2.verdict with
      | ended how =>
        rw [hverdict] at hfate
        simp only [Verdict.closes, Flight.forsake] at hfate
        split at hfate
        · rename_i hpending
          cases hfate
          rw [hwhole hverdict g hg hown] at hpending
          cases hpending
        · exact hopen hfate
      | _ =>
        rw [hverdict] at hfate
        exact hopen hfate
    · exact hopen hfate

lemma Run.requests (h : Run s l) (phase : Nat) :
    (l.recorded phase).filterMap Recording.request? =
      (l.ofPhase phase).map fun f => f.operation.metric := by
  induction h with
  | new id template => rfl
  | prepare _ _ _ _ _ ih => exact ih
  | @reset s l p lane _ _ ih =>
    simp only [Ledger.reset]
    split
    · rw [List.filterMap_append, ih]
      exact List.append_nil _
    · exact ih
  | turn _ _ ih => exact Ledger.requests_after ih _

lemma Run.samples (h : Run s l) (phase : Nat) :
    ((l.recorded phase).filterMap Recording.sample?).Perm
      ((l.ofPhase phase).filterMap Flight.sample?) := by
  induction h with
  | new id template => exact .refl _
  | prepare _ _ _ _ _ ih => exact ih
  | @reset s l p lane _ _ ih =>
    simp only [Ledger.reset]
    split
    · rw [List.filterMap_append]
      exact (List.append_nil _).symm ▸ ih
    · exact ih
  | turn _ _ ih => exact Ledger.samples_after ih _

/-- However the answers, the deadlines and the ends of sessions race, every operation is counted
once. -/
theorem Run.counts_once (h : Run s l) {shape : Histogram.Shape} (hempty : s.template = .empty shape)
    (hlane : s.lanes.get? phase = some lane) : s.CountsOnce l phase lane where
  told := h.books.recorder phase lane hlane
  requests := h.requests phase
  samples := h.samples phase
  tags := h.books.tags_nodup
  balance hreset metric := by
    have htold := h.books.recorder phase lane hlane
    rw [hempty] at htold
    have hheld :
        lane.held metric = (tallied shape (l.recorded phase) metric).getD (.empty shape) := by
      rw [Lane.held, htold, Recorder.get?_foldl_enter shape hreset, Recorder.foldl_enter_shape]
      rfl
    obtain ⟨hrequests, hcompleted⟩ := tallied_counts shape hreset metric
    -- Each flight was counted once when it was issued; it has a sample, is pending, or was given
    -- up.
    have hsplit := Flight.countP_split (l.ofPhase phase) fun f => f.operation.metric == metric
    rw [h.books.count_pending hlane] at hsplit
    rw [hheld, hrequests, hcompleted, h.requests, (h.samples phase).countP_eq, List.countP_map,
      List.countP_filterMap]
    refine hsplit.trans ?_
    congr 2
    refine List.countP_congr fun f _ => ?_
    cases hf : f.fate <;> simp [Flight.sample?, hf]
  whole := h.whole
  final now cause slot s₁ ha k f hf hnot := Ledger.after_final hf hnot _

end Shard

def errandSecond : Shard × Visit := (errandDone.1.acquire 0).2.turn 5 0 1 .start

def errandGivenUp : Shard × Visit := errandSecond.1.turn 6 0 1 .terminate

def errandThird : Shard × Visit := (errandGivenUp.1.acquire 0).2.turn 7 0 1 .start

def errandThirdBooks : Ledger :=
  [errandSecond.2, errandGivenUp.2, errandThird.2].foldl .after errandBooks

lemma errandGivenUp_run :
    errandGivenUp.1.Run ([errandSecond.2, errandGivenUp.2].foldl .after errandBooks) := by
  have hfree : (errandDone.1.acquire 0).1 = some 1 := by decide +kernel
  have hsecond : errandSecond.1.Run (.after errandBooks errandSecond.2) :=
    errandDone_run.turn (.start (Prod.ext hfree rfl))
  exact hsecond.turn (.terminate 0 1)

lemma errandThird_run : errandThird.1.Run errandThirdBooks := by
  have hagain : (errandGivenUp.1.acquire 0).1 = some 1 := by decide +kernel
  exact errandGivenUp_run.turn (.start (Prod.ext hagain rfl))

theorem errandThird_counts_once : errandThird.1.Run errandThirdBooks ∧
    errandThird.1.template = .empty .default ∧ .reset ∉ errandThirdBooks.recorded 0 ∧
    ∃ lane, errandThird.1.lanes.get? 0 = some lane ∧
      errandThird.1.CountsOnce errandThirdBooks 0 lane ∧
      ((lane.held "get").requests, (lane.held "get").completed, lane.waiting "get",
        errandThirdBooks.abandoned 0 "get") = (3, 1, 1, 1) := by
  have hcounts : ((errandThird.1.lanes.get? 0).map fun lane =>
      ((lane.held "get").requests, (lane.held "get").completed, lane.waiting "get",
        errandThirdBooks.abandoned 0 "get")) = some (3, 1, 1, 1) := by decide +kernel
  have htemplate : errandThird.1.template = .empty .default := by decide +kernel
  obtain ⟨lane, hlane, hcounts⟩ := Option.map_eq_some_iff.mp hcounts
  exact ⟨errandThird_run, htemplate, by decide +kernel, lane, hlane,
    Shard.Run.counts_once errandThird_run htemplate hlane, hcounts⟩

end LoadEngine
