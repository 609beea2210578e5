import LoadEngine.Proofs.TurnRun

/-! The end of one wait. What came for an operation or a delay is told by its tag from what comes
for another one or too late, and the branch that has waited gives back what was kept for it. -/

namespace LoadEngine

namespace Session

variable {sc : Scenario} {s : Session} {tag : Tag} {p : Pending}

lemma isCurrent_of_knows (h : s.Knows tag) :
    s.isCurrent tag = .ok (tag.generation == s.generation && s.state.isLive) := by
  unfold isCurrent
  rw [if_neg]
  rintro (hlt | hle)
  · exact Nat.lt_irrefl _ (hlt.trans_le h.1)
  · exact Nat.lt_irrefl _ (h.2.trans_le hle)

lemma isCurrent_ok {current : Bool} (h : s.isCurrent tag = .ok current) :
    s.Knows tag ∧ current = (tag.generation == s.generation && s.state.isLive) := by
  by_cases hknows : s.Knows tag
  · rw [isCurrent_of_knows hknows] at h
    cases h
    exact ⟨hknows, rfl⟩
  · unfold isCurrent at h
    rw [if_pos] at h
    · cases h
    · by_contra hnot
      rw [not_or, Nat.not_lt, Nat.not_le] at hnot
      exact hknows hnot

lemma pending?_error {fault : ContractViolation} (h : s.pending? sc tag = .error fault) :
    ¬ s.Knows tag := by
  intro hknows
  unfold pending? at h
  rw [isCurrent_of_knows hknows] at h
  cases hcurrent : (tag.generation == s.generation && s.state.isLive) with
  | false =>
    rw [hcurrent] at h
    cases h
  | true =>
    rw [hcurrent] at h
    simp only [Except.bind, bind, if_true] at h
    split at h <;> cases h

lemma pending?_some (h : s.pending? sc tag = .ok (some p)) :
    s.Knows tag ∧ tag.generation = s.generation ∧ s.state.isLive = true ∧ p.branch = tag.branch ∧
      ∃ b, s.branches[tag.branch]? = some b ∧ b.wait = .operation tag.op p.request ∧
        sc.step? b.sequence b.step = some (.operation p.operation) := by
  obtain ⟨current, hcurrent, h⟩ := bind_eq_ok.mp h
  obtain ⟨hknows, rfl⟩ := isCurrent_ok hcurrent
  split at h
  · rename_i hlive
    rw [Bool.and_eq_true, beq_iff_eq] at hlive
    split at h
    · rename_i op request operation hwait hstep
      cases hb : s.branches[tag.branch]? with
      | none =>
        rw [hb] at hwait
        cases hwait
      | some b =>
        rw [hb] at hwait
        have hb' : b.wait = .operation op request := Option.some.inj hwait
        split at h
        · rename_i hop
          cases h
          refine ⟨hknows, hlive.1, hlive.2, rfl, b, rfl, hop ▸ hb', ?_⟩
          rw [current?, hb] at hstep
          exact hstep
        · cases h
    · cases h
  · cases h

lemma pending?_of_wait (hlive : s.state.isLive = true) (hknows : s.Knows tag)
    (hgeneration : tag.generation = s.generation) {b : Branch} {request : Nat}
    {operation : Operation BoundValidator} (hb : s.branches[tag.branch]? = some b)
    (hw : b.wait = .operation tag.op request)
    (hs : sc.step? b.sequence b.step = some (.operation operation)) :
    s.pending? sc tag = .ok (some ⟨tag.branch, request, operation⟩) := by
  have hstep : s.current? sc tag.branch = some (.operation operation) := by
    rw [current?, hb]
    exact hs
  have hwait : s.branches[tag.branch]?.map Branch.wait = some (.operation tag.op request) := by
    rw [hb, Option.map_some, hw]
  unfold pending?
  rw [isCurrent_of_knows hknows, hlive, hgeneration]
  simp only [beq_self_eq_true, Bool.and_self, bind, Except.bind, if_true, hwait, hstep]
  rfl

end Session

lemma Tree.step_of_await {sc : Scenario} {reached : Nat → Prop} {l : List Branch} {i : Nat}
    {b : Branch} {a : Await} (h : Tree sc reached l) (hb : l[i]? = some b)
    (ha : b.await? = some a) : ∃ step, sc.step? b.sequence b.step = some step ∧
      ((∃ operation, step = .operation operation) ∨ ∃ duration, step = .delay duration) := by
  have hwaits := h.waits b (List.mem_of_getElem? hb)
  unfold Branch.await? at ha
  unfold Branch.Waits at hwaits
  cases hw : b.wait with
  | operation op request =>
    rw [hw] at hwaits
    obtain ⟨operation, hs⟩ := hwaits
    exact ⟨_, hs, .inl ⟨operation, rfl⟩⟩
  | delay op =>
    rw [hw] at hwaits
    obtain ⟨duration, hs⟩ := hwaits
    exact ⟨_, hs, .inr ⟨duration, rfl⟩⟩
  | _ => simp [hw, Wait.number?] at ha

namespace Session

variable {sc : Scenario} {reached : Nat → Prop} {weight : Nat → Nat} {s s' : Session} {i : Nat}
  {b b' : Branch} {a : Await} {op r : Nat}

lemma Sound.step_of_await (h : s.Sound sc reached weight) (hb : s.branches[i]? = some b)
    (ha : b.await? = some a) :
    ∃ step, sc.step? b.sequence b.step = some step ∧ step.forks = [] ∧ step ≠ .join := by
  obtain ⟨step, hs, ⟨operation, rfl⟩ | ⟨duration, rfl⟩⟩ := h.tree.step_of_await hb ha
  · exact ⟨_, hs, rfl, by simp⟩
  · exact ⟨_, hs, rfl, by simp⟩

lemma load_of_await {cost : Step Variable → Nat} {last : Nat} (ha : b.await? = some a) :
    b.load sc cost last = b.proceed.load sc cost last := by
  unfold Branch.await? at ha
  unfold Branch.load
  cases hw : b.wait with
  | operation op request => rfl
  | delay op => rfl
  | _ => simp [hw, Wait.number?] at ha

lemma Sound.proceed (h : s.Sound sc reached weight) (hb : s.branches[i]? = some b)
    (ha : b.await? = some a) {arena : List Resource} (harena : Typed sc arena) :
    Sound sc reached weight { s with branches := s.branches.set i b.proceed, arena } := by
  obtain ⟨step, hs, hforks, hjoin⟩ := h.step_of_await hb ha
  have hdone : b.isDone = false := by
    cases hw : b.wait with
    | done => simp [Branch.await?, hw, Wait.number?] at ha
    | _ => rw [Branch.isDone, hw]; rfl
  have hless : ∀ k a', awaits (s.branches.set i b.proceed) k = some a' →
      awaits s.branches k = some a' := by
    intro k a' hk
    rw [awaits_set hb, await?_of_runnable rfl] at hk
    split at hk
    · cases hk
    · exact hk
  refine ⟨?_, ?_, harena, ?_, ?_⟩
  · refine h.tree.set hb rfl rfl (by rw [hdone]; rfl) rfl trivial ?_ ?_
    · change sc.forkedBefore b.sequence (b.step + 1) = _
      rw [Tree.forkedBefore_succ hs, hforks]
      rfl
    · intro j hj hjs
      change j < b.step + 1 at hj
      change sc.step? b.sequence j = some .join at hjs
      rcases Nat.lt_succ_iff_lt_or_eq.mp hj with hj | rfl
      · exact .inl hj
      · rw [hs, Option.some.injEq] at hjs
        exact absurd hjs hjoin
  · have hset := loadOf_set sc (Step.weight weight) 0 hb b.proceed
    have hgrowth := h.growth
    rw [load_of_await ha] at hset
    simp only [LoadEngine.growth, List.length_set] at hgrowth ⊢
    omega
  · intro k a' op hk
    exact h.below k a' op (hless k a' hk)
  · intro k k' a₁ a₂ hk hk'
    exact h.distinct k k' a₁ a₂ (hless k a₁ hk) (hless k' a₂ hk')

structure Drops (s s' : Session) (i : Nat) : Prop where
  slot : s'.slot = s.slot
  generation : s'.generation = s.generation
  nextOp : s'.nextOp = s.nextOp
  awaits : ∀ k, awaits s'.branches k = if k = i then none else LoadEngine.awaits s.branches k

lemma Drops.awaits_some {k : Nat} (h : s.Drops s' i)
    (hk : LoadEngine.awaits s'.branches k = some a) :
    k ≠ i ∧ LoadEngine.awaits s.branches k = some a := by
  rw [h.awaits] at hk
  split at hk
  · cases hk
  · exact ⟨by assumption, hk⟩

lemma Keeps.drop {requests requests' : Pool Request} (h : s.Keeps requests) (hd : s.Drops s' i)
    (hi : awaits s.branches i = some ⟨b.sequence, b.step, .operation op r⟩)
    (hdistinct : ∀ k k' a a', awaits s.branches k = some a → awaits s.branches k' = some a' →
      a.wait.number? = a'.wait.number? → k = k')
    (hr : ∀ r', requests'.get? r' = if r' = r then none else requests.get? r') :
    s'.Keeps requests' := by
  obtain ⟨since, hsince⟩ := h.kept i _ _ op r hi
  constructor
  · intro k id step op' r' hk
    obtain ⟨hne, hk⟩ := hd.awaits_some hk
    obtain ⟨since', hsince'⟩ := h.kept k id step op' r' hk
    refine ⟨since', ?_⟩
    rw [hr r', if_neg, hd.slot, hd.generation]
    · exact hsince'
    · rintro rfl
      rw [hsince, Option.some.injEq, Request.mk.injEq] at hsince'
      obtain ⟨-, -, rfl, -⟩ := hsince'
      exact hne (hdistinct k i _ _ hk hi rfl)
  · intro r' record hrecord hown
    rw [hr r'] at hrecord
    split at hrecord
    · cases hrecord
    · rename_i hne
      rw [hd.slot] at hown
      obtain ⟨k, id, step, hk⟩ := h.owned r' record hrecord hown
      refine ⟨k, id, step, ?_⟩
      rw [hd.awaits, if_neg, hk]
      rintro rfl
      rw [hi, Option.some.injEq, Await.mk.injEq, Wait.operation.injEq] at hk
      exact hne hk.2.2.2.symm

lemma Keeps.drop_delay {requests : Pool Request} (h : s.Keeps requests) (hd : s.Drops s' i)
    (hi : awaits s.branches i = some ⟨b.sequence, b.step, .delay op⟩) : s'.Keeps requests := by
  refine h.congr hd.slot hd.generation fun k id step op' r => ?_
  rw [hd.awaits]
  split
  · rename_i hk
    rw [hk, hi]
    simp
  · rfl

end Session

namespace Flight

variable {now : Nanos} {cause : Cause} {f : Flight}

@[simp] lemma hear_tag (now : Nanos) (cause : Cause) (f : Flight) :
    (f.hear now cause).tag = f.tag := by
  unfold hear
  split
  · split <;> rfl
  · rfl

@[simp] lemma forsake_tag (how : SessionEnd) (f : Flight) : (f.forsake how).tag = f.tag := by
  unfold forsake
  split <;> rfl

lemma forsake_isPending (how : SessionEnd) (f : Flight) : (f.forsake how).isPending = false := by
  unfold forsake
  split
  · rfl
  · rename_i hnot
    exact Bool.eq_false_iff.mpr hnot

lemma isPending_iff : f.isPending = true ↔ ∃ body, f.fate = .pending body := by
  unfold isPending body?
  cases f.fate <;> simp

lemma hear_of_not_pending (h : f.isPending = false) : f.hear now cause = f := by
  unfold hear
  cases hf : f.fate with
  | pending body => simp [isPending, body?, hf] at h
  | _ => rfl

lemma hear_of_ne (h : cause.tag? ≠ some f.tag) :
    f.hear now cause = f ∧ f.settles? now cause = none := by
  have hnone : f.settles? now cause = none := by
    unfold settles?
    split
    · rw [if_neg]
      rintro heq
      exact h (congrArg some heq.symm)
    · rw [if_neg]
      rintro heq
      exact h (congrArg some heq.symm)
    · rfl
  refine ⟨?_, hnone⟩
  cases hf : f.fate with
  | pending body =>
    have hsame : f.gathers body cause = body := by
      unfold gathers
      split
      · rw [if_neg]
        rintro heq
        exact h (congrArg some heq.symm)
      · rfl
    simp only [hear, hf, hnone, hsame]
    rw [← hf]
  | settled sample => simp only [hear, hf]
  | abandoned how => simp only [hear, hf]

lemma settles?_of_not_pending (h : f.isPending = false) : f.settles? now cause = none := by
  have hbody : f.body? = none := by
    simpa [isPending] using h
  unfold settles?
  split
  · rw [hbody]
    simp
  · rw [hbody]
    simp
  · rfl

end Flight

namespace Session

variable {sc : Scenario} {phase : Nat} {s s' : Session} {requests requests' : Pool Request}
  {flights : List Flight} {timers timers' : List Timer} {since : Nat → Nanos} {i op : Nat}
  {a : Await}

lemma Booked.not_pending (h : s.Booked sc phase requests flights timers since)
    (hidle : ∀ k, awaits s.branches k = none) : ∀ f ∈ flights, f.isPending = false := by
  intro f hf
  by_contra hpending
  rw [Bool.not_eq_false] at hpending
  obtain ⟨body, hbody⟩ := Flight.isPending_iff.mp hpending
  obtain ⟨id, step, r, hwait, -⟩ := (h.flies f hf body hbody).1.wait
  rw [hidle] at hwait
  cases hwait

lemma Booked.branch_of_pending (h : s.Booked sc phase requests flights timers since)
    (hdistinct : ∀ k k' a a', awaits s.branches k = some a → awaits s.branches k' = some a' →
      a.wait.number? = a'.wait.number? → k = k')
    (hi : awaits s.branches i = some a) (hop : a.wait.number? = some op) {f : Flight}
    (hf : f ∈ flights) {body : List UInt8} (hbody : f.fate = .pending body) (hfop : f.tag.op = op) :
    f.tag = s.tag phase i op ∧ ∃ r, a.wait = .operation op r := by
  obtain ⟨htag, ⟨id, step, r, hwait, -, -⟩, -⟩ := (h.flies f hf body hbody).1
  have hbranch := hdistinct _ _ _ _ hwait hi (by rw [hop, ← hfop]; rfl)
  rw [hbranch, hi, Option.some.injEq] at hwait
  rw [hbranch, hfop] at htag
  refine ⟨htag, r, ?_⟩
  rw [hwait, hfop]

lemma hear_of_op_ne {now : Nanos} {cause : Cause} {f : Flight}
    (hcause : cause.tag? = some (s.tag phase i op)) (hne : f.tag.op ≠ op) :
    f.hear now cause = f := by
  refine (Flight.hear_of_ne ?_).1
  rw [hcause]
  intro heq
  exact hne (by rw [← Option.some.inj heq]; rfl)

lemma Booked.pending_of_hear (h : s.Booked sc phase requests flights timers since)
    (hdistinct : ∀ k k' a a', awaits s.branches k = some a → awaits s.branches k' = some a' →
      a.wait.number? = a'.wait.number? → k = k')
    (hi : awaits s.branches i = some a) (hop : a.wait.number? = some op) {now : Nanos}
    {cause : Cause} (hcause : cause.tag? = some (s.tag phase i op)) {f : Flight} (hf : f ∈ flights)
    (hends : f.tag = s.tag phase i op → (f.hear now cause).isPending = false)
    (hpending : (f.hear now cause).isPending = true) : f.tag.op ≠ op ∧ f.hear now cause = f := by
  have hbefore : f.isPending = true := by
    by_contra hnot
    rw [Flight.hear_of_not_pending (Bool.not_eq_true _ ▸ hnot)] at hpending
    exact hnot hpending
  obtain ⟨body, hbody⟩ := Flight.isPending_iff.mp hbefore
  have hne : f.tag.op ≠ op := by
    intro hfop
    have hended := hends (h.branch_of_pending hdistinct hi hop hf hbody hfop).1
    rw [hpending] at hended
    cases hended
  exact ⟨hne, hear_of_op_ne hcause hne⟩

lemma Booked.drop (h : s.Booked sc phase requests flights timers since) (hd : s.Drops s' i)
    (hi : awaits s.branches i = some a) (hop : a.wait.number? = some op)
    (hdistinct : ∀ k k' a a', awaits s.branches k = some a → awaits s.branches k' = some a' →
      a.wait.number? = a'.wait.number? → k = k')
    {now : Nanos} {cause : Cause} (hcause : cause.tag? = some (s.tag phase i op))
    (hends : ∀ f ∈ flights, f.tag = s.tag phase i op → (f.hear now cause).isPending = false)
    (hcursors : ∀ f ∈ flights, ∀ body, s.Flies sc phase requests f body → f.tag.branch ≠ i →
      ∀ v ∈ f.operation.validators, s'.cursor? sc v.key f.tag.branch =
        s.cursor? sc v.key f.tag.branch)
    (hrequests : ∀ r record, record.op ≠ op → record.session = some s.slot →
      requests.get? r = some record → requests'.get? r = some record)
    (htimers : ∀ timer ∈ timers, timer.tag.op ≠ op → timer ∈ timers')
    (hsub : timers'.Sublist timers) :
    s'.Booked sc phase requests' (flights.map (Flight.hear now cause)) timers' since where
  flies g hg body hbody := by
    obtain ⟨f, hf, rfl⟩ := List.mem_map.mp hg
    obtain ⟨hne, hsame⟩ := h.pending_of_hear hdistinct hi hop hcause hf (hends f hf)
      (Flight.isPending_iff.mpr ⟨body, hbody⟩)
    rw [hsame] at hbody ⊢
    obtain ⟨hflies, htime⟩ := h.flies f hf body hbody
    have hbranch : f.tag.branch ≠ i := by
      obtain ⟨id, step, r, hwait, -⟩ := hflies.wait
      intro heq
      rw [heq, hi, Option.some.injEq] at hwait
      rw [hwait] at hop
      exact hne (Option.some.inj hop)
    refine ⟨hflies.congr hd.slot hd.generation (by rw [hd.awaits, if_neg hbranch]) ?_
      (hcursors f hf body hflies hbranch), htime⟩
    intro r record hrecord
    exact hrequests r record (by rwa [hrecord])
  flown k id step op' r hk := by
    obtain ⟨hne, hk⟩ := hd.awaits_some hk
    obtain ⟨f, hf, htag, hpending⟩ := h.flown k id step op' r hk
    have hfop : f.tag.op ≠ op := by
      intro heq
      rw [htag] at heq
      exact hne (hdistinct k i _ _ hk hi (by rw [hop, ← heq]; rfl))
    refine ⟨f, List.mem_map.mpr ⟨f, hf, hear_of_op_ne hcause hfop⟩, ?_, hpending⟩
    rw [tag_congr hd.slot hd.generation]
    exact htag
  alarms k a' hk := by
    obtain ⟨hne, hk⟩ := hd.awaits_some hk
    obtain ⟨timer, htimer, halarm⟩ := h.alarms k a' hk
    obtain ⟨op', hop', htag⟩ := halarm.number
    refine ⟨timer, htimers timer htimer ?_, halarm.congr hd.slot hd.generation fun _ _ => rfl⟩
    rw [htag]
    intro heq
    change op' = op at heq
    exact hne (hdistinct k i _ _ hk hi (by rw [hop, hop', heq]))
  flightOps := by
    rw [List.map_map]
    simpa [Function.comp_def] using h.flightOps
  timerOps := (hsub.map _).nodup h.timerOps
  flightsKnown g hg := by
    obtain ⟨f, hf, rfl⟩ := List.mem_map.mp hg
    rw [Flight.hear_tag]
    exact (h.flightsKnown f hf).mono hd.generation.ge hd.nextOp.ge
  timersKnown timer htimer :=
    (h.timersKnown timer (hsub.subset htimer)).mono hd.generation.ge hd.nextOp.ge

end Session

end LoadEngine
