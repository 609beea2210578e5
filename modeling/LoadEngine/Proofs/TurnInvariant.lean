import LoadEngine.Proofs.BranchBudget
import LoadEngine.Proofs.TurnSteps

/-! What holds of a turn at every step. The branches form a tree and are no more than there may be;
their waits have numbers of their own; and the request pool keeps one slot for each operation that a
branch waits for, and none besides for this session. -/

namespace LoadEngine

/-- What a built scenario promises. -/
structure Scenario.Sound (s : Scenario) (reached : Nat → Prop) (weight : Nat → Nat) : Prop where
  budget : s.Budget reached weight
  resolved : ∀ id, ∀ step ∈ s.stepsOf id, s.layout.WellResolved step

lemma Draft.build_sound {d : Draft} {s : Scenario} (h : d.build = .ok s) :
    ∃ reached weight, s.Sound reached weight := by
  obtain ⟨reached, weight, hbudget⟩ := d.build_budget h
  exact ⟨reached, weight, hbudget, d.build_wellResolved h⟩

/-- The branches and the arena of a session fit its scenario. -/
structure Session.Sound (sc : Scenario) (reached : Nat → Prop) (weight : Nat → Nat) (s : Session) :
    Prop where
  tree : Tree sc reached s.branches
  growth : growth sc weight s.branches ≤ sc.maxBranches
  typed : Typed sc s.arena
  below : ∀ k a op, awaits s.branches k = some a → a.wait.number? = some op → op < s.nextOp
  distinct : ∀ k k' a a', awaits s.branches k = some a → awaits s.branches k' = some a' →
    a.wait.number? = a'.wait.number? → k = k'

/-- The request pool has a slot for each operation that the session waits for, and no other one that
is kept for it. -/
structure Session.Keeps (s : Session) (requests : Pool Request) : Prop where
  kept : ∀ k id step op r, awaits s.branches k = some ⟨id, step, .operation op r⟩ →
    ∃ since, requests.get? r = some ⟨some s.slot, s.generation, op, some since⟩
  owned : ∀ r record, requests.get? r = some record → record.session = some s.slot →
    ∃ k id step, awaits s.branches k = some ⟨id, step, .operation record.op r⟩

structure Turn.Coherent (sc : Scenario) (reached : Nat → Prop) (weight : Nat → Nat) (t : Turn) :
    Prop where
  sound : t.session.Sound sc reached weight
  pool : t.requests.Sound
  keeps : t.session.Keeps t.requests

structure Turn.Owns (t : Turn) : Prop where
  pool : t.requests.Sound
  keeps : t.session.Keeps t.requests
  distinct : ∀ k k' a a', awaits t.session.branches k = some a →
    awaits t.session.branches k' = some a' → a.wait.number? = a'.wait.number? → k = k'

lemma Turn.Coherent.owns {sc : Scenario} {reached : Nat → Prop} {weight : Nat → Nat} {t : Turn}
    (h : t.Coherent sc reached weight) : t.Owns := ⟨h.pool, h.keeps, h.sound.distinct⟩

namespace Session

variable {sc : Scenario} {reached : Nat → Prop} {weight : Nat → Nat} {s : Session} {i : Nat}
  {b : Branch} {requests : Pool Request}

lemma Sound.length_le (h : s.Sound sc reached weight) : s.branches.length ≤ sc.maxBranches := by
  have hgrowth := h.growth
  rw [LoadEngine.growth] at hgrowth
  omega

lemma Sound.move (h : s.Sound sc reached weight) (hsc : sc.Sound reached weight)
    (hb : s.branches[i]? = some b) (hrun : b.wait = .runnable) {branches : List Branch}
    {arena : List Resource} (hstep : BranchStep sc s.branches i b branches)
    (hq : ∀ k, awaits branches k = awaits s.branches k) (hw : Wrote sc s arena) :
    Sound sc reached weight { s with branches, arena } where
  tree := h.tree.step hsc.budget hb hrun hstep
  growth := (growth_step hsc.budget h.tree hb hrun hstep).trans h.growth
  typed := hw.typed
  below k a op ha := by
    rw [hq] at ha
    exact h.below k a op ha
  distinct k k' a a' ha ha' := by
    rw [hq] at ha ha'
    exact h.distinct k k' a a' ha ha'

lemma Sound.hold (h : s.Sound sc reached weight) (hsc : sc.Sound reached weight)
    (hb : s.branches[i]? = some b) (hrun : b.wait = .runnable) (w : Wait)
    (hnumber : w.number? = some s.nextOp) (hw : Branch.Waits sc { b with wait := w })
    {arena : List Resource} (ha : Typed sc arena) :
    Sound sc reached weight { s with
      nextOp := s.nextOp + 1, branches := s.branches.set i { b with wait := w }, arena } := by
  have hstep : BranchStep sc s.branches i b (s.branches.set i { b with wait := w }) := by
    refine .hold hw ?_ ?_ <;> (rintro rfl; cases hnumber)
  have hnew : ∀ k a, awaits (s.branches.set i { b with wait := w }) k = some a →
      (k = i ∧ a.wait.number? = some s.nextOp) ∨ (k ≠ i ∧ awaits s.branches k = some a) := by
    intro k a hk
    rw [awaits_set hb] at hk
    split at hk
    · rename_i hki
      refine .inl ⟨hki, ?_⟩
      simp only [Branch.await?, hnumber, Option.isSome_some, if_true, Option.some.injEq] at hk
      rw [← hk]
      exact hnumber
    · rename_i hki
      exact .inr ⟨hki, hk⟩
  refine ⟨h.tree.step hsc.budget hb hrun hstep,
    (growth_step hsc.budget h.tree hb hrun hstep).trans h.growth, ha, ?_, ?_⟩
  · intro k a op hk hop
    obtain ⟨-, hn⟩ | ⟨-, hold⟩ := hnew k a hk
    · rw [hn, Option.some.injEq] at hop
      exact hop ▸ Nat.lt_succ_self _
    · exact Nat.lt_succ_of_lt (h.below k a op hold hop)
  · intro k k' a a' hk hk' hsame
    obtain ⟨hki, hn⟩ | ⟨hki, hold⟩ := hnew k a hk
    · obtain ⟨hki', -⟩ | ⟨-, hold'⟩ := hnew k' a' hk'
      · rw [hki, hki']
      · exact absurd (h.below k' a' _ hold' (hsame.symm.trans hn)) (Nat.lt_irrefl _)
    · obtain ⟨-, hn'⟩ | ⟨-, hold'⟩ := hnew k' a' hk'
      · exact absurd (h.below k a _ hold (hsame.trans hn')) (Nat.lt_irrefl _)
      · exact h.distinct k k' a a' hold hold' hsame

lemma Keeps.congr {s' : Session} (h : s.Keeps requests) (hslot : s'.slot = s.slot)
    (hgeneration : s'.generation = s.generation)
    (hq : ∀ k id step op r, awaits s'.branches k = some ⟨id, step, .operation op r⟩ ↔
      awaits s.branches k = some ⟨id, step, .operation op r⟩) : s'.Keeps requests := by
  refine ⟨?_, ?_⟩
  · intro k id step op r hk
    rw [hslot, hgeneration]
    exact h.kept k id step op r ((hq k id step op r).mp hk)
  · intro r record hr hs
    rw [hslot] at hs
    obtain ⟨k, id, step, hk⟩ := h.owned r record hr hs
    exact ⟨k, id, step, (hq ..).mpr hk⟩

lemma taken_get? {requests requests' : Pool Request} (hpool : requests.Sound) {request : Nat}
    (hr : requests.acquire = (some request, requests')) (record : Request) (r : Nat) :
    (requests'.update request fun _ => record).get? r =
      if r = request then some record else requests.get? r := by
  have hsome : requests.acquire.1 = some request := by rw [hr]
  have hrest : requests.acquire.2 = requests' := by rw [hr]
  obtain ⟨hfresh, a, ha⟩ := Pool.acquire_fresh hpool hsome
  have hget := fun j c => Pool.acquire_get? hpool hsome ha j c
  rw [hrest] at hget
  rw [Pool.update_get?]
  by_cases hrr : r = request
  · rw [if_pos hrr, if_pos hrr, (hget r a).mpr (.inl ⟨hrr, rfl⟩)]
    rfl
  · rw [if_neg hrr, if_neg hrr]
    apply Option.ext
    intro c
    rw [hget r c]
    simp [hrr]

lemma not_kept_of_free {requests : Pool Request} (hpool : requests.Sound) {request : Nat}
    {requests' : Pool Request} (hr : requests.acquire = (some request, requests')) :
    requests.get? request = none := by
  have hsome : requests.acquire.1 = some request := by rw [hr]
  obtain ⟨hfresh, -⟩ := Pool.acquire_fresh hpool hsome
  cases hg : requests.get? request with
  | none => rfl
  | some a =>
    rw [Pool.get?_eq_some, hfresh] at hg
    cases hg.1

end Session

namespace Turn

variable {stage : Stage} {reached : Nat → Prop} {weight : Nat → Nat} {t t' : Turn} {i : Nat}
  {b : Branch}

lemma Coherent.ready (h : t.Coherent stage.scenario reached weight)
    (hsc : stage.scenario.Sound reached weight) (hb : t.session.branches[i]? = some b)
    (hrun : b.wait = .runnable) : Ready stage t i b where
  branch := hb
  runnable := hrun
  typed := h.sound.typed
  place := ((List.getElem?_eq_some_iff.mp hb).1).trans_le h.sound.length_le
  resolved := hsc.resolved b.sequence

lemma Coherent.issued (h : t.Coherent stage.scenario reached weight)
    (hsc : stage.scenario.Sound reached weight) (hb : t.session.branches[i]? = some b)
    (hrun : b.wait = .runnable) {operation : Operation BoundValidator} {request : Nat}
    {requests : Pool Request}
    (hs : stage.scenario.step? b.sequence b.step = some (.operation operation))
    (hr : t.requests.acquire = (some request, requests)) :
    (Turn.issued stage t i b operation request requests).Coherent stage.scenario reached
      weight := by
  have hget := Session.taken_get? h.pool hr
    ⟨some t.session.slot, t.session.generation, t.session.nextOp, some stage.now⟩
  have hfree := Session.not_kept_of_free h.pool hr
  have hsound : requests.Sound := by
    have hrest : t.requests.acquire.2 = requests := by rw [hr]
    rw [← hrest]
    exact Pool.acquire_sound h.pool
  have hnone := await?_of_runnable hrun
  have hkept := Pool.update_sound hsound request fun _ =>
    ⟨some t.session.slot, t.session.generation, t.session.nextOp, some stage.now⟩
  refine ⟨h.sound.hold hsc hb hrun (.operation _ request) rfl ⟨operation, hs⟩
    (Session.typed_onCursors h.sound.typed _ _ _), hkept, ?_⟩
  constructor
  · intro k id step op r hk
    simp only [Turn.issued, awaits_set hb] at hk ⊢
    rw [hget r]
    split at hk
    · cases hk
      exact ⟨stage.now, by rw [if_pos rfl]⟩
    · obtain ⟨since, hsince⟩ := h.keeps.kept k id step op r hk
      have hne : r ≠ request := by
        rintro rfl
        rw [hfree] at hsince
        cases hsince
      exact ⟨since, by rw [if_neg hne]; exact hsince⟩
  · intro r record hrecord hown
    simp only [Turn.issued, awaits_set hb] at hrecord hown ⊢
    rw [hget r] at hrecord
    split at hrecord
    · rename_i hrr
      cases hrecord
      refine ⟨i, b.sequence, b.step, ?_⟩
      rw [if_pos rfl, hrr]
      rfl
    · obtain ⟨k, id, step, hk⟩ := h.keeps.owned r record hrecord hown
      have hne : k ≠ i := by
        rintro rfl
        rw [awaits_of_getElem? hb, hnone] at hk
        cases hk
      exact ⟨k, id, step, by rw [if_neg hne]; exact hk⟩

theorem Coherent.takes (h : t.Coherent stage.scenario reached weight)
    (hsc : stage.scenario.Sound reached weight) (hb : t.session.branches[i]? = some b)
    (hrun : b.wait = .runnable) (ht : Takes stage t i b t') :
    t'.Coherent stage.scenario reached weight := by
  have hnone := await?_of_runnable hrun
  cases ht with
  | move hs hq hw =>
    refine ⟨h.sound.move hsc hb hrun hs hq hw, h.pool, ?_⟩
    exact h.keeps.congr rfl rfl fun k id step op r => by rw [hq]
  | issue hs hr => exact h.issued hsc hb hrun hs hr
  | rest hs =>
    rename_i duration
    refine ⟨h.sound.hold hsc hb hrun (.delay _) rfl ⟨duration, hs⟩ h.sound.typed, h.pool, ?_⟩
    refine h.keeps.congr rfl rfl fun k id step op r => ?_
    simp only [rested, awaits_set hb]
    split
    · rename_i hk
      rw [hk, awaits_of_getElem? hb, hnone]
      simp [Branch.await?, Wait.number?]
    · rfl

lemma request?_eq_some {r : Nat} : b.request? = some r ↔ ∃ op, b.wait = .operation op r := by
  unfold Branch.request?
  cases b.wait with
  | operation op request => simp
  | _ => simp

lemma awaits_of_request {l : List Branch} {k op r : Nat} (hb : l[k]? = some b)
    (hw : b.wait = .operation op r) : awaits l k = some ⟨b.sequence, b.step, .operation op r⟩ := by
  rw [awaits_of_getElem? hb]
  simp [Branch.await?, hw, Wait.number?]

lemma awaits_of_delay {l : List Branch} {k op : Nat} (hb : l[k]? = some b)
    (hw : b.wait = .delay op) : awaits l k = some ⟨b.sequence, b.step, .delay op⟩ := by
  rw [awaits_of_getElem? hb]
  simp [Branch.await?, hw, Wait.number?]

lemma exists_of_awaits {l : List Branch} {k : Nat} {a : Await} (h : awaits l k = some a) :
    ∃ b, l[k]? = some b ∧ b.sequence = a.sequence ∧ b.step = a.step ∧ b.wait = a.wait := by
  obtain ⟨b, hb, ha⟩ := Option.bind_eq_some_iff.mp h
  refine ⟨b, hb, ?_⟩
  unfold Branch.await? at ha
  split at ha
  · cases ha
    exact ⟨rfl, rfl, rfl⟩
  · cases ha

lemma abandon_eq {requests : Pool Request} (hpool : requests.Sound) {l : List Branch}
    (hnodup : (l.filterMap Branch.request?).Nodup)
    (hheld : ∀ r ∈ l.filterMap Branch.request?, ∃ record, requests.get? r = some record) :
    ∃ requests', abandon requests l =
        (l.map fun b => { b with wait := .done }, requests', none) ∧
      requests'.Sound ∧ requests'.capacity = requests.capacity ∧
      requests'.asked = requests.asked ∧
      ∀ r, requests'.get? r =
        if r ∈ l.filterMap Branch.request? then none else requests.get? r := by
  induction l generalizing requests with
  | nil => exact ⟨requests, rfl, hpool, rfl, rfl, fun r => by simp⟩
  | cons b rest ih =>
    cases hb : b.request? with
    | none =>
      rw [List.filterMap_cons_none hb] at hnodup hheld
      obtain ⟨requests', heq, hsound, hcapacity, hasked, hget⟩ := ih hpool hnodup hheld
      refine ⟨requests', ?_, hsound, hcapacity, hasked, ?_⟩
      · simp only [abandon, hb, heq, List.map_cons]
      · rw [List.filterMap_cons_none hb]
        exact hget
    | some r =>
      rw [List.filterMap_cons_some hb] at hnodup hheld
      obtain ⟨hnot, hnodup⟩ := List.nodup_cons.mp hnodup
      obtain ⟨⟨record, hrecord⟩, hheld⟩ := List.forall_mem_cons.mp hheld
      obtain ⟨released, hreleased⟩ := Pool.release_of_get? (fun _ => Request.blank) hrecord
      have hgone := Pool.release_get? hreleased
      have hothers : ∀ r' ∈ rest.filterMap Branch.request?,
          ∃ record, released.get? r' = some record := by
        intro r' hr'
        have hne : r' ≠ r := by
          rintro rfl
          exact hnot hr'
        rw [hgone r', if_neg hne]
        exact hheld r' hr'
      obtain ⟨requests', heq, hsound, hcapacity, hasked, hget⟩ :=
        ih (Pool.release_sound hreleased hpool) hnodup hothers
      refine ⟨requests', ?_, hsound, hcapacity.trans (Pool.release_capacity hreleased),
        hasked.trans (Pool.release_asked hreleased), ?_⟩
      · simp only [abandon, hb, hreleased, heq, List.map_cons]
      · intro r'
        rw [hget r', hgone r', List.filterMap_cons_some hb]
        by_cases hr : r' = r
        · simp [hr]
        · simp [hr]

lemma Owns.requests_nodup (h : t.Owns) :
    (t.session.branches.filterMap Branch.request?).Nodup := by
  rw [List.Nodup, List.pairwise_filterMap, List.pairwise_iff_getElem]
  intro i j hi hj hij r hr r' hr' hsame
  subst hsame
  obtain ⟨op, hop⟩ := request?_eq_some.mp hr
  obtain ⟨op', hop'⟩ := request?_eq_some.mp hr'
  have hawait := awaits_of_request (List.getElem?_eq_getElem hi) hop
  have hawait' := awaits_of_request (List.getElem?_eq_getElem hj) hop'
  obtain ⟨since, hkept⟩ := h.keeps.kept i _ _ _ _ hawait
  obtain ⟨since', hkept'⟩ := h.keeps.kept j _ _ _ _ hawait'
  rw [hkept, Option.some.injEq, Request.mk.injEq] at hkept'
  obtain ⟨-, -, rfl, -⟩ := hkept'
  have heq := h.distinct i j _ _ hawait hawait' rfl
  omega

lemma Owns.mem_requests (h : t.Owns) {r : Nat} :
    r ∈ t.session.branches.filterMap Branch.request? ↔
      ∃ record, t.requests.get? r = some record ∧ record.session = some t.session.slot := by
  rw [List.mem_filterMap]
  constructor
  · rintro ⟨b, hb, hr⟩
    obtain ⟨k, hk⟩ := List.mem_iff_getElem?.mp hb
    obtain ⟨op, hop⟩ := request?_eq_some.mp hr
    obtain ⟨since, hkept⟩ := h.keeps.kept k _ _ _ _ (awaits_of_request hk hop)
    exact ⟨_, hkept, rfl⟩
  · rintro ⟨record, hrecord, hown⟩
    obtain ⟨k, id, step, hk⟩ := h.keeps.owned r record hrecord hown
    obtain ⟨b, hb, -, -, hw⟩ := exists_of_awaits hk
    exact ⟨b, List.mem_of_getElem? hb, request?_eq_some.mpr ⟨_, hw⟩⟩

structure Closed (t : Turn) (how : SessionEnd) (t' : Turn) : Prop where
  session : t'.session = { t.session with
    branches := t.session.branches.map fun b => { b with wait := .done }
    generation := t.session.generation + 1
    state := how.state }
  effects : t'.effects = t.effects
  recorder : t'.recorder = t.recorder
  pool : t'.requests.Sound
  capacity : t'.requests.capacity = t.requests.capacity
  asked : t'.requests.asked = t.requests.asked
  requests : ∀ r record, t'.requests.get? r = some record ↔
    t.requests.get? r = some record ∧ record.session ≠ some t.session.slot

theorem Owns.close (h : t.Owns) (how : SessionEnd) :
    ∃ t', t.close how = (t', .ended how) ∧ Closed t how t' := by
  obtain ⟨requests, heq, hsound, hcapacity, hasked, hget⟩ :=
    abandon_eq h.pool h.requests_nodup fun r hr => by
      obtain ⟨record, hrecord, -⟩ := h.mem_requests.mp hr
      exact ⟨record, hrecord⟩
  have hclose : t.close how = ({ t with
      requests
      session := { t.session with
        branches := t.session.branches.map fun b => { b with wait := .done }
        generation := t.session.generation + 1
        state := how.state } }, .ended how) := by
    simp only [Turn.close, heq, onSession]
  refine ⟨_, hclose, rfl, rfl, rfl, hsound, hcapacity, hasked, ?_⟩
  intro r record
  simp only [hget r]
  split
  · rename_i hr
    obtain ⟨own, hown, hslot⟩ := h.mem_requests.mp hr
    rw [hown]
    constructor
    · rintro ⟨⟩
    · rintro ⟨hsame, hne⟩
      cases hsame
      exact absurd hslot hne
  · rename_i hr
    constructor
    · intro hrecord
      exact ⟨hrecord, fun hslot => hr (h.mem_requests.mpr ⟨record, hrecord, hslot⟩)⟩
    · exact fun hrecord => hrecord.1

end Turn

end LoadEngine
