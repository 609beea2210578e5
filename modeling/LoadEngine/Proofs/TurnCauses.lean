import LoadEngine.Proofs.TurnData

/-! What sets a session going: its start, the outcome of an operation, the end of a delay; and the
end of the session from outside. Whatever the cause, the turn keeps its promises. -/

namespace LoadEngine

open Rehearsal (issues schedules)

lemma Session.Drops.of_set {s : Session} {i : Nat} {b b' : Branch} (hb : s.branches[i]? = some b)
    (hb' : b'.await? = none) (state : SessionState) (arena : List Resource) :
    s.Drops { s with branches := s.branches.set i b', state, arena } i where
  slot := rfl
  generation := rfl
  nextOp := rfl
  awaits k := by
    simp only [awaits_set hb, hb']

namespace Turn

variable {stage : Stage} {reached : Nat → Prop} {weight : Nat → Nat} {cause : Cause}
  {flights : List Flight} {timers : List Timer} {since : Nat → Nanos} {t : Turn}

def settled (t : Turn) (i : Nat) (b : Branch) (state : SessionState) (arena : List Resource)
    (requests : Pool Request) (metric : String) (sample : Sample) : Turn :=
  { t with
    session := { t.session with branches := t.session.branches.set i b, state, arena }
    requests
    recorder := t.recorder.record metric sample }

section Finish

variable {tag : Tag} {p : Pending} {b : Branch} {record : Request}

structure Settles (stage : Stage) (cause : Cause) (flights : List Flight) (t : Turn) (tag : Tag)
    (p : Pending) (b : Branch) (outcome : Outcome) (issued : Nanos) : Prop where
  branch : t.session.branches[tag.branch]? = some b
  wait : b.wait = .operation tag.op p.request
  step : stage.scenario.step? b.sequence b.step = some (.operation p.operation)
  place : p.branch = tag.branch
  own : tag = t.session.tag stage.phase tag.branch tag.op
  came : cause.tag? = some tag
  record : t.requests.get? p.request =
    some ⟨some t.session.slot, t.session.generation, tag.op, some issued⟩
  ends : ∀ f ∈ flights, f.tag = tag → (f.hear stage.now cause).isPending = false
  recorded : flights.filterMap (Flight.recording? stage.now cause) =
    [.sample p.operation.metric (.new outcome (stage.now - issued))]

lemma Settles.awaits {outcome : Outcome} {issued : Nanos}
    (hs : Settles stage cause flights t tag p b outcome issued) :
    awaits t.session.branches tag.branch =
      some ⟨b.sequence, b.step, .operation tag.op p.request⟩ :=
  awaits_of_request hs.branch hs.wait

lemma Opens.settles (h : Opens stage reached weight cause flights timers since t)
    (hcause : cause.tag? = some tag) (hp : t.session.pending? stage.scenario tag = .ok (some p))
    {outcome : Outcome}
    (hsettles : ∀ f ∈ flights, ∀ body, f.fate = .pending body → f.tag = tag →
      f.operation = p.operation → t.session.Flies stage.scenario stage.phase t.requests f body →
      f.settles? stage.now cause = some (.new outcome (stage.now - f.since))) :
    ∃ b issued, Settles stage cause flights t tag p b outcome issued := by
  obtain ⟨-, hgeneration, -, hbranch, b, hb, hw, hstep⟩ := Session.pending?_some hp
  obtain ⟨hphase, hslot⟩ := h.address tag hcause
  have htag := Tag.eq_of_parts hphase hslot hgeneration
  have hwait := awaits_of_request hb hw
  obtain ⟨issued, hrecord⟩ := h.coherent.keeps.kept _ _ _ _ _ hwait
  obtain ⟨f, hf, hftag, hpending⟩ := h.booked.flown _ _ _ _ _ hwait
  rw [← htag] at hftag
  have heach : ∀ g ∈ flights, ∀ body, g.fate = .pending body → g.tag = tag →
      g.operation = p.operation ∧ g.since = issued ∧
        g.settles? stage.now cause = some (.new outcome (stage.now - issued)) := by
    intro g hg body hbody hgtag
    have hflies := (h.booked.flies g hg body hbody).1
    obtain ⟨id, step, r, hgwait, hgstep, hgrecord⟩ := hflies.wait
    rw [hgtag, hwait, Option.some.injEq, Await.mk.injEq, Wait.operation.injEq] at hgwait
    obtain ⟨rfl, rfl, -, rfl⟩ := hgwait
    have hoperation : g.operation = p.operation := by
      rw [hstep, Option.some.injEq, Step.operation.injEq] at hgstep
      exact hgstep.symm
    have hsince : g.since = issued := by
      rw [hrecord, Option.some.injEq, Request.mk.injEq] at hgrecord
      exact (Option.some.inj hgrecord.2.2.2).symm
    refine ⟨hoperation, hsince, ?_⟩
    rw [← hsince]
    exact hsettles g hg body hbody hgtag hoperation hflies
  refine ⟨b, issued, hb, hw, hstep, hbranch, htag, hcause, hrecord, ?_, ?_⟩
  · intro g hg hgtag
    cases hgpending : g.isPending with
    | false =>
      rw [Flight.hear_of_not_pending hgpending]
      exact hgpending
    | true =>
      obtain ⟨body, hbody⟩ := Flight.isPending_iff.mp hgpending
      obtain ⟨-, -, hsample⟩ := heach g hg body hbody hgtag
      simp only [Flight.hear, hbody, hsample]
      rfl
  · obtain ⟨body, hbody⟩ := Flight.isPending_iff.mp hpending
    obtain ⟨hoperation, -, hsample⟩ := heach f hf body hbody hftag
    refine filterMap_eq_singleton h.booked.flightOps hf ?_ ?_
    · rw [Flight.recording?, hsample, hoperation]
      rfl
    · intro g _ hne
      have hother : cause.tag? ≠ some g.tag := by
        rw [hcause, ← hftag]
        intro heq
        exact hne (by rw [Option.some.inj heq])
      rw [Flight.recording?, (Flight.hear_of_ne hother).2]
      rfl

variable {outcome : Outcome} {issued : Nanos} {requests : Pool Request}

lemma Settles.leads (h : Opens stage reached weight cause flights timers since t)
    (hs : Settles stage cause flights t tag p b outcome issued)
    (hr : t.requests.release (fun _ => Request.blank) p.request = .ok requests) (b' : Branch)
    (state : SessionState) (arena : List Resource) :
    Leads stage cause flights t (t.settled tag.branch b' state arena requests p.operation.metric
      (.new outcome (stage.now - issued))) := by
  refine ⟨rfl, rfl, rfl, Pool.release_capacity hr, Pool.release_asked hr, ?_, ?_, h.effects⟩
  · intro r record hne
    simp only [settled]
    rw [Pool.release_get? hr]
    split
    · rename_i heq
      rw [heq, hs.record]
      constructor
      · intro hf
        cases hf
      · intro hf
        rw [← Option.some.inj hf] at hne
        exact absurd rfl hne
    · rfl
  · rw [hs.recorded]
    rfl

lemma Settles.keeps (h : Opens stage reached weight cause flights timers since t)
    (hs : Settles stage cause flights t tag p b outcome issued)
    (hr : t.requests.release (fun _ => Request.blank) p.request = .ok requests) {b' : Branch}
    (hb' : b'.await? = none) (state : SessionState) (arena : List Resource) :
    ({ t.session with branches := t.session.branches.set tag.branch b', state, arena } :
      Session).Keeps requests :=
  h.coherent.keeps.drop (.of_set hs.branch hb' state arena) hs.awaits h.coherent.sound.distinct
    fun r => Pool.release_get? hr r

lemma Settles.booked (h : Opens stage reached weight cause flights timers since t)
    (hs : Settles stage cause flights t tag p b outcome issued)
    (hr : t.requests.release (fun _ => Request.blank) p.request = .ok requests) {b' : Branch}
    (hb' : b'.await? = none) (state : SessionState) {arena : List Resource}
    (hcursors : ∀ f ∈ flights, ∀ body,
      t.session.Flies stage.scenario stage.phase t.requests f body → f.tag.branch ≠ tag.branch →
      ∀ v ∈ f.operation.validators,
        ({ t.session with arena } : Session).cursor? stage.scenario v.key f.tag.branch =
          t.session.cursor? stage.scenario v.key f.tag.branch) :
    ({ t.session with branches := t.session.branches.set tag.branch b', state, arena } :
      Session).Booked stage.scenario stage.phase requests
        (flights.map (Flight.hear stage.now cause)) timers since := by
  refine h.booked.drop (.of_set hs.branch hb' state arena) hs.awaits rfl h.coherent.sound.distinct
    (hs.came.trans (congrArg some hs.own)) ?_ hcursors ?_ ?_ (List.sublist_append_right _ _)
  · intro f hf hftag
    exact hs.ends f hf (hftag.trans hs.own.symm)
  · intro r record hne _ hrecord
    rw [Pool.release_get? hr, if_neg]
    · exact hrecord
    · rintro rfl
      rw [hs.record] at hrecord
      exact hne (by rw [← Option.some.inj hrecord])
  · intro timer htimer hne
    rcases List.mem_append.mp htimer with htimer | htimer
    · have htag := Cause.tag?_of_timer? (Option.mem_toList.mp htimer)
      rw [hs.came, Option.some.injEq] at htag
      exact absurd (by rw [← htag]) hne
    · exact htimer

lemma Settles.serves (hsc : stage.scenario.Sound reached weight)
    (h : Opens stage reached weight cause flights timers since t)
    (hs : Settles stage cause flights t tag p b outcome issued) {arena : List Resource}
    (harena : Typed stage.scenario arena)
    (hcursors : ∀ f ∈ flights, ∀ body,
      t.session.Flies stage.scenario stage.phase t.requests f body → f.tag.branch ≠ tag.branch →
      ∀ v ∈ f.operation.validators,
        ({ t.session with arena } : Session).cursor? stage.scenario v.key f.tag.branch =
          t.session.cursor? stage.scenario v.key f.tag.branch) :
    Serves stage reached weight cause flights timers since t
      (finishOperation stage { t with session := { t.session with arena } } tag.op p outcome).1
      (finishOperation stage { t with session := { t.session with arena } } tag.op p
        outcome).2 := by
  obtain ⟨requests, hr⟩ := Pool.release_of_get? (fun _ => Request.blank) hs.record
  have howns : (t.requests.get? p.request).filter
      (owns { t.session with arena } tag.op) =
        some ⟨some t.session.slot, t.session.generation, tag.op, some issued⟩ := by
    rw [hs.record]
    simp [owns]
  have hbranch : ({ t with
      session := { t.session with arena }
      requests := requests
      recorder := t.recorder.record p.operation.metric (.new outcome (stage.now - issued)) } :
        Turn).session.branches[tag.branch]? = some b := hs.branch
  unfold finishOperation
  simp only [howns, hr, hs.place]
  split
  · rw [onBranch_eq hbranch]
    have hnone : b.proceed.await? = none := await?_of_runnable rfl
    have hleads := hs.leads h hr b.proceed .running arena
    have hsound := h.coherent.sound.proceed hs.branch
      (by rw [← awaits_of_getElem? hs.branch]; exact hs.awaits) harena
    obtain ⟨htree, hgrowth, htyped, hbelow, hdistinct⟩ := hsound
    refine run_serves hsc ⟨⟨⟨htree, hgrowth, htyped, hbelow, hdistinct⟩,
      Pool.release_sound hr h.coherent.pool, hs.keeps h hr hnone .running arena⟩,
      .refl stage h.effects, ?_, h.clock, rfl⟩ hleads
    have hbooked := hs.booked h hr hnone .running hcursors
    simp only [onSession, h.effects, fresh, issues_nil, schedules_nil, List.map_nil,
      List.append_nil]
    exact hbooked
  · rw [onBranch_eq hbranch]
    have hnone : ({ b with wait := .runnable } : Branch).await? = none := await?_of_runnable rfl
    have hkeeps := hs.keeps h hr hnone t.session.state arena
    have hbooked := hs.booked h hr hnone t.session.state hcursors
    have hleads := hs.leads h hr { b with wait := .runnable } t.session.state arena
    refine close_serves ⟨Pool.release_sound hr h.coherent.pool, hkeeps, ?_⟩
      (.refl stage hleads.effects) ?_ hleads .failed fun hf => by cases hf
    · intro k k' a a' hk hk'
      have hdrops := Session.Drops.of_set hs.branch hnone t.session.state arena
      exact h.coherent.sound.distinct k k' a a' (hdrops.awaits_some hk).2 (hdrops.awaits_some hk').2
    · simp only [hleads.effects, fresh, issues_nil, schedules_nil, List.map_nil, List.append_nil]
      exact hbooked

end Finish

lemma judge_eq {p : Pending} {f : Flight} {body : List UInt8}
    (hflies : t.session.Flies stage.scenario stage.phase t.requests f body)
    (hoperation : f.operation = p.operation) (hbranch : p.branch = f.tag.branch)
    (completion : Completion) :
    judge stage t.session p completion.outcome = f.operation.verdict body completion := by
  cases completion with
  | failure kind => cases kind <;> rfl
  | success =>
    have haccepts : t.session.accepts stage.scenario p.operation.validators p.branch =
        f.operation.validators.all fun v => v.validator.predicate.test
          (Search.occurrences v.validator.pattern.toList body) := by
      rw [← hoperation, hbranch]
      unfold Session.accepts
      rw [Bool.eq_iff_iff, List.all_eq_true, List.all_eq_true]
      refine forall₂_congr fun v hv => ?_
      rw [Session.cursor?_eq_some.mp (hflies.cursors v hv)]
      simp only [Search.Validator.accepts, Search.Validator.feed_start_found]
    unfold judge Operation.verdict
    rw [haccepts]
    simp only [Completion.outcome, Outcome.isSuccess]
    cases f.operation.validators.all fun v => v.validator.predicate.test
      (Search.occurrences v.validator.pattern.toList body) <;> rfl

lemma onCompletion_serves (hsc : stage.scenario.Sound reached weight) {tag : Tag}
    {completion : Completion}
    (h : Opens stage reached weight (.complete tag completion) flights timers since t) :
    Serves stage reached weight (.complete tag completion) flights timers since t
      (t.onCompletion stage tag completion).1 (t.onCompletion stage tag completion).2 := by
  have hstart : Cause.complete tag completion ≠ .start := by simp
  unfold onCompletion
  cases hp : t.session.pending? stage.scenario tag with
  | error fault =>
    refine h.idle hstart (h.stale hstart rfl fun p => by rw [hp]; simp)
      (fun due hdue => by cases hdue) rfl ?_
    intro hknown
    exact absurd (hknown tag rfl) (Session.pending?_error hp)
  | ok found =>
    cases found with
    | none =>
      exact h.idle hstart (h.stale hstart rfl fun p => by rw [hp]; simp)
        (fun due hdue => by cases hdue) rfl fun _ fault hf => by cases hf
    | some p =>
      obtain ⟨-, -, -, hbranch, b, hb, hw, hstep⟩ := Session.pending?_some hp
      have hplaces := Session.places_of_step hsc hstep
      have hsession := Session.onCursors_frame stage.scenario t.session p.operation.validators
        p.branch fun _ _ => .start
      have hsettles : ∀ f ∈ flights, ∀ body, f.fate = .pending body → f.tag = tag →
          f.operation = p.operation →
          t.session.Flies stage.scenario stage.phase t.requests f body →
          f.settles? stage.now (.complete tag completion) =
            some (.new (judge stage t.session p completion.outcome) (stage.now - f.since)) := by
        intro f _ body hbody hftag hoperation hflies
        rw [judge_eq hflies hoperation (by rw [hbranch, hftag])]
        simp [Flight.settles?, hftag, Flight.body?, hbody]
      obtain ⟨b, issued, hs⟩ := h.settles rfl hp hsettles
      simp only [onSession]
      rw [hsession]
      refine hs.serves hsc h (Session.typed_onCursors h.coherent.sound.typed _ _ _) ?_
      intro f hf body hflies hne v hv
      obtain ⟨id, step, r, -, hfstep, -⟩ := hflies.wait
      obtain ⟨hscope, hkind⟩ := (Session.places_of_step hsc hfstep).2 v hv
      exact Session.cursor?_onCursors_ne hplaces _ hscope hkind (.inl (by rw [hbranch]; exact hne))

section Timers

variable {due : Timer}

lemma Opens.timer_known (h : Opens stage reached weight (.timer due) flights timers since t) :
    t.session.Knows due.tag :=
  h.booked.timersKnown due List.mem_cons_self

lemma onDeadline_serves (hsc : stage.scenario.Sound reached weight) (hkind : due.kind = .deadline)
    (h : Opens stage reached weight (.timer due) flights timers since t) :
    Serves stage reached weight (.timer due) flights timers since t
      (t.onDeadline stage due.tag).1 (t.onDeadline stage due.tag).2 := by
  have hstart : Cause.timer due ≠ .start := by simp
  unfold onDeadline
  cases hp : t.session.pending? stage.scenario due.tag with
  | error fault => exact absurd h.timer_known (Session.pending?_error hp)
  | ok found =>
    cases found with
    | none =>
      have hstale := h.stale hstart rfl fun p => by rw [hp]; simp
      refine h.idle hstart hstale ?_ rfl fun _ fault hf => by cases hf
      intro due' hdue' k a op hk hop htag
      cases hdue'
      have halarm := h.alarm_of_timer rfl hk hop htag
      cases halarm with
      | deadline hs => exact hstale _ _ _ _ _ hk rfl
      | wake hs => cases hkind
    | some p =>
      have hsettles : ∀ f ∈ flights, ∀ body, f.fate = .pending body → f.tag = due.tag →
          f.operation = p.operation →
          t.session.Flies stage.scenario stage.phase t.requests f body →
          f.settles? stage.now (.timer due) = some (.new .timeout (stage.now - f.since)) := by
        intro f _ body hbody hftag _ _
        obtain ⟨time, tag, kind⟩ := due
        obtain rfl : kind = .deadline := hkind
        simp only [Flight.settles?]
        rw [if_pos hftag, Flight.body?, hbody, Option.map_some]
      obtain ⟨b, issued, hs⟩ := h.settles rfl hp hsettles
      exact hs.serves hsc h h.coherent.sound.typed fun _ _ _ _ _ _ _ => rfl

lemma Opens.wake_stale (h : Opens stage reached weight (.timer due) flights timers since t)
    (hkind : due.kind = .wake) (k id step op r : Nat)
    (hk : awaits t.session.branches k = some ⟨id, step, .operation op r⟩) :
    (Cause.timer due).tag? ≠ some (t.session.tag stage.phase k op) := by
  intro heq
  have halarm := h.alarm_of_timer rfl hk rfl (Option.some.inj heq).symm
  cases halarm with
  | deadline hs => cases hkind

lemma Opens.wake_quiet (h : Opens stage reached weight (.timer due) flights timers since t)
    (hkind : due.kind = .wake)
    (hwait : t.session.branches[due.tag.branch]?.map Branch.wait ≠ some (.delay due.tag.op))
    (due' : Timer) (hdue' : (Cause.timer due).timer? = some due') (k : Nat) (a : Await) (op : Nat)
    (hk : awaits t.session.branches k = some a) (hop : a.wait.number? = some op) :
    t.session.tag stage.phase k op ≠ due'.tag := by
  intro htag
  cases hdue'
  have halarm := h.alarm_of_timer rfl hk hop htag
  cases halarm with
  | deadline hs => cases hkind
  | wake hs =>
    obtain ⟨b, hb, -, -, hw⟩ := exists_of_awaits hk
    exact hwait (by simp only [Session.tag, hb, Option.map_some, hw])

lemma Opens.wakes (hsc : stage.scenario.Sound reached weight) (hkind : due.kind = .wake)
    (h : Opens stage reached weight (.timer due) flights timers since t)
    (hgeneration : due.tag.generation = t.session.generation) {b : Branch}
    (hb : t.session.branches[due.tag.branch]? = some b) (hw : b.wait = .delay due.tag.op) :
    Serves stage reached weight (.timer due) flights timers since t
      ((t.onBranch due.tag.branch .proceed).run stage).1
      ((t.onBranch due.tag.branch .proceed).run stage).2 := by
  have hawait := awaits_of_delay hb hw
  have hnone : b.proceed.await? = none := await?_of_runnable rfl
  obtain ⟨hphase, hslot⟩ := h.address due.tag rfl
  have htag := Tag.eq_of_parts hphase hslot hgeneration
  obtain ⟨-, hrecorded⟩ := h.unheard (h.wake_stale hkind)
  have hdrops := Session.Drops.of_set hb hnone .running t.session.arena
  have hleads : Leads stage (.timer due) flights t { t with session := { t.session with
      branches := t.session.branches.set due.tag.branch b.proceed, state := .running } } :=
    h.leads hrecorded rfl rfl rfl rfl rfl rfl
  obtain ⟨htree, hgrowth, htyped, hbelow, hdistinct⟩ := h.coherent.sound.proceed hb
    (by rw [← awaits_of_getElem? hb]; exact hawait) h.coherent.sound.typed
  rw [onBranch_eq hb]
  refine run_serves hsc ⟨⟨⟨htree, hgrowth, htyped, hbelow, hdistinct⟩, h.coherent.pool,
    h.coherent.keeps.drop_delay hdrops hawait⟩, .refl stage h.effects, ?_, h.clock, rfl⟩ hleads
  simp only [onSession, h.effects, fresh, issues_nil, schedules_nil, List.map_nil,
    List.append_nil]
  refine h.booked.drop hdrops hawait rfl h.coherent.sound.distinct (congrArg some htag) ?_
    (fun _ _ _ _ _ _ _ => rfl) (fun _ _ _ _ hr => hr) ?_ (List.sublist_append_right _ _)
  · intro f hf hftag
    cases hpending : f.isPending with
    | false =>
      rw [Flight.hear_of_not_pending hpending]
      exact hpending
    | true =>
      -- The number of a delay is that of no operation.
      obtain ⟨body, hbody⟩ := Flight.isPending_iff.mp hpending
      obtain ⟨-, r, hr⟩ := h.booked.branch_of_pending h.coherent.sound.distinct hawait rfl hf
        hbody (by rw [hftag]; rfl)
      cases hr
  · intro timer htimer hne
    rcases List.mem_cons.mp htimer with rfl | htimer
    · exact absurd rfl hne
    · exact htimer

lemma onWake_serves (hsc : stage.scenario.Sound reached weight) (hkind : due.kind = .wake)
    (h : Opens stage reached weight (.timer due) flights timers since t) :
    Serves stage reached weight (.timer due) flights timers since t
      (t.onWake stage due.tag).1 (t.onWake stage due.tag).2 := by
  have hstart : Cause.timer due ≠ .start := by simp
  have hstale := h.wake_stale hkind
  unfold onWake
  rw [Session.isCurrent_of_knows h.timer_known, h.live hstart, Bool.and_true]
  cases hgeneration : due.tag.generation == t.session.generation with
  | false =>
    rw [beq_eq_false_iff_ne] at hgeneration
    refine h.idle hstart hstale ?_ rfl fun _ fault hf => by cases hf
    intro due' hdue' k a op hk hop htag
    cases hdue'
    exact hgeneration (by rw [← htag]; rfl)
  | true =>
    rw [beq_iff_eq] at hgeneration
    simp only
    split
    · rename_i hwait
      obtain ⟨b, hb, hw⟩ := Option.map_eq_some_iff.mp hwait
      exact h.wakes hsc hkind hgeneration hb hw
    · rename_i hwait
      exact h.idle hstart hstale (h.wake_quiet hkind hwait) rfl fun _ fault hf => by cases hf

end Timers

lemma awaits_opening (sc : Scenario) (l : List Branch) (k : Nat) :
    awaits (l ++ sc.initial.map fun id => .new id none) k = awaits l k := by
  refine awaits_append_fresh (fun c hc => ?_) k
  obtain ⟨id, -, rfl⟩ := List.mem_map.mp hc
  rfl

lemma Coherent.opened (h : t.Coherent stage.scenario reached weight)
    (hsc : stage.scenario.Sound reached weight) (hvacant : t.session.branches = []) :
    ({ t with session := { t.session with
      branches := t.session.branches ++ stage.scenario.initial.map fun id => .new id none
      state := .running } } : Turn).Coherent stage.scenario reached weight := by
  have hawaits := awaits_opening stage.scenario t.session.branches
  refine ⟨⟨?_, ?_, h.sound.typed, ?_, ?_⟩, h.pool, ?_⟩
  · change Tree stage.scenario reached (t.session.branches ++ _)
    rw [hvacant, List.nil_append]
    exact Tree.opening hsc.budget
  · change growth stage.scenario weight (t.session.branches ++ _) ≤ _
    rw [hvacant, List.nil_append]
    exact (growth_new hsc.budget _ hsc.budget.initial none).le.trans hsc.budget.maxBranches.ge
  · intro k a op hk
    exact h.sound.below k a op ((hawaits k).symm.trans hk)
  · intro k k' a a' hk hk'
    exact h.sound.distinct k k' a a' ((hawaits k).symm.trans hk) ((hawaits k').symm.trans hk')
  · exact h.keeps.congr rfl rfl fun k id step op r => by
      change awaits (t.session.branches ++ _) k = _ ↔ _
      rw [hawaits]

lemma start_serves (hsc : stage.scenario.Sound reached weight)
    (h : Opens stage reached weight .start flights timers since t) :
    Serves stage reached weight .start flights timers since t (t.start stage).1
      (t.start stage).2 := by
  obtain ⟨hmap, hrecorded⟩ := h.unheard fun k id step op r _ => by simp [Cause.tag?]
  have hleads : Leads stage .start flights t { t with session := { t.session with
      branches := t.session.branches ++ stage.scenario.initial.map fun id => .new id none
      state := .running } } :=
    h.leads hrecorded rfl rfl rfl rfl rfl rfl
  unfold start
  refine run_serves hsc ⟨h.coherent.opened hsc (h.vacant rfl), .refl stage h.effects, ?_, h.clock,
    rfl⟩ hleads
  simp only [onSession, h.effects, fresh, issues_nil, schedules_nil, List.map_nil, List.append_nil]
  rw [hmap]
  exact h.booked.keep rfl rfl (Nat.le_refl _) (awaits_opening _ _) (fun _ _ => rfl)
    (fun _ _ _ hr => hr) fun _ _ => rfl

lemma terminate_serves (h : Opens stage reached weight .terminate flights timers since t) :
    Serves stage reached weight .terminate flights timers since t t.terminate.1 t.terminate.2 := by
  have hstart : Cause.terminate ≠ .start := by simp
  obtain ⟨hmap, hrecorded⟩ := h.unheard fun k id step op r _ => by simp [Cause.tag?]
  unfold terminate
  rw [if_pos (h.live hstart)]
  refine close_serves h.coherent.owns (.refl stage h.effects) ?_
    (h.leads hrecorded rfl rfl rfl rfl rfl rfl) .terminated fun hf => by cases hf
  simp only [h.effects, fresh, issues_nil, schedules_nil, List.map_nil, List.append_nil]
  rw [hmap]
  exact h.booked

/-- Every turn keeps its promises, whatever set it off. -/
theorem act_serves (hsc : stage.scenario.Sound reached weight)
    (h : Opens stage reached weight cause flights timers since t) :
    Serves stage reached weight cause flights timers since t (cause.act stage t).1
      (cause.act stage t).2 := by
  cases cause with
  | start => exact start_serves hsc h
  | data tag fragment => exact onData_serves hsc h
  | complete tag completion => exact onCompletion_serves hsc h
  | timer due =>
    cases hkind : due.kind with
    | deadline =>
      have hserves := onDeadline_serves hsc hkind h
      simp only [Cause.act, hkind]
      exact hserves
    | wake =>
      have hserves := onWake_serves hsc hkind h
      simp only [Cause.act, hkind]
      exact hserves
  | terminate => exact terminate_serves h

lemma act_of_unknown {tag : Tag} (htag : cause.tag? = some tag) (h : ¬ t.session.Knows tag) :
    ∃ fault, cause.act stage t = (t, .broken fault) := by
  have herror : ∃ fault, t.session.isCurrent tag = .error fault := by
    unfold Session.isCurrent
    rw [if_pos]
    · exact ⟨_, rfl⟩
    · unfold Session.Knows at h
      omega
  obtain ⟨fault, herror⟩ := herror
  have hpending : t.session.pending? stage.scenario tag = .error fault := by
    unfold Session.pending?
    rw [herror]
    rfl
  refine ⟨fault, ?_⟩
  cases cause with
  | start => cases htag
  | data _ fragment =>
    cases htag
    simp only [Cause.act, onData, hpending]
  | complete _ completion =>
    cases htag
    simp only [Cause.act, onCompletion, hpending]
  | timer due =>
    cases htag
    cases hkind : due.kind with
    | deadline => simp only [Cause.act, hkind, onTimer, onDeadline, hpending]
    | wake => simp only [Cause.act, hkind, onTimer, onWake, herror]
  | terminate => cases htag

end Turn

end LoadEngine
