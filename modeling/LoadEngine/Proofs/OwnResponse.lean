import LoadEngine.Proofs.CountedOnce

/-! The outcome that is recorded of an operation comes from its own response. Between its issue and
its end only the fragments that came with its tag are of any matter to it, in the order in which
they came. -/

namespace LoadEngine

def Cause.fragment (tag : Tag) : Cause → List UInt8
  | data tag' fragment => if tag' = tag then fragment else []
  | _ => []

/-- What turns one after the other have brought of it. -/
def response (tag : Tag) (visits : List Visit) : List UInt8 :=
  visits.flatMap fun v => v.cause.fragment tag

namespace Shard

/-- How a shard goes on from where it is, with the turns that are taken on the way. -/
inductive Goes (s : Shard) (l : Ledger) : List Visit → Shard → Ledger → Prop
  | here : Goes s l [] s l
  | prepare {s' : Shard} {l' : Ledger} {visits : List Visit} {phase : Nat} {d : Draft}
      {scenario : Scenario} (h : Goes s l visits s' l') (hphase : s'.lanes.get? phase = none)
      (hbuilt : d.build = .ok scenario) (name : String) (capacity : Nat) :
      Goes s l visits (s'.prepare phase name scenario capacity) l'
  | reset {s' : Shard} {l' : Ledger} {visits : List Visit} {phase : Nat} {lane : Lane}
      (h : Goes s l visits s' l') (hlane : s'.lanes.get? phase = some lane) :
      Goes s l visits (s'.collect phase true).1 (l'.reset phase)
  | turn {s' s₁ : Shard} {l' : Ledger} {visits : List Visit} {now : Nanos} {cause : Cause}
      {phase slot : Nat} (h : Goes s l visits s' l') (ha : Arises s' now cause phase slot s₁) :
      Goes s l (visits ++ [(s₁.turn now phase slot cause).2]) (s₁.turn now phase slot cause).1
        (l'.after (s₁.turn now phase slot cause).2)

/-- A branch of a live session waits for the operation of the tag. -/
def IsPending (s : Shard) (tag : Tag) : Prop :=
  ∃ lane session b r, s.lanes.get? tag.phase = some lane ∧
    lane.sessions.get? tag.slot = some session ∧ session.generation = tag.generation ∧
    session.branches[tag.branch]? = some b ∧ b.wait = .operation tag.op r

/-- In the turn the recorder of its phase was told of one end of an operation, and then only of the
operations that were issued. -/
def Records (s : Shard) (out : Shard × Visit) (metric : String) (sample : Sample) : Prop :=
  ∃ lane lane', s.lanes.get? out.2.phase = some lane ∧ out.1.lanes.get? out.2.phase = some lane' ∧
    lane'.recorder = (.sample metric sample ::
      (callsOf out.2.outputs).map fun x => .request x.1.metric).foldl Recorder.enter lane.recorder

end Shard

namespace Ledger

variable {l : Ledger} {v : Visit} {k : Nat} {f : Flight} {body : List UInt8}

lemma pending_of_after (hk : k < l.flights.length) (hf : (l.after v).flights[k]? = some f)
    (hbody : f.fate = .pending body) : ∃ g before, l.flights[k]? = some g ∧
      g.fate = .pending before ∧ body = before ++ v.cause.fragment f.tag ∧ f.tag = g.tag ∧
      f.operation = g.operation ∧ f.since = g.since := by
  obtain ⟨g, hg⟩ : ∃ g, l.flights[k]? = some g := ⟨_, List.getElem?_eq_getElem hk⟩
  rw [after_flights, List.getElem?_map, List.getElem?_append_left (by rwa [List.length_map]),
    List.getElem?_map, hg, Option.map_some, Option.map_some, Option.some.injEq] at hf
  -- had its session ended, it would not be pending
  have hheard : f = g.hear v.now v.cause := by
    rw [← hf]
    split
    · rename_i hown
      rw [if_pos hown] at hf
      cases hverdict : v.verdict with
      | ended how =>
        rw [hverdict] at hf
        simp only [Verdict.closes, Flight.forsake] at hf ⊢
        split
        · rename_i hpending
          rw [if_pos hpending] at hf
          rw [← hf] at hbody
          cases hbody
        · rfl
      | _ => rfl
    · rfl
  subst hheard
  have hopen : g.isPending = true := by
    by_contra hnot
    rw [Bool.not_eq_true] at hnot
    rw [Flight.hear_of_not_pending hnot] at hbody
    rw [Flight.isPending_iff.mpr ⟨body, hbody⟩] at hnot
    cases hnot
  obtain ⟨before, hbefore⟩ := Flight.isPending_iff.mp hopen
  refine ⟨g, before, hg, hbefore, ?_, Flight.hear_tag _ _ _, Flight.hear_operation _ _ _, ?_⟩
  · rw [Flight.hear_tag]
    simp only [Flight.hear, hbefore] at hbody
    cases hs : g.settles? v.now v.cause with
    | some sample =>
      rw [hs] at hbody
      cases hbody
    | none =>
      rw [hs] at hbody
      cases hbody
      cases v.cause with
      | data tag fragment =>
        simp only [Flight.gathers, Cause.fragment]
        by_cases htag : g.tag = tag
        · rw [if_pos htag, if_pos htag.symm]
        · rw [if_neg htag, if_neg (Ne.symm htag), List.append_nil]
      | _ => exact (List.append_nil _).symm
  · unfold Flight.hear
    split
    · split <;> rfl
    · rfl

lemma issued_after {n : Nat} {x : Operation BoundValidator × Tag} (l : Ledger)
    (hn : (callsOf v.outputs)[n]? = some x) :
    ∃ f, (l.after v).flights[l.flights.length + n]? = some f ∧ f.tag = x.2 ∧ f.operation = x.1 ∧
      f.since = v.now ∧ ∀ body, f.fate = .pending body → body = [] := by
  set f := Flight.new v.now x.1 x.2 with hnew
  have hf : (l.after v).flights[l.flights.length + n]? =
      some (if f.isOf v.phase v.slot then v.verdict.closes f else f) := by
    rw [after_flights, List.getElem?_map,
      List.getElem?_append_right (by rw [List.length_map]; omega), List.length_map,
      Nat.add_sub_cancel_left, List.getElem?_map, hn]
    rfl
  have hempty : ∀ body, f.fate = .pending body → body = [] := by
    intro body hbody
    cases hbody
    rfl
  refine ⟨_, hf, ?_⟩
  split
  · refine ⟨closes_tag _ _, Flight.closes_operation _ _, ?_⟩
    cases v.verdict with
    | ended how => exact ⟨rfl, fun body hbody => by cases hbody⟩
    | _ => exact ⟨rfl, hempty⟩
  · exact ⟨rfl, rfl, rfl, hempty⟩

end Ledger

namespace Shard

variable {s s' s₀ : Shard} {l l' : Ledger} {visits : List Visit} {now now₀ : Nanos}
  {cause cause₀ : Cause} {phase slot : Nat} {tag : Tag}

lemma Run.goes (h : Run s l) (hgoes : Goes s l visits s' l') : Run s' l' := by
  induction hgoes with
  | here => exact h
  | prepare _ hphase hbuilt name capacity ih => exact ih.prepare hphase hbuilt name capacity
  | reset _ hlane ih => exact ih.reset hlane
  | turn _ ha ih => exact ih.turn ha

lemma Goes.tags (h : Goes s l visits s' l') :
    l.flights.map Flight.tag <+: l'.flights.map Flight.tag := by
  induction h with
  | here => exact List.prefix_refl _
  | prepare _ _ _ _ _ ih => exact ih
  | reset _ _ ih => exact ih
  | turn _ _ ih =>
    rw [Ledger.after_tags]
    exact ih.trans (List.prefix_append _ _)

lemma Goes.pending (h : Goes s l visits s' l') {k : Nat} (hk : k < l.flights.length) {f : Flight}
    {body : List UInt8} (hf : l'.flights[k]? = some f) (hbody : f.fate = .pending body) :
    ∃ g before, l.flights[k]? = some g ∧ g.fate = .pending before ∧
      body = before ++ response f.tag visits ∧ f.tag = g.tag ∧ f.operation = g.operation ∧
      f.since = g.since := by
  induction h generalizing f body with
  | here => exact ⟨f, body, hf, hbody, (List.append_nil _).symm, rfl, rfl, rfl⟩
  | prepare _ _ _ _ _ ih => exact ih hf hbody
  | reset _ _ ih => exact ih hf hbody
  | turn hgoes _ ih =>
    have hlength := hgoes.tags.length_le
    rw [List.length_map, List.length_map] at hlength
    obtain ⟨g, before, hg, hbefore, rfl, htag, hoperation, hsince⟩ :=
      Ledger.pending_of_after (hk.trans_le hlength) hf hbody
    obtain ⟨g₀, before₀, hg₀, hbefore₀, rfl, htag₀, hoperation₀, hsince₀⟩ := ih hg hbefore
    refine ⟨g₀, before₀, hg₀, hbefore₀, ?_, htag.trans htag₀, hoperation.trans hoperation₀,
      hsince.trans hsince₀⟩
    rw [response, response, List.flatMap_append, List.flatMap_singleton, htag, List.append_assoc]

lemma Books.flight_of_isPending (h : Books s l) (hpending : s.IsPending tag) :
    ∃ f ∈ l.flights, f.tag = tag ∧ ∃ body, f.fate = .pending body := by
  obtain ⟨lane, session, b, r, hlane, hs, hgeneration, hb, hw⟩ := hpending
  obtain ⟨_, _, hbooks⟩ := h.lanes _ lane hlane
  have hplaced := hbooks.placed _ session (Pool.get?_eq_some.mp hs).2
  obtain ⟨f, hf, htag, hopen⟩ := hplaced.booked.flown _ _ _ _ r (Turn.awaits_of_request hb hw)
  refine ⟨f, (Ledger.mem_of.mp hf).1, ?_, Flight.isPending_iff.mp hopen⟩
  rw [htag, Session.tag, hplaced.slot, hgeneration]

lemma Books.records (h : Books s l) (ha : Arises s now cause phase slot s₀) {f : Flight}
    (hf : f ∈ l.flights) (htag : cause.tag? = some f.tag) {sample : Sample}
    (hsample : f.settles? now cause = some sample) :
    s₀.Records (s₀.turn now phase slot cause) f.operation.metric sample := by
  obtain ⟨hphase, hslot⟩ := ha.address f.tag htag
  obtain ⟨lane, hlane⟩ : ∃ lane, s₀.lanes.get? phase = some lane :=
    ha.exists_lane (hphase ▸ h.flights f hf)
  obtain ⟨⟨_, _, hbooks⟩, -⟩ := h.arises ha hlane
  obtain ⟨_, _, lane', effects, outputs, verdict, s', hdriven, hturned, hturn⟩ := h.driven ha hlane
  have hown : f ∈ l.of phase slot := Ledger.mem_of.mpr ⟨hf, hphase, hslot⟩
  have hops : ((l.of phase slot).map fun f => f.tag.op).Nodup := by
    cases hitem : lane.sessions.item? slot with
    | none =>
      have hblank : l.of phase slot = [] := hbooks.blank slot hitem
      rw [hblank]
      exact .nil
    | some session => exact (hbooks.placed slot session hitem).booked.flightOps
  have htold : (l.of phase slot).filterMap (Flight.recording? now cause) =
      [.sample f.operation.metric sample] := by
    refine filterMap_eq_singleton hops hown ?_ fun g _ hne => ?_
    · simp only [Flight.recording?, hsample, Option.map_some]
    · have hother : cause.tag? ≠ some g.tag := by
        rw [htag]
        exact fun heq => hne (by rw [Option.some.inj heq])
      simp only [Flight.recording?, (Flight.hear_of_ne hother).2, Option.map_none]
  rw [hturn]
  refine ⟨lane, lane', hlane, ?_, ?_⟩
  · simp only [hturned.lanes, OrderedMap.get?_insert_self]
  · have hrecorder := hdriven.recorder
    simp only [page, Ledger.clock] at hrecorder
    rw [hrecorder, hturned.calls]
    exact congrArg
      (fun told => (told ++ requestsOf effects).foldl Recorder.enter lane.recorder) htold

lemma Run.flight_since (h : Run s l) (ha : Arises s now₀ cause₀ phase slot s₀)
    {operation : Operation BoundValidator}
    (hcall : (operation, tag) ∈ callsOf (s₀.turn now₀ phase slot cause₀).2.outputs)
    (hgoes : Goes (s₀.turn now₀ phase slot cause₀).1 (l.after (s₀.turn now₀ phase slot cause₀).2)
      visits s' l') (hpending : s'.IsPending tag) :
    ∃ f ∈ l'.flights, f.tag = tag ∧ f.operation = operation ∧ f.since = now₀ ∧
      f.fate = .pending (response tag visits) := by
  have hrun : Run s' l' := (h.turn ha).goes hgoes
  obtain ⟨f, hf, rfl, body, hbody⟩ := hrun.books.flight_of_isPending hpending
  obtain ⟨k, hk⟩ := List.mem_iff_getElem?.mp hf
  obtain ⟨n, hn⟩ := List.mem_iff_getElem?.mp hcall
  obtain ⟨g, hg, hgtag, hgoperation, hgsince, hgbody⟩ := l.issued_after hn
  -- the place that it got when it was issued is the one that it has
  have hplace : l.flights.length + n = k := by
    have hbefore := congrArg (Option.map Flight.tag) hg
    rw [← List.getElem?_map, Option.map_some, hgtag] at hbefore
    have hafter := getElem?_of_prefix hgoes.tags hbefore
    have hend : (l'.flights.map Flight.tag)[k]? = some f.tag := by
      rw [List.getElem?_map, hk, Option.map_some]
    exact (List.getElem?_inj (List.getElem?_eq_some_iff.mp hafter).1 hrun.books.tags_nodup).mp
      (hafter.trans hend.symm)
  subst hplace
  obtain ⟨g', before, hg', hbefore, rfl, -, hoperation, hsince⟩ :=
    hgoes.pending (List.getElem?_eq_some_iff.mp hg).1 hk hbody
  rw [hg, Option.some.injEq] at hg'
  subst hg'
  obtain rfl := hgbody before hbefore
  exact ⟨f, hf, rfl, hoperation.trans hgoperation, hsince.trans hgsince, hbody⟩

/-- The outcome that is recorded of an operation is the verdict on its own response, if a plugin
completes it while it is pending, and a timeout, if its deadline comes first. -/
theorem Run.outcome_of_response (h : Run s l) (ha : Arises s now₀ cause₀ phase slot s₀)
    {operation : Operation BoundValidator}
    (hcall : (operation, tag) ∈ callsOf (s₀.turn now₀ phase slot cause₀).2.outputs)
    (hgoes : Goes (s₀.turn now₀ phase slot cause₀).1 (l.after (s₀.turn now₀ phase slot cause₀).2)
      visits s' l') (hpending : s'.IsPending tag) :
    (∀ (now : Nanos) (completion : Completion),
      s'.Records (s'.turn now tag.phase tag.slot (.complete tag completion)) operation.metric
        (.new (operation.verdict (response tag visits) completion) (now - now₀))) ∧
    ∀ (now : Nanos) (due : Timer) (timers : Timers), s'.timers.popDue? now = some (due, timers) →
      due.tag = tag → due.kind = .deadline →
      s'.Records ({ s' with timers }.turn now tag.phase tag.slot (.timer due)) operation.metric
        (.new .timeout (now - now₀)) := by
  obtain ⟨f, hf, htag, rfl, rfl, hbody⟩ := h.flight_since ha hcall hgoes hpending
  have hbooks : Books s' l' := ((h.turn ha).goes hgoes).books
  constructor
  · intro now completion
    refine hbooks.records (.complete tag completion) hf (congrArg some htag.symm) ?_
    simp [Flight.settles?, Flight.body?, htag, hbody]
  · rintro now ⟨time, tag', kind⟩ timers hdue rfl rfl
    refine hbooks.records (.timer hdue) hf (congrArg some htag.symm) ?_
    simp [Flight.settles?, Flight.body?, htag, hbody]

end Shard

lemma errandHeard_isPending : errandHeard.1.IsPending ⟨0, 0, 0, 0, 0⟩ := by
  have hwaits : ((errandHeard.1.lanes.get? 0).bind fun lane => (lane.sessions.get? 0).bind
      fun session => session.branches[0]?.map fun b => (session.generation, b.wait)) =
        some (0, .operation 0 0) := by decide +kernel
  obtain ⟨lane, hlane, hwaits⟩ := Option.bind_eq_some_iff.mp hwaits
  obtain ⟨session, hs, hwaits⟩ := Option.bind_eq_some_iff.mp hwaits
  obtain ⟨b, hb, hwaits⟩ := Option.map_eq_some_iff.mp hwaits
  obtain ⟨hgeneration, hw⟩ := Prod.mk.inj hwaits
  exact ⟨lane, session, b, 0, hlane, hs, hgeneration, hb, hw⟩

theorem errandHeard_outcome : errandShard.Run .empty ∧
    errandShard.Arises 0 .start 0 0 (errandShard.acquire 0).2 ∧
    errandHeard.1.IsPending ⟨0, 0, 0, 0, 0⟩ ∧
    errandHeard.1.Records (errandHeard.1.turn 4 0 0 (.complete ⟨0, 0, 0, 0, 0⟩ .success)) "get"
      (.new .success 4) := by
  have hready : errandShard.Run .empty :=
    .prepare (.new 0 (.empty .default)) rfl errand_built "errand" 2
  have hslot : (errandShard.acquire 0).1 = some 0 := by decide +kernel
  have harises : errandShard.Arises 0 .start 0 0 (errandShard.acquire 0).2 :=
    .start (Prod.ext hslot rfl)
  have hgoes : errandBegun.1.Goes (.after .empty errandBegun.2) [errandHeard.2] errandHeard.1
      (.after (.after .empty errandBegun.2) errandHeard.2) :=
    .turn .here (.data ⟨0, 0, 0, 0, 0⟩ [98])
  have hcalls : ("get", ⟨0, 0, 0, 0, 0⟩, .success) ∈ (callsOf errandBegun.2.outputs).map fun x =>
      (x.1.metric, x.2, x.1.verdict (response ⟨0, 0, 0, 0, 0⟩ [errandHeard.2]) .success) := by
    decide +kernel
  obtain ⟨⟨operation, tag⟩, hcall, heq⟩ := List.mem_map.mp hcalls
  obtain ⟨hmetric, rfl, hverdict⟩ : operation.metric = "get" ∧ tag = ⟨0, 0, 0, 0, 0⟩ ∧
      operation.verdict (response ⟨0, 0, 0, 0, 0⟩ [errandHeard.2]) .success = .success := by
    simpa using heq
  obtain ⟨hcomplete, -⟩ :=
    Shard.Run.outcome_of_response hready harises hcall hgoes errandHeard_isPending
  have hrecords := hcomplete 4 .success
  rw [hmetric, hverdict] at hrecords
  exact ⟨hready, harises, errandHeard_isPending, hrecords⟩

end LoadEngine
