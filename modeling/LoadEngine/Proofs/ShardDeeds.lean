import LoadEngine.Proofs.ShardRun

/-! What a shard can be made to do, as sequences of turns. From outside it is told commands and
events, and that time has passed; whatever it does then is a turn of a session after the other. -/

namespace LoadEngine

inductive Deed where
  | command (command : Command)
  | event (event : Event)
  /-- Fires the timers that are due. -/
  | timers

def Event.tag : Event → Tag
  | data tag _ | complete tag _ => tag

def Deed.tag? : Deed → Option Tag
  | event e => some e.tag
  | _ => none

def Output.fault? : Output → Option ContractViolation
  | notice (.fault _ cause) => some cause
  | _ => none

def faultsOf (outputs : List Output) : List ContractViolation := outputs.filterMap Output.fault?

lemma faultsOf_append (a b : List Output) : faultsOf (a ++ b) = faultsOf a ++ faultsOf b :=
  List.filterMap_append

lemma callsOf_append (a b : List Output) : callsOf (a ++ b) = callsOf a ++ callsOf b :=
  List.filterMap_append

namespace Shard

def perform (s : Shard) (now : Nanos) : Deed → Shard × List Output
  | .command command => s.handleCommand now command
  | .event event => s.handleEvent now event
  | .timers => s.fireTimers now

/-- One turn after the other. -/
inductive Course : Shard → List Visit → Shard → Prop
  | nil (s : Shard) : Course s [] s
  | cons {s s₁ s' : Shard} {now : Nanos} {cause : Cause} {phase slot : Nat} {visits : List Visit}
      (h : Arises s now cause phase slot s₁)
      (rest : Course (s₁.turn now phase slot cause).1 visits s') :
      Course s ((s₁.turn now phase slot cause).2 :: visits) s'

variable {s s₁ s' s'' : Shard} {l : Ledger} {now : Nanos} {cause : Cause} {phase slot : Nat}
  {visits visits' : List Visit} {outputs outputs' : List Output} {told : Option Tag}

lemma Course.append (h : Course s visits s') (h' : Course s' visits' s'') :
    Course s (visits ++ visits') s'' := by
  induction h with
  | nil => exact h'
  | cons ha _ ih => exact .cons ha (ih h')

lemma Run.course (h : Run s l) (hc : Course s visits s') :
    Run s' (visits.foldl Ledger.after l) := by
  induction hc generalizing l with
  | nil => exact h
  | cons ha _ ih => exact ih (h.turn ha)

lemma Run.course_keeps (h : Run s l) (hc : Course s visits s') : Keeps s s' := by
  induction hc generalizing l with
  | nil => exact .refl _
  | cons ha _ ih => exact (h.books.turn_keeps ha).trans (ih (h.turn ha))

structure Plays (told : Option Tag) (s : Shard) (visits : List Visit) (s' : Shard)
    (outputs : List Output) : Prop where
  course : Course s visits s'
  calls : callsOf outputs = visits.flatMap fun v => callsOf v.outputs
  faults : ∀ fault ∈ faultsOf outputs, ∃ v ∈ visits, v.verdict = .broken fault
  told : ∀ v ∈ visits, v.cause.told? = told

lemma Plays.quiet (told : Option Tag) (s : Shard) (hcalls : callsOf outputs = [])
    (hfaults : faultsOf outputs = []) : Plays told s [] s outputs where
  course := .nil s
  calls := hcalls
  faults fault hf := by rw [hfaults] at hf; cases hf
  told v hv := by cases hv

lemma Plays.trans (h : Plays told s visits s' outputs) (h' : Plays told s' visits' s'' outputs') :
    Plays told s (visits ++ visits') s'' (outputs ++ outputs') where
  course := h.course.append h'.course
  calls := by rw [callsOf_append, h.calls, h'.calls, List.flatMap_append]
  faults fault hf := by
    rw [faultsOf_append, List.mem_append] at hf
    rcases hf with hf | hf
    · obtain ⟨v, hv, hverdict⟩ := h.faults fault hf
      exact ⟨v, List.mem_append_left _ hv, hverdict⟩
    · obtain ⟨v, hv, hverdict⟩ := h'.faults fault hf
      exact ⟨v, List.mem_append_right _ hv, hverdict⟩
  told v hv := by
    rcases List.mem_append.mp hv with hv | hv
    · exact h.told v hv
    · exact h'.told v hv

lemma carryOut_faults (s : Shard) (effects : List Effect) :
    faultsOf (s.carryOut effects).2 = [] := by
  refine List.filterMap_eq_nil_iff.mpr fun o ho => ?_
  obtain rfl | ⟨operation, tag, rfl⟩ := s.carryOut_outputs effects o ho <;> rfl

lemma turn_faultsOf (s : Shard) (now : Nanos) (phase slot : Nat) (cause : Cause) :
    faultsOf (s.turn now phase slot cause).2.outputs = [] := by
  unfold turn drive
  cases s.lanes.get? phase with
  | none => rfl
  | some lane => exact carryOut_faults _ _

lemma Plays.turn (ha : Arises s now cause phase slot s₁) (htold : cause.told? = told)
    (outputs : List Output) (hcalls : callsOf outputs = [])
    (hfaults : ∀ fault ∈ faultsOf outputs,
      (s₁.turn now phase slot cause).2.verdict = .broken fault) :
    Plays told s [(s₁.turn now phase slot cause).2] (s₁.turn now phase slot cause).1
      ((s₁.turn now phase slot cause).2.outputs ++ outputs) where
  course := .cons ha (.nil _)
  calls := by
    rw [callsOf_append, hcalls, List.append_nil, List.flatMap_singleton]
  faults fault hf := by
    rw [faultsOf_append, turn_faultsOf, List.nil_append] at hf
    exact ⟨_, List.mem_singleton.mpr rfl, hfaults fault hf⟩
  told v hv := by
    rw [List.mem_singleton.mp hv]
    exact htold

lemma visit_plays (ha : Arises s now cause phase slot s₁) (htold : cause.told? = told) :
    ∃ visits, Plays told s visits (s₁.visit now phase slot cause.act).1
      (s₁.visit now phase slot cause.act).2 := by
  refine ⟨_, Plays.turn ha htold (announce (s₁.turn now phase slot cause).1 phase
    (s₁.turn now phase slot cause).2.verdict) ?_ ?_⟩
  · cases (s₁.turn now phase slot cause).2.verdict <;> rfl
  · intro fault hf
    cases hverdict : (s₁.turn now phase slot cause).2.verdict with
    | broken cause =>
      rw [hverdict] at hf
      rw [List.mem_singleton.mp hf]
    | _ =>
      rw [hverdict] at hf
      cases hf

lemma data_plays (s : Shard) (now : Nanos) (tag : Tag) (fragment : List UInt8) : ∃ visits,
    Plays (some tag) s visits (s.handleEvent now (.data tag fragment)).1
      (s.handleEvent now (.data tag fragment)).2 := by
  have harises : Arises s now (.data tag fragment) tag.phase tag.slot s := .data tag fragment
  have hplays := visit_plays harises rfl
  simpa only [handleEvent, Cause.act, Cause.told?] using hplays

lemma complete_plays (s : Shard) (now : Nanos) (tag : Tag) (completion : Completion) : ∃ visits,
    Plays (some tag) s visits (s.handleEvent now (.complete tag completion)).1
      (s.handleEvent now (.complete tag completion)).2 := by
  have harises : Arises s now (.complete tag completion) tag.phase tag.slot s :=
    .complete tag completion
  have hplays := visit_plays harises rfl
  simpa only [handleEvent, Cause.act, Cause.told?] using hplays

lemma plays_prevails : Prevails fun s outputs s' => ∃ visits, Plays none s visits s' outputs where
  refl s := ⟨[], .quiet none s rfl rfl⟩
  trans := by
    rintro s s' s'' a b ⟨visits, h⟩ ⟨visits', h'⟩
    exact ⟨visits ++ visits', h.trans h'⟩
  ends s now phase slot := by
    have harises : Arises s now .terminate phase slot s := .terminate phase slot
    have hplays := visit_plays harises rfl
    exact hplays
  fires {s now due timers} hp := by
    have harises : Arises s now (.timer due) due.tag.phase due.tag.slot { s with timers } :=
      .timer hp
    have hplays := visit_plays harises rfl
    exact hplays

lemma acquire_plays (ha : s.acquire phase = (some slot, s₁)) (now : Nanos) : ∃ visits,
    Plays none s visits (s₁.drive now phase slot Turn.start).1
      ((s₁.drive now phase slot Turn.start).2.1 ++
        (s₁.drive now phase slot Turn.start).1.blame (s₁.drive now phase slot Turn.start).2.2) := by
  have harises : Arises s now .start phase slot s₁ := .start ha
  refine ⟨_, Plays.turn harises rfl _ ?_ ?_⟩
  · cases (s₁.drive now phase slot Turn.start).2.2 <;> rfl
  · intro fault hf
    change (s₁.drive now phase slot Turn.start).2.2 = .broken fault
    cases hverdict : (s₁.drive now phase slot Turn.start).2.2 with
    | broken cause =>
      rw [hverdict] at hf
      rw [List.mem_singleton.mp hf]
    | _ =>
      rw [hverdict] at hf
      cases hf

lemma start_plays (s : Shard) (now : Nanos) (phase count : Nat) : ∃ visits,
    Plays none s visits (s.start now phase count).1 (s.start now phase count).2 := by
  obtain ⟨outputs, houtputs, visits, hplays⟩ :=
    plays_prevails.launch now phase (fun ha => acquire_plays ha now) count ⟨s, [], 0, 0, []⟩
  unfold start
  simp only [houtputs, List.nil_append]
  generalize launch now phase count ⟨s, [], 0, 0, []⟩ = w at hplays
  have hcalls : callsOf (.notice (.started phase s.id w.started w.blocked) ::
      w.ends.map fun how => .notice (.ended phase s.id how)) = [] := by
    refine List.filterMap_eq_nil_iff.mpr fun o ho => ?_
    rcases List.mem_cons.mp ho with rfl | ho
    · rfl
    · obtain ⟨how, -, rfl⟩ := List.mem_map.mp ho
      rfl
  have hfaults : faultsOf (.notice (.started phase s.id w.started w.blocked) ::
      w.ends.map fun how => .notice (.ended phase s.id how)) = [] := by
    refine List.filterMap_eq_nil_iff.mpr fun o ho => ?_
    rcases List.mem_cons.mp ho with rfl | ho
    · rfl
    · obtain ⟨how, -, rfl⟩ := List.mem_map.mp ho
      rfl
  have hquiet := hplays.trans (.quiet none w.shard hcalls hfaults)
  exact ⟨_, hquiet⟩

/-- What a shard can be made to do is to prepare a phase, to forget what was recorded of one, or to
let its sessions take turns. -/
inductive Performs (s : Shard) : Deed → Shard × List Output → Prop
  | prepare (phase : Nat) (name : String) (scenario : Scenario) (capacity : Nat) :
      Performs s (.command (.prepare phase name scenario capacity))
        (s.prepare phase name scenario capacity, [])
  | reset {phase : Nat} {lane : Lane} (hlane : s.lanes.get? phase = some lane)
      (snapshot : PhaseSnapshot) :
      Performs s (.command (.collect phase true))
        ((s.collect phase true).1, [.snapshot phase snapshot])
  | plays {deed : Deed} {visits : List Visit} {s' : Shard} {outputs : List Output}
      (h : Plays deed.tag? s visits s' outputs) : Performs s deed (s', outputs)

lemma perform_performs (s : Shard) (now : Nanos) (deed : Deed) :
    Performs s deed (s.perform now deed) := by
  cases deed with
  | command c =>
    cases c with
    | prepare phase name scenario capacity =>
      simp only [perform, handleCommand]
      split
      · exact .prepare phase name scenario capacity
      · exact .plays (.quiet _ s rfl rfl)
    | start phase count =>
      obtain ⟨visits, h⟩ := s.start_plays now phase count
      exact .plays h
    | terminate phase =>
      obtain ⟨visits, h⟩ := plays_prevails.terminate s now phase
      exact .plays h
    | collect phase reset =>
      cases hlane : s.lanes.get? phase with
      | none =>
        have hcollect : s.perform now (.command (.collect phase reset)) =
            (s, [.snapshot phase .empty]) := by
          simp only [perform, handleCommand, collect, hlane]
        rw [hcollect]
        exact .plays (.quiet _ s rfl rfl)
      | some lane =>
        cases reset with
        | true => exact .reset hlane _
        | false =>
          have hcollect : s.perform now (.command (.collect phase false)) =
              (s, [.snapshot phase lane.snapshot]) := by
            simp only [perform, handleCommand, collect, hlane]
            rfl
          rw [hcollect]
          exact .plays (.quiet _ s rfl rfl)
    | shutdown =>
      obtain ⟨visits, h⟩ := plays_prevails.terminateAll s now
      exact .plays h
  | event e =>
    cases e with
    | data tag fragment =>
      obtain ⟨visits, h⟩ := s.data_plays now tag fragment
      exact .plays h
    | complete tag completion =>
      obtain ⟨visits, h⟩ := s.complete_plays now tag completion
      exact .plays h
  | timers =>
    obtain ⟨visits, h⟩ := plays_prevails.fire s now (s.timers.size + s.effort)
    exact .plays h

end Shard

/-- What can be asked of a shard: a phase is prepared once and for a scenario that was built, and
what a plugin has to say is about an operation that was handed to it. -/
def Deed.Allowed (s : Shard) (tags : List Tag) : Deed → Prop
  | command (.prepare phase _ scenario _) =>
    s.lanes.get? phase = none ∧ ∃ d : Draft, d.build = .ok scenario
  | command _ | timers => True
  | event e => e.tag ∈ tags

namespace Shard

variable {s s' : Shard} {l : Ledger} {now : Nanos} {visits : List Visit} {tags : List Tag}
  {deed : Deed} {fault : ContractViolation}

lemma handed_after {v : Visit} {cause : Cause} (h : cause.Handed l) : cause.Handed (l.after v) := by
  intro tag htag
  obtain ⟨f, hf, rfl⟩ := h tag htag
  have hmem : f.tag ∈ (l.after v).flights.map Flight.tag := by
    rw [Ledger.after_tags]
    exact List.mem_append_left _ (List.mem_map_of_mem hf)
  obtain ⟨g, hg, htag⟩ := List.mem_map.mp hmem
  exact ⟨g, hg, htag⟩

lemma Run.course_faults (h : Run s l) (hc : Course s visits s')
    (hhanded : ∀ v ∈ visits, v.cause.Handed l) {v : Visit} (hv : v ∈ visits)
    (hfault : v.verdict = .broken fault) :
    ∃ phase lane, s'.lanes.get? phase = some lane ∧
      fault = .requestOverflow phase (Pool.numbered lane.requests.asked) ∧
        2 ^ 32 ≤ lane.requests.asked := by
  induction hc generalizing l with
  | nil => cases hv
  | @cons s s₁ s' now cause phase slot visits ha rest ih =>
    rcases List.mem_cons.mp hv with rfl | hv
    · obtain ⟨lane, hlane, hfull, hlarge⟩ :=
        h.books.turn_faults ha (hhanded _ List.mem_cons_self) hfault
      obtain ⟨lane', hlane', -, hasked⟩ := (h.turn ha).course_keeps rest phase lane hlane
      rw [← hasked] at hfull hlarge
      exact ⟨phase, lane', hlane', hfull, hlarge⟩
    · exact ih (h.turn ha) (fun w hw => handed_after (hhanded w (List.mem_cons_of_mem _ hw))) hv

lemma course_tags (visits : List Visit) (l : Ledger) :
    (visits.foldl Ledger.after l).flights.map Flight.tag =
      l.flights.map Flight.tag ++ (visits.flatMap fun v => callsOf v.outputs).map Prod.snd := by
  induction visits generalizing l with
  | nil => simp
  | cons v rest ih =>
    rw [List.foldl_cons, ih, Ledger.after_tags, List.flatMap_cons, List.map_append,
      List.append_assoc]

/-- Whatever a shard is made to do is a run of turns, and the books go on. -/
theorem Run.perform (h : Run s l) (now : Nanos)
    (hallowed : deed.Allowed s (l.flights.map Flight.tag)) :
    (∃ l', Run (s.perform now deed).1 l' ∧ l'.flights.map Flight.tag =
      l.flights.map Flight.tag ++ (callsOf (s.perform now deed).2).map Prod.snd) ∧
    ∀ fault ∈ faultsOf (s.perform now deed).2, ∃ phase lane,
      (s.perform now deed).1.lanes.get? phase = some lane ∧
        fault = .requestOverflow phase (Pool.numbered lane.requests.asked) ∧
          2 ^ 32 ≤ lane.requests.asked := by
  have hperforms := s.perform_performs now deed
  generalize s.perform now deed = out at hperforms
  cases hperforms with
  | prepare phase name scenario capacity =>
    obtain ⟨hphase, d, hbuilt⟩ := hallowed
    exact ⟨⟨l, h.prepare hphase hbuilt name capacity, (List.append_nil _).symm⟩,
      fun fault hf => by cases hf⟩
  | reset hlane snapshot =>
    exact ⟨⟨_, h.reset hlane, (List.append_nil _).symm⟩, fun fault hf => by cases hf⟩
  | @plays deed visits s' outputs hplays =>
    refine ⟨⟨_, h.course hplays.course, ?_⟩, ?_⟩
    · rw [course_tags, hplays.calls]
    · intro fault hf
      obtain ⟨v, hv, hverdict⟩ := hplays.faults fault hf
      refine h.course_faults hplays.course ?_ hv hverdict
      intro w hw tag htag
      rw [hplays.told w hw] at htag
      cases deed with
      | event e =>
        cases htag
        obtain ⟨f, hf, htag⟩ := List.mem_map.mp hallowed
        exact ⟨f, hf, htag⟩
      | command c => cases htag
      | timers => cases htag

/-- The states that a shard can come to when all that is asked of it is allowed, and the tags of the
operations that it has handed to plugins. -/
inductive Reaches : Shard → List Tag → Prop
  | new (id : Nat) (template : Recorder) : Reaches (.new id template) []
  | perform {s : Shard} {tags : List Tag} (h : Reaches s tags) (now : Nanos) (deed : Deed)
      (hallowed : deed.Allowed s tags) :
      Reaches (s.perform now deed).1 (tags ++ (callsOf (s.perform now deed).2).map Prod.snd)

lemma Reaches.run (h : Reaches s tags) : ∃ l, Run s l ∧ l.flights.map Flight.tag = tags := by
  induction h with
  | new id template => exact ⟨.empty, .new id template, rfl⟩
  | perform h now deed hallowed ih =>
    obtain ⟨l, hrun, rfl⟩ := ih
    obtain ⟨⟨l', hrun', htags⟩, -⟩ := hrun.perform now hallowed
    exact ⟨l', hrun', htags⟩

end Shard

/-- The session slots that are held are those of live sessions, and the request slots that are held
are just those of the operations that these wait for. -/
structure Lane.Consistent (lane : Lane) : Prop where
  live : ∀ slot session, lane.sessions.item? slot = some session →
    (lane.sessions.isAcquired slot = true ↔ session.state.isLive = true)
  kept : ∀ (slot : Nat) (session : Session) (k : Nat) (b : Branch) (op r : Nat),
    lane.sessions.get? slot = some session →
    session.branches[k]? = some b → b.wait = .operation op r →
    ∃ since, lane.requests.get? r = some ⟨some slot, session.generation, op, some since⟩
  owned : ∀ r record, lane.requests.get? r = some record → ∃! p : Nat × Nat,
    ∃ session : Session, ∃ b : Branch, lane.sessions.get? p.1 = some session ∧
      session.branches[p.2]? = some b ∧ b.wait = .operation record.op r ∧
      record.session = some p.1 ∧ record.generation = session.generation

lemma Lane.Books.pools_agree {phase : Nat} {reached : Nat → Prop} {weight : Nat → Nat}
    {pages : Nat → Page} {lane : Lane} (h : lane.Books phase reached weight pages none) :
    lane.Consistent where
  live slot session hs := by
    rw [h.live slot session hs]
    simp
  kept slot session k b op r hs hb hw := by
    obtain ⟨-, hitem⟩ := Pool.get?_eq_some.mp hs
    have hplaced := h.placed slot session hitem
    obtain ⟨since, hr⟩ := hplaced.keeps.kept k _ _ op r (Turn.awaits_of_request hb hw)
    rw [hplaced.slot] at hr
    exact ⟨since, hr⟩
  owned r record hr := by
    obtain ⟨slot, hslot, hheld⟩ := h.owners r record hr
    obtain ⟨session, hs⟩ := Pool.isAcquired_iff.mp hheld
    obtain ⟨-, hitem⟩ := Pool.get?_eq_some.mp hs
    have hplaced := h.placed slot session hitem
    obtain ⟨k, id, step, hk⟩ := hplaced.keeps.owned r record hr (by rw [hplaced.slot]; exact hslot)
    obtain ⟨b, hb, -, -, hw⟩ := Turn.exists_of_awaits hk
    have hgeneration : record.generation = session.generation := by
      obtain ⟨since, hkept⟩ := hplaced.keeps.kept k id step record.op r hk
      rw [hr, Option.some.injEq] at hkept
      exact congrArg Request.generation hkept
    refine ⟨(slot, k), ⟨session, b, hs, hb, hw, hslot, hgeneration⟩, ?_⟩
    rintro ⟨slot', k'⟩ ⟨session', b', hs', hb', hw', hslot', -⟩
    obtain ⟨-, hitem'⟩ := Pool.get?_eq_some.mp hs'
    have hplaced' := h.placed slot' session' hitem'
    obtain rfl : slot' = slot := Option.some.inj (hslot'.symm.trans hslot)
    rw [hs, Option.some.injEq] at hs'
    subst hs'
    rw [hplaced.sound.distinct k' k _ _ (Turn.awaits_of_request hb' hw') hk rfl]

/-- The engine keeps its own contract. Whatever is asked of a shard, its pools agree with its
sessions; and no fault is reported but the want of a request slot, in a phase that asked for more of
them than can be numbered. -/
theorem Shard.Reaches.consistent {s : Shard} {tags : List Tag} (h : s.Reaches tags) :
    (∀ phase lane, s.lanes.get? phase = some lane → lane.Consistent) ∧
    ∀ (now : Nanos) (deed : Deed), deed.Allowed s tags → ∀ fault ∈ faultsOf (s.perform now deed).2,
      ∃ phase lane, (s.perform now deed).1.lanes.get? phase = some lane ∧
        fault = .requestOverflow phase (Pool.numbered lane.requests.asked) ∧
          2 ^ 32 ≤ lane.requests.asked := by
  obtain ⟨l, hrun, rfl⟩ := h.run
  constructor
  · intro phase lane hlane
    obtain ⟨_, _, hbooks⟩ := hrun.books.lanes phase lane hlane
    exact hbooks.pools_agree
  · intro now deed hallowed
    exact (hrun.perform now hallowed).2

def errandAsk : Operation Search.Validator :=
  { Operation.simple (ν := Search.Validator) "p" "get" with
    validators := [.new #[98] (.atLeast 1)] }

/-- An operation with a validator, and then a rest in a branch of its own that is waited for. -/
def errandDraft : Draft where
  initial := ["ask"]
  sequences := [
    ⟨"ask", [.operation errandAsk, .fork ["rest"], .join]⟩,
    ⟨"rest", [.delay 5]⟩]

def errand : Scenario := errandDraft.build.toOption.getD ⟨[], [], [], [], 0, ∅⟩

lemma errand_built : errandDraft.build = .ok errand := by
  have h : errandDraft.build.toOption.isSome = true := by decide +kernel
  unfold errand
  generalize errandDraft.build = built at h
  cases built with
  | ok scenario => rfl
  | error cause => cases h

def errandShard : Shard := (Shard.new 0 (.empty .default)).prepare 0 "errand" errand 2

def errandDeeds : List (Nanos × Deed) :=
  [(0, .command (.start 0 2)), (3, .event (.data ⟨0, 0, 0, 0, 0⟩ [98])),
    (4, .event (.complete ⟨0, 0, 0, 0, 0⟩ .success))]

def errandTags : List Tag := [⟨0, 0, 0, 0, 0⟩, ⟨0, 1, 0, 0, 0⟩]

def errandAnswered : Shard := errandDeeds.foldl (fun s x => (s.perform x.1 x.2).1) errandShard

lemma errandShard_reaches : errandShard.Reaches [] := by
  have hprepared : (Shard.new 0 (.empty .default)).perform 0
      (.command (.prepare 0 "errand" errand 2)) = (errandShard, []) := by
    have hroom : Shard.hasRoom 0 errand 2 = true := by decide +kernel
    simp only [Shard.perform, Shard.handleCommand, hroom, if_true]
    rfl
  have h := Shard.Reaches.perform (.new 0 (.empty .default)) 0
    (.command (.prepare 0 "errand" errand 2)) ⟨rfl, errandDraft, errand_built⟩
  rwa [hprepared] at h

lemma errandAnswered_reaches : errandAnswered.Reaches errandTags := by
  have hstarted := errandShard_reaches.perform 0 (.command (.start 0 2)) trivial
  have htags : [] ++ (callsOf (errandShard.perform 0 (.command (.start 0 2))).2).map Prod.snd =
      errandTags := by decide +kernel
  rw [htags] at hstarted
  have hheard := hstarted.perform 3 (.event (.data ⟨0, 0, 0, 0, 0⟩ [98])) List.mem_cons_self
  generalize hs : (errandShard.perform 0 (.command (.start 0 2))).1 = started at hheard
  have hnone : (callsOf (started.perform 3
      (.event (.data ⟨0, 0, 0, 0, 0⟩ [98]))).2).map Prod.snd = [] := by
    rw [← hs]
    decide +kernel
  rw [hnone, List.append_nil] at hheard
  have hanswered := hheard.perform 4 (.event (.complete ⟨0, 0, 0, 0, 0⟩ .success))
    List.mem_cons_self
  have hquiet : (callsOf ((started.perform 3 (.event (.data ⟨0, 0, 0, 0, 0⟩ [98]))).1.perform 4
      (.event (.complete ⟨0, 0, 0, 0, 0⟩ .success))).2).map Prod.snd = [] := by
    rw [← hs]
    decide +kernel
  rw [hquiet, List.append_nil, ← hs] at hanswered
  exact hanswered

theorem errandAnswered_consistent : errandAnswered.Reaches errandTags ∧
    (∀ phase lane, errandAnswered.lanes.get? phase = some lane → lane.Consistent) ∧
    ∀ (now : Nanos) (deed : Deed), deed.Allowed errandAnswered errandTags →
      ∀ fault ∈ faultsOf (errandAnswered.perform now deed).2, ∃ phase lane,
        (errandAnswered.perform now deed).1.lanes.get? phase = some lane ∧
          fault = .requestOverflow phase (Pool.numbered lane.requests.asked) ∧
            2 ^ 32 ≤ lane.requests.asked :=
  ⟨errandAnswered_reaches, Shard.Reaches.consistent errandAnswered_reaches⟩

def errandBegun : Shard × Visit := (errandShard.acquire 0).2.turn 0 0 0 .start

def errandHeard : Shard × Visit := errandBegun.1.turn 3 0 0 (.data ⟨0, 0, 0, 0, 0⟩ [98])

def errandDone : Shard × Visit := errandHeard.1.turn 4 0 0 (.complete ⟨0, 0, 0, 0, 0⟩ .success)

def errandBooks : Ledger := [errandBegun.2, errandHeard.2, errandDone.2].foldl .after .empty

lemma errandDone_run : errandDone.1.Run errandBooks := by
  have hready : errandShard.Run .empty :=
    .prepare (.new 0 (.empty .default)) rfl errand_built "errand" 2
  have hslot : (errandShard.acquire 0).1 = some 0 := by decide +kernel
  have hbegun : errandBegun.1.Run (.after .empty errandBegun.2) :=
    hready.turn (.start (Prod.ext hslot rfl))
  have hheard : errandHeard.1.Run (.after _ errandHeard.2) :=
    hbegun.turn (.data ⟨0, 0, 0, 0, 0⟩ [98])
  exact hheard.turn (.complete ⟨0, 0, 0, 0, 0⟩ .success)

lemma Turn.start_full {stage : Stage} {t : Turn} (hvacant : t.session.branches = []) {id : Nat}
    {rest : List Nat} (hinitial : stage.scenario.initial = id :: rest)
    {operation : Operation BoundValidator}
    (hstep : stage.scenario.step? id 0 = some (.operation operation))
    (hfull : t.requests.free = []) :
    t.start stage = ({ t with session := { t.session with
        branches := stage.scenario.initial.map fun sequence => .new sequence none
        state := .running } },
      .broken (.requestOverflow stage.phase t.requests.capacity)) := by
  generalize hopened : ({ t with session := { t.session with
        branches := stage.scenario.initial.map fun sequence => .new sequence none
        state := .running } } : Turn) = t₁
  have hb : t₁.session.branches[0]? = some (.new id none) := by
    rw [← hopened]
    simp [hinitial]
  have hfirst : t₁.session.firstRunnable? = some 0 := by
    rw [← hopened]
    simp [Session.firstRunnable?, hinitial, List.findIdx?_cons, Branch.new, Branch.isRunnable]
  have hcurrent : t₁.session.current? stage.scenario 0 = some (.operation operation) := by
    unfold Session.current?
    rw [hb]
    exact hstep
  have hacquire : t₁.requests.acquire = (none, t.requests) := by
    rw [← hopened]
    unfold Pool.acquire
    simp only [hfull]
  have hstart : t.start stage = t₁.steps stage (t₁.session.effort stage.scenario) := by
    rw [← hopened]
    simp only [start, run, onSession, hvacant, List.nil_append]
  obtain ⟨fuel, hfuel⟩ := Nat.exists_eq_succ_of_ne_zero
    (effort_pos (t := t₁) stage.scenario hb rfl).ne'
  rw [hstart, hfuel]
  simp only [steps, hfirst, step, hcurrent, issue, hacquire]

lemma Shard.start_full {s : Shard} {phase capacity : Nat} {name : String} {scenario : Scenario}
    {recorder : Recorder}
    (hlane : s.lanes.get? phase = some (.new name scenario capacity recorder))
    (hseats : 0 < Pool.numbered capacity)
    (hnone : Pool.numbered (capacity * scenario.maxBranches) = 0) {id : Nat} {rest : List Nat}
    (hinitial : scenario.initial = id :: rest) {operation : Operation BoundValidator}
    (hstep : scenario.step? id 0 = some (.operation operation)) (now : Nanos) :
    faultsOf (s.start now phase 1).2 = [.requestOverflow phase 0] ∧
      ∃ lane session, (s.start now phase 1).1.lanes.get? phase = some lane ∧
        lane.sessions.get? 0 = some session ∧ session.state.isLive = true ∧
        ∀ b ∈ session.branches, b.wait = .runnable := by
  obtain ⟨seats, hseats⟩ := Nat.exists_eq_succ_of_ne_zero hseats.ne'
  set lane : Lane := .new name scenario capacity recorder with hnew
  have hslot : lane.sessions.acquire.1 = some 0 := by
    simp [hnew, Lane.new, Pool.new, Pool.acquire, hseats, List.range_succ_eq_map]
  have hsound : lane.sessions.Sound := Pool.new_sound _ _
  have hitem : lane.sessions.item? 0 = some (.new scenario 0) := by
    rw [hnew, Lane.new, Pool.new_item?, if_pos (by omega)]
  obtain ⟨sessions, hacquire⟩ : ∃ sessions, lane.sessions.acquire = (some 0, sessions) :=
    ⟨_, Prod.ext hslot rfl⟩
  have hget : sessions.get? 0 = some (.new scenario 0) := by
    have hget := (Pool.acquire_get? hsound hslot hitem 0 (.new scenario 0)).mpr (.inl ⟨rfl, rfl⟩)
    rwa [hacquire] at hget
  have hfull : lane.requests.free = [] := by
    simp [hnew, Lane.new, Pool.new, hnone]
  have hcapacity : lane.requests.capacity = 0 := by
    rw [hnew, Lane.new, Pool.new_capacity, hnone]
  have hturn : Turn.start ⟨scenario, phase, now⟩
      ⟨.new scenario 0, lane.requests, lane.recorder, []⟩ =
      (⟨{ Session.new scenario 0 with
          branches := scenario.initial.map fun sequence => .new sequence none
          state := .running }, lane.requests, lane.recorder, []⟩,
        .broken (.requestOverflow phase 0)) := by
    rw [Turn.start_full rfl hinitial hstep hfull, hcapacity]
  generalize hopened : ({ Session.new scenario 0 with
    branches := scenario.initial.map fun sequence => .new sequence none
    state := .running } : Session) = session at hturn
  have hdrive : Lane.drive { lane with sessions } phase now 0 Turn.start =
      ({ lane with sessions := sessions.update 0 fun _ => session }, [],
        .broken (.requestOverflow phase 0)) := by
    have hstage : lane.scenario = scenario := rfl
    unfold Lane.drive
    simp only [hget, hstage, hturn]
  have hwave : s.acquire phase =
      (some 0, { s with lanes := s.lanes.insert phase { lane with sessions } }) := by
    unfold acquire
    simp only [hlane, hacquire]
  have hlaunch : launch now phase 1 ⟨s, [], 0, 0, []⟩ =
      ⟨{ s with
          lanes := (s.lanes.insert phase { lane with sessions }).insert phase
            { lane with sessions := sessions.update 0 fun _ => session } },
        [.notice (.fault s.id (.requestOverflow phase 0))], 1, 0, []⟩ := by
    rw [launch_succ]
    simp only [hwave, drive, OrderedMap.get?_insert_self, hdrive, carryOut, List.nil_append]
  unfold start
  simp only [hlaunch]
  refine ⟨rfl, _, session, OrderedMap.get?_insert_self _ _ _, ?_, ?_, ?_⟩
  · simp only [Pool.update_get?, hget, if_true, Option.map_some]
  · rw [← hopened]
    rfl
  · intro b hb
    rw [← hopened] at hb
    obtain ⟨sequence, -, rfl⟩ := List.mem_map.mp hb
    rfl

def doublings : List Draft.Sequence :=
  let names := ["s1", "s2", "s3", "s4", "s5", "s6", "s7", "s8", "s9", "s10", "s11", "s12", "s13",
    "s14", "s15", "s16", "s17", "s18", "s19"]
  (names.zip names.tail).map (fun (name, next) => ⟨name, [.fork [next, next]]⟩) ++ [⟨"s19", []⟩]

/-- A session that comes to have `2 ^ 20` branches, one of which has an operation to issue. -/
def wideDraft : Draft where
  initial := ["s0", "s19"]
  sequences := ⟨"s0", [.operation (.simple "p" "get"), .fork ["s1", "s1"]]⟩ :: doublings

def wide : Scenario := wideDraft.build.toOption.getD ⟨[], [], [], [], 0, ∅⟩

lemma wide_built : wideDraft.build = .ok wide := by
  have h : wideDraft.build.toOption.isSome = true := by decide +kernel
  unfold wide
  generalize wideDraft.build = built at h
  cases built with
  | ok scenario => rfl
  | error cause => cases h

/-- A shard with room for 4096 of these sessions, and thus for `2 ^ 32` requests. -/
def wideShard : Shard :=
  ((Shard.new 0 (.empty .default)).perform 0 (.command (.prepare 0 "main" wide 4096))).1

lemma wideShard_perform :
    (Shard.new 0 (.empty .default)).perform 0 (.command (.prepare 0 "main" wide 4096)) =
      ((Shard.new 0 (.empty .default)).prepare 0 "main" wide 4096, []) := by
  have hroom : Shard.hasRoom 0 wide 4096 = true := by decide +kernel
  simp only [Shard.perform, Shard.handleCommand, hroom, if_true]

lemma wideShard_start (now : Nanos) :
    faultsOf (wideShard.start now 0 1).2 = [.requestOverflow 0 0] ∧
      ∃ lane session, (wideShard.start now 0 1).1.lanes.get? 0 = some lane ∧
        lane.sessions.get? 0 = some session ∧ session.state.isLive = true ∧
        ∀ b ∈ session.branches, b.wait = .runnable := by
  have hlane : wideShard.lanes.get? 0 = some (.new "main" wide 4096 (.empty .default)) := by
    rw [wideShard, wideShard_perform]
    exact OrderedMap.get?_insert_self _ _ _
  have hinitial : wide.initial = [0, 19] := by decide +kernel
  have hissues : ((wide.step? 0 0).bind Step.operation?).isSome = true := by decide +kernel
  have hnone : Pool.numbered (4096 * wide.maxBranches) = 0 := by decide +kernel
  cases hstep : wide.step? 0 0 with
  | none =>
    rw [hstep] at hissues
    cases hissues
  | some step =>
    rw [hstep] at hissues
    cases step with
    | operation operation => exact Shard.start_full hlane (by decide) hnone hinitial hstep now
    | _ => cases hissues

lemma wideShard_reaches : wideShard.Reaches [] := by
  have h := Shard.Reaches.perform (.new 0 (.empty .default)) 0
    (.command (.prepare 0 "main" wide 4096)) ⟨rfl, wideDraft, wide_built⟩
  rw [wideShard_perform] at h
  rw [wideShard, wideShard_perform]
  exact h

/-- An accepted scenario, a number of sessions below `2 ^ 32`, and a fault at the first start. -/
theorem wide_start_overflows : wideDraft.build = .ok wide ∧ Shard.hasRoom 0 wide 4096 = true ∧
    wideShard.Reaches [] ∧ (Deed.command (.start 0 1)).Allowed wideShard [] ∧
    faultsOf (wideShard.perform 0 (.command (.start 0 1))).2 = [.requestOverflow 0 0] :=
  ⟨wide_built, by decide +kernel, wideShard_reaches, trivial, (wideShard_start 0).1⟩

end LoadEngine
