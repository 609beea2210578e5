import LoadEngine.Proofs.ShardDeeds

/-! The sessions of a phase are given up on a shard, wherever they are. Each of them is told of
once, its request slots are free and nothing is recorded for it; and what comes later for the phase
finds no one. -/

namespace LoadEngine

structure Lane.Without (lane : Lane) (slots : List Nat) (lane' : Lane) : Prop where
  scenario : lane'.scenario = lane.scenario
  recorder : lane'.recorder = lane.recorder
  sessions : ∀ slot, lane'.sessions.isAcquired slot = true ↔
    lane.sessions.isAcquired slot = true ∧ slot ∉ slots
  others : ∀ slot, slot ∉ slots → lane'.sessions.item? slot = lane.sessions.item? slot
  requests : ∀ r record, lane'.requests.get? r = some record ↔
    lane.requests.get? r = some record ∧ ∀ slot ∈ slots, record.session ≠ some slot

namespace Lane

variable {lane lane' lane'' : Lane} {slots slots' : List Nat} {slot : Nat}

lemma Without.nil (lane : Lane) : lane.Without [] lane := by
  refine ⟨rfl, rfl, ?_, fun _ _ => rfl, ?_⟩ <;> simp

lemma Without.trans (h : lane.Without slots lane') (h' : lane'.Without slots' lane'') :
    lane.Without (slots ++ slots') lane'' where
  scenario := h'.scenario.trans h.scenario
  recorder := h'.recorder.trans h.recorder
  sessions j := by
    rw [h'.sessions, h.sessions, List.mem_append, not_or, and_assoc]
  others j hj := by
    rw [List.mem_append, not_or] at hj
    rw [h'.others j hj.2, h.others j hj.1]
  requests r record := by
    rw [h'.requests, h.requests, List.forall_mem_append, and_assoc]

lemma alive_eq_zero : lane.alive = 0 ↔ ∀ slot, lane.sessions.get? slot = none := by
  rw [alive, List.length_eq_zero_iff, List.eq_nil_iff_forall_not_mem]
  constructor
  · intro hnone slot
    by_contra hs
    obtain ⟨session, hs⟩ := Option.ne_none_iff_exists'.mp hs
    exact hnone _ (Pool.mem_acquired.mpr hs)
  · rintro hnone ⟨slot, session⟩ hmem
    rw [Pool.mem_acquired, hnone] at hmem
    cases hmem

lemma mem_liveSlots : slot ∈ lane.liveSlots ↔ lane.sessions.isAcquired slot = true := by
  rw [liveSlots, List.mem_map, Pool.isAcquired_iff]
  constructor
  · rintro ⟨⟨j, session⟩, hmem, rfl⟩
    exact ⟨session, Pool.mem_acquired.mp hmem⟩
  · rintro ⟨session, hs⟩
    exact ⟨(slot, session), Pool.mem_acquired.mpr hs, rfl⟩

lemma Books.terminate {phase : Nat} {reached : Nat → Prop} {weight : Nat → Nat}
    {pages : Nat → Page} (h : lane.Books phase reached weight pages none)
    (hheld : lane.sessions.isAcquired slot = true) (now : Nanos) :
    ∃ lane', lane.drive phase now slot (fun _ => Turn.terminate) =
      (lane', [], .ended .terminated) ∧ lane.Without [slot] lane' := by
  obtain ⟨session, hs⟩ := Pool.isAcquired_iff.mp hheld
  obtain ⟨-, hitem⟩ := Pool.get?_eq_some.mp hs
  have hlive : session.state.isLive = true := (h.live slot session hitem).mpr ⟨hheld, nofun⟩
  obtain ⟨t, hclose, hclosed⟩ := (h.owns hitem).close .terminated
  have hact : Cause.terminate.act ⟨lane.scenario, phase, now⟩
      ⟨session, lane.requests, lane.recorder, []⟩ = (t, .ended .terminated) := by
    rw [← hclose]
    exact if_pos hlive
  obtain ⟨sessions, hdrive, -, -, -, hitems, hacquired⟩ := drive_eq h.sessions hs phase now hact
  rw [hclosed.effects] at hdrive
  refine ⟨_, hdrive, rfl, hclosed.recorder, ?_, ?_, ?_⟩
  · intro j
    change sessions.isAcquired j = true ↔ _
    rw [hacquired]
    by_cases hj : j = slot <;> simp [hj, Verdict.isEnded]
  · intro j hj
    change sessions.item? j = _
    rw [hitems, if_neg (by simpa using hj)]
  · intro r record
    have hrequests := hclosed.requests r record
    rw [(h.placed slot session hitem).slot] at hrequests
    simpa using hrequests

end Lane

structure Lane.Dismissed (lane lane' : Lane) : Prop where
  recorder : lane'.recorder = lane.recorder
  alive : lane'.alive = 0
  dead : ∀ slot session, lane'.sessions.item? slot = some session → session.state.isLive = false
  requests : ∀ r record, lane'.requests.get? r = some record ↔ lane.requests.get? r = some record ∧
    ∀ slot, lane.sessions.isAcquired slot = true → record.session ≠ some slot

lemma Turn.terminate_of_not_live {t : Turn} (h : t.session.state.isLive = false) :
    t.terminate = (t, .alive) := by
  rw [Turn.terminate, h]
  rfl

namespace Shard

variable {s s' s'' : Shard} {l : Ledger} {now : Nanos} {phase slot : Nat} {slots slots' : List Nat}

/-- A shard without the sessions of some slots of a phase. -/
structure Sheds (s : Shard) (phase : Nat) (slots : List Nat) (s' : Shard) : Prop where
  id : s'.id = s.id
  timers : s'.timers = s.timers
  others : ∀ p, p ≠ phase → s'.lanes.get? p = s.lanes.get? p
  lane : ∀ lane, s.lanes.get? phase = some lane →
    ∃ lane', s'.lanes.get? phase = some lane' ∧ lane.Without slots lane'
  run : ∃ l', Run s' l'

lemma Run.sheds_nil (h : Run s l) (phase : Nat) : s.Sheds phase [] s :=
  ⟨rfl, rfl, fun _ _ => rfl, fun lane hlane => ⟨lane, hlane, .nil lane⟩, l, h⟩

lemma Sheds.trans (h : s.Sheds phase slots s') (h' : s'.Sheds phase slots' s'') :
    s.Sheds phase (slots ++ slots') s'' where
  id := h'.id.trans h.id
  timers := h'.timers.trans h.timers
  others p hp := (h'.others p hp).trans (h.others p hp)
  lane lane hlane := by
    obtain ⟨lane', hlane', hwithout⟩ := h.lane lane hlane
    obtain ⟨lane'', hlane'', hwithout'⟩ := h'.lane lane' hlane'
    exact ⟨lane'', hlane'', hwithout.trans hwithout'⟩
  run := h'.run

lemma Run.visit_terminate (h : Run s l) {lane : Lane} (hlane : s.lanes.get? phase = some lane)
    (hheld : lane.sessions.isAcquired slot = true) (now : Nanos) :
    s.Sheds phase [slot] (s.visit now phase slot fun _ => Turn.terminate).1 ∧
      (s.visit now phase slot fun _ => Turn.terminate).2 =
        [.notice (.ended phase s.id .terminated)] := by
  have harises : s.Arises now .terminate phase slot s := .terminate phase slot
  have hrun := h.turn harises
  obtain ⟨_, _, hbooks⟩ := h.books.lanes phase lane hlane
  obtain ⟨lane', hdrive, hwithout⟩ := hbooks.terminate hheld now
  have hshard : s.drive now phase slot (fun _ => Turn.terminate) =
      ({ s with lanes := s.lanes.insert phase lane' }, [], .ended .terminated) := by
    simp only [drive, hlane, hdrive, carryOut]
  have hturn : (s.turn now phase slot .terminate).1 =
      { s with lanes := s.lanes.insert phase lane' } := by
    simp only [Shard.turn, Cause.act, hshard]
  rw [hturn] at hrun
  have hvisit : s.visit now phase slot (fun _ => Turn.terminate) =
      ({ s with lanes := s.lanes.insert phase lane' },
        [.notice (.ended phase s.id .terminated)]) := by
    simp only [visit, hshard, announce, List.nil_append]
  rw [hvisit]
  refine ⟨⟨rfl, rfl, fun p hp => OrderedMap.get?_insert_ne _ _ hp, ?_, _, hrun⟩, rfl⟩
  intro before hbefore
  rw [hlane, Option.some.injEq] at hbefore
  subst hbefore
  exact ⟨lane', OrderedMap.get?_insert_self .., hwithout⟩

lemma Run.terminateSlots_sheds (h : Run s l) {lane : Lane} (hlane : s.lanes.get? phase = some lane)
    (hheld : ∀ slot ∈ slots, lane.sessions.isAcquired slot = true) (hnodup : slots.Nodup)
    (now : Nanos) : s.Sheds phase slots (terminateSlots now phase s slots).1 ∧
      (terminateSlots now phase s slots).2 =
        List.replicate slots.length (.notice (.ended phase s.id .terminated)) := by
  induction slots generalizing s l lane with
  | nil => exact ⟨h.sheds_nil phase, rfl⟩
  | cons slot rest ih =>
    obtain ⟨hslot, hrest⟩ := List.forall_mem_cons.mp hheld
    obtain ⟨hnot, hnodup⟩ := List.nodup_cons.mp hnodup
    obtain ⟨hsheds, htold⟩ := h.visit_terminate hlane hslot now
    rw [terminateSlots_cons, htold]
    generalize (s.visit now phase slot fun _ => Turn.terminate).1 = s₁ at hsheds ⊢
    obtain ⟨lane₁, hlane₁, hwithout⟩ := hsheds.lane lane hlane
    obtain ⟨l₁, hrun₁⟩ := hsheds.run
    have hheld₁ : ∀ j ∈ rest, lane₁.sessions.isAcquired j = true := by
      intro j hj
      refine (hwithout.sessions j).mpr ⟨hrest j hj, ?_⟩
      rw [List.mem_singleton]
      rintro rfl
      exact hnot hj
    obtain ⟨hsheds', htold'⟩ := ih hrun₁ hlane₁ hheld₁ hnodup
    refine ⟨hsheds.trans hsheds', ?_⟩
    rw [htold', hsheds.id, List.length_cons, List.replicate_succ]
    rfl

/-- What becomes of a shard that is told to end a phase. -/
structure Dismisses (s : Shard) (phase : Nat) (s' : Shard) (outputs : List Output) : Prop where
  told : outputs = List.replicate (s.alive phase) (.notice (.ended phase s.id .terminated))
  timers : s'.timers = s.timers
  others : ∀ p, p ≠ phase → s'.lanes.get? p = s.lanes.get? p
  lane : ∀ lane, s.lanes.get? phase = some lane →
    ∃ lane', s'.lanes.get? phase = some lane' ∧ lane.Dismissed lane'
  alive : s'.alive phase = 0

lemma Dismisses.harmless {outputs : List Output} (h : s.Dismisses phase s' outputs) :
    Harmless outputs := by
  intro o ho
  rw [h.told] at ho
  rw [(List.mem_replicate.mp ho).2]
  rfl

lemma alive_of_get? {lane : Lane} (hlane : s.lanes.get? phase = some lane) :
    s.alive phase = lane.alive := by
  simp only [Shard.alive, hlane]

lemma alive_of_none (hlane : s.lanes.get? phase = none) : s.alive phase = 0 := by
  simp only [Shard.alive, hlane]

theorem Run.terminate_dismisses (h : Run s l) (now : Nanos) (phase : Nat) :
    s.Dismisses phase (s.terminate now phase).1 (s.terminate now phase).2 := by
  unfold Shard.terminate
  cases hlane : s.lanes.get? phase with
  | none =>
    refine ⟨?_, rfl, fun _ _ => rfl, ?_, alive_of_none hlane⟩
    · rw [alive_of_none hlane]
      rfl
    · intro lane hsome
      rw [hlane] at hsome
      cases hsome
  | some lane =>
    obtain ⟨hsheds, htold⟩ := h.terminateSlots_sheds hlane
      (fun slot hslot => Lane.mem_liveSlots.mp hslot) lane.sessions.acquired_slots_nodup now
    simp only
    generalize terminateSlots now phase s lane.liveSlots = out at hsheds htold ⊢
    obtain ⟨s', outputs⟩ := out
    obtain ⟨lane', hlane', hwithout⟩ := hsheds.lane lane hlane
    obtain ⟨l', hrun⟩ := hsheds.run
    obtain ⟨_, _, hbooks⟩ := hrun.books.lanes phase lane' hlane'
    have hnone : ∀ slot, lane'.sessions.isAcquired slot = false := by
      intro slot
      refine Bool.eq_false_iff.mpr fun hheld => ?_
      obtain ⟨hheld, hnot⟩ := (hwithout.sessions slot).mp hheld
      exact hnot (Lane.mem_liveSlots.mpr hheld)
    have halive : lane'.alive = 0 := by
      refine Lane.alive_eq_zero.mpr fun slot => ?_
      by_contra hs
      obtain ⟨session, hs⟩ := Option.ne_none_iff_exists'.mp hs
      have hheld := (Pool.get?_eq_some.mp hs).1
      rw [hnone] at hheld
      cases hheld
    refine ⟨?_, hsheds.timers, hsheds.others, ?_, (alive_of_get? hlane').trans halive⟩
    · rw [htold, alive_of_get? hlane, Lane.alive, Lane.liveSlots, List.length_map]
    · intro before hbefore
      rw [hlane, Option.some.injEq] at hbefore
      subst hbefore
      refine ⟨lane', hlane', hwithout.recorder, halive, ?_, ?_⟩
      · intro slot session hitem
        refine Bool.eq_false_iff.mpr fun hlive => ?_
        have hheld := ((hbooks.live slot session hitem).mp hlive).1
        rw [hnone] at hheld
        cases hheld
      · intro r record
        simp only [hwithout.requests, Lane.mem_liveSlots]

lemma terminate_of_idle (h : s.alive phase = 0) (now : Nanos) :
    s.terminate now phase = (s, []) := by
  unfold terminate
  cases hlane : s.lanes.get? phase with
  | none => rfl
  | some lane =>
    rw [alive_of_get? hlane] at h
    have hslots : lane.liveSlots = [] := by
      rw [Lane.liveSlots, List.length_eq_zero_iff.mp h]
      rfl
    simp only [hslots, terminateSlots]

lemma alive_of_lane_eq (h : s'.lanes.get? phase = s.lanes.get? phase) :
    s'.alive phase = s.alive phase := by
  unfold alive
  rw [h]

lemma drive_idle (h : s.alive phase = 0) (now : Nanos) (index slot : Nat)
    (act : Stage → Turn → Turn × Verdict) :
    (s.drive now index slot act).1.lanes.get? phase = s.lanes.get? phase := by
  unfold drive
  cases hlane : s.lanes.get? index with
  | none => rfl
  | some lane =>
    simp only [carryOut_lanes, OrderedMap.get?_insert]
    split
    · rename_i hp
      subst hp
      rw [alive_of_get? hlane] at h
      simp only [Lane.drive, Lane.alive_eq_zero.mp h slot, hlane]
    · rfl

lemma visit_idle (h : s.alive phase = 0) (now : Nanos) (index slot : Nat)
    (act : Stage → Turn → Turn × Verdict) :
    (s.visit now index slot act).1.lanes.get? phase = s.lanes.get? phase :=
  drive_idle h now index slot act

lemma acquire_other {index : Nat} (hne : index ≠ phase) :
    (s.acquire index).2.lanes.get? phase = s.lanes.get? phase := by
  unfold acquire
  cases s.lanes.get? index with
  | none => rfl
  | some lane => exact OrderedMap.get?_insert_ne _ _ hne.symm

lemma idle_goesOn (phase : Nat) : GoesOn fun s _ s' =>
    s.alive phase = 0 → s'.lanes.get? phase = s.lanes.get? phase where
  refl _ _ := rfl
  trans h h' hidle := (h' ((alive_of_lane_eq (h hidle)).trans hidle)).trans (h hidle)

lemma idle_prevails (phase : Nat) : Prevails fun s _ s' =>
    s.alive phase = 0 → s'.lanes.get? phase = s.lanes.get? phase :=
  (idle_goesOn phase).prevails (fun _ _ _ => rfl)
    fun _ now index slot act hidle => visit_idle hidle now index slot act

lemma start_idle (h : s.alive phase = 0) {index : Nat} (hne : index ≠ phase) (now : Nanos)
    (count : Nat) : (s.start now index count).1.lanes.get? phase = s.lanes.get? phase := by
  have hstart {s s₁ : Shard} {slot : Nat} (ha : s.acquire index = (some slot, s₁))
      (hidle : s.alive phase = 0) : (s₁.drive now index slot Turn.start).1.lanes.get? phase =
        s.lanes.get? phase := by
    have hacquire := acquire_other (s := s) hne
    rw [ha] at hacquire
    exact (drive_idle ((alive_of_lane_eq hacquire).trans hidle) now index slot Turn.start).trans
      hacquire
  obtain ⟨-, -, hlaunch⟩ := (idle_goesOn phase).launch now index hstart count ⟨s, [], 0, 0, []⟩
  exact hlaunch h

end Shard

def Deed.opens (phase : Nat) : Deed → Bool
  | command (.start index _) | command (.prepare index _ _ _) => index == phase
  | _ => false

namespace Shard

variable {s : Shard} {now : Nanos} {phase : Nat} {deed : Deed}

theorem perform_idle (h : s.alive phase = 0) (hdeed : deed.opens phase = false) (now : Nanos) :
    (s.perform now deed).1.lanes.get? phase = s.lanes.get? phase ∨
      ∃ lane, s.lanes.get? phase = some lane ∧
        (s.perform now deed).1.lanes.get? phase = some lane.reset := by
  cases deed with
  | command c =>
    cases c with
    | prepare index name scenario capacity =>
      have hne : phase ≠ index := by
        rintro rfl
        simp [Deed.opens] at hdeed
      refine .inl ?_
      simp only [perform, handleCommand]
      split
      · exact OrderedMap.get?_insert_ne _ _ hne
      · rfl
    | start index count =>
      have hne : index ≠ phase := by
        rintro rfl
        simp [Deed.opens] at hdeed
      exact .inl (start_idle h hne now count)
    | terminate index => exact .inl ((idle_prevails phase).terminate s now index h)
    | collect index reset =>
      simp only [perform, handleCommand, collect]
      cases hlane : s.lanes.get? index with
      | none => exact .inl rfl
      | some lane =>
        cases reset with
        | false => exact .inl rfl
        | true =>
          by_cases hp : phase = index
          · subst hp
            exact .inr ⟨lane, hlane, OrderedMap.get?_insert_self ..⟩
          · exact .inl (OrderedMap.get?_insert_ne _ _ hp)
    | shutdown => exact .inl ((idle_prevails phase).terminateAll s now h)
  | event e =>
    cases e with
    | data | complete =>
      simp only [perform, handleEvent]
      exact .inl (visit_idle h now _ _ _)
  | timers => exact .inl ((idle_prevails phase).fire s now _ h)

end Shard

end LoadEngine
