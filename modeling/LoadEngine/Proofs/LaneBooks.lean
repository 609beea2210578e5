import LoadEngine.Proofs.TurnCauses
import Mathlib.Algebra.Order.BigOperators.Group.Finset

/-! The books of a lane. Each slot is in order for itself, and what the turn of one session does
leaves the other slots as they are. The request pool holds enough for all sessions, unless its slots
were too many to be numbered. -/

namespace LoadEngine

open Rehearsal (issues schedules)

structure Page where
  flights : List Flight
  timers : List Timer
  since : Nat → Nanos

def Page.turned (now : Nanos) (cause : Cause) (timers : List Timer) (effects : List Effect)
    (verdict : Verdict) (page : Page) : Page where
  flights := (page.flights.map (Flight.hear now cause) ++ fresh now effects).map verdict.closes
  timers := timers ++ schedules effects
  since := page.since

structure Page.Same (page page' : Page) : Prop where
  flights : page'.flights = page.flights
  timers : page'.timers.Perm page.timers
  since : page'.since = page.since

structure Session.Placed (sc : Scenario) (reached : Nat → Prop) (weight : Nat → Nat) (phase : Nat)
    (requests : Pool Request) (page : Page) (slot : Nat) (s : Session) : Prop where
  slot : s.slot = slot
  sound : s.Sound sc reached weight
  keeps : s.Keeps requests
  booked : s.Booked sc phase requests page.flights page.timers page.since

/-- The books of a lane are right. A slot was taken for a session that is yet to start, if `opening`
says so. -/
structure Lane.Books (phase : Nat) (reached : Nat → Prop) (weight : Nat → Nat) (pages : Nat → Page)
    (opening : Option Nat) (lane : Lane) : Prop where
  scenario : lane.scenario.Sound reached weight
  sessions : lane.sessions.Sound
  requests : lane.requests.Sound
  placed : ∀ slot s, lane.sessions.item? slot = some s →
    s.Placed lane.scenario reached weight phase lane.requests (pages slot) slot
  live : ∀ slot s, lane.sessions.item? slot = some s →
    (s.state.isLive = true ↔ lane.sessions.isAcquired slot = true ∧ opening ≠ some slot)
  vacant : ∀ slot s, lane.sessions.item? slot = some s → s.state.isLive = false → s.branches = []
  owners : ∀ r record, lane.requests.get? r = some record →
    ∃ slot, record.session = some slot ∧ lane.sessions.isAcquired slot = true
  blank : ∀ slot, lane.sessions.item? slot = none → (pages slot).flights = []
  asked : lane.requests.asked = lane.sessions.asked * lane.scenario.maxBranches
  seats : lane.sessions.capacity = Pool.numbered lane.sessions.asked
  desks : lane.requests.capacity = Pool.numbered lane.requests.asked

def Lane.Resting (opening : Option Nat) (lane : Lane) : Prop :=
  ∀ slot s, lane.sessions.get? slot = some s → opening ≠ some slot → s.Resting

def Cause.opening (slot : Nat) : Cause → Option Nat
  | start => some slot
  | _ => none

structure Lane.Driven (phase : Nat) (reached : Nat → Prop) (weight : Nat → Nat) (pages : Nat → Page)
    (now : Nanos) (slot : Nat) (cause : Cause) (timers : List Timer) (lane lane' : Lane)
    (effects : List Effect) (verdict : Verdict) : Prop where
  books : lane'.Books phase reached weight (fun j =>
    if j = slot then (pages j).turned now cause timers effects verdict else pages j) none
  scenario : lane'.scenario = lane.scenario
  places : lane'.sessions.capacity = lane.sessions.capacity
  asked : lane'.requests.asked = lane.requests.asked
  recorder : lane'.recorder = ((pages slot).flights.filterMap (Flight.recording? now cause) ++
    requestsOf effects).foldl Recorder.enter lane.recorder
  calls : ∀ x ∈ issues effects, x.2.phase = phase ∧ x.2.slot = slot
  timersOwn : ∀ timer ∈ schedules effects, timer.tag.phase = phase ∧ timer.tag.slot = slot
  faults : (∀ s, lane.sessions.get? slot = some s → cause.Known s) → ∀ fault,
    verdict = .broken fault →
      fault = .requestOverflow phase lane.requests.capacity ∧ 2 ^ 32 ≤ lane.requests.asked
  resting : lane.requests.asked < 2 ^ 32 → lane.Resting (cause.opening slot) → lane'.Resting none
  whole : verdict = .ended .completed →
    ∀ f ∈ (pages slot).flights.map (Flight.hear now cause) ++ fresh now effects, f.isPending = false

lemma Cause.opening_eq_some {slot j : Nat} {cause : Cause} :
    cause.opening slot = some j ↔ cause = .start ∧ j = slot := by
  cases cause with
  | start => simp [opening, eq_comm]
  | _ => simp [opening]

namespace Verdict

variable {sc : Scenario} {s : Session}

lemma leaves_slot (verdict : Verdict) (sc : Scenario) (s : Session) :
    (verdict.leaves sc s).slot = s.slot := by
  cases verdict <;> rfl

lemma leaves_isLive (verdict : Verdict) (sc : Scenario)
    (hlive : verdict.isEnded = false → s.state.isLive = true) :
    (verdict.leaves sc s).state.isLive = !verdict.isEnded := by
  cases verdict with
  | ended how => rfl
  | alive | broken => exact hlive rfl

lemma leaves_branches {verdict : Verdict} (hended : verdict.isEnded = true) :
    (verdict.leaves sc s).branches = [] := by
  cases verdict with
  | ended how => rfl
  | alive | broken => cases hended

end Verdict

namespace Session

variable {sc : Scenario} {phase : Nat} {s : Session} {requests requests' : Pool Request}
  {flights : List Flight} {timers timers' : List Timer} {since : Nat → Nanos}

lemma Keeps.spare (h : s.Keeps requests) (hspare : ∀ r record, record.session = some s.slot →
    (requests'.get? r = some record ↔ requests.get? r = some record)) : s.Keeps requests' where
  kept k id step op r hk := by
    obtain ⟨since, hr⟩ := h.kept k id step op r hk
    exact ⟨since, (hspare r _ rfl).mpr hr⟩
  owned r record hr hown := h.owned r record ((hspare r record hown).mp hr) hown

lemma Booked.of_vacant (h : s.Booked sc phase requests flights timers since)
    (hvacant : s.branches = []) (hsub : timers'.Sublist timers) :
    s.Booked sc phase requests flights timers' since := by
  refine ⟨h.flies, h.flown, ?_, h.flightOps, (hsub.map _).nodup h.timerOps, h.flightsKnown,
    fun timer htimer => h.timersKnown timer (hsub.subset htimer)⟩
  intro k a ha
  rw [hvacant] at ha
  cases ha

lemma Booked.perm (h : s.Booked sc phase requests flights timers since)
    (hperm : timers'.Perm timers) : s.Booked sc phase requests flights timers' since where
  flies := h.flies
  flown := h.flown
  alarms k a ha := by
    obtain ⟨timer, htimer, halarm⟩ := h.alarms k a ha
    exact ⟨timer, hperm.mem_iff.mpr htimer, halarm⟩
  flightOps := h.flightOps
  timerOps := (hperm.map _).nodup_iff.mpr h.timerOps
  flightsKnown := h.flightsKnown
  timersKnown timer htimer := h.timersKnown timer (hperm.mem_iff.mp htimer)

lemma Placed.spare {reached : Nat → Prop} {weight : Nat → Nat} {page : Page} {slot : Nat}
    (h : s.Placed sc reached weight phase requests page slot)
    (hspare : ∀ r record, record.session = some slot →
      (requests'.get? r = some record ↔ requests.get? r = some record)) :
    s.Placed sc reached weight phase requests' page slot := by
  rw [← h.slot] at hspare
  exact ⟨h.slot, h.sound, h.keeps.spare hspare, h.booked.keep rfl rfl (Nat.le_refl _)
    (fun _ => rfl) (fun _ _ => rfl) (fun r record hown hr => (hspare r record hown).mpr hr)
    fun _ _ => rfl⟩

end Session

namespace Lane

variable {phase : Nat} {reached : Nat → Prop} {weight : Nat → Nat} {pages pages' : Nat → Page}
  {opening : Option Nat} {lane : Lane}

lemma Books.turn_pages (h : lane.Books phase reached weight pages opening)
    (hpages : ∀ slot s, lane.sessions.item? slot = some s →
      s.Booked lane.scenario phase lane.requests (pages slot).flights (pages slot).timers
        (pages slot).since →
      s.Booked lane.scenario phase lane.requests (pages' slot).flights (pages' slot).timers
        (pages' slot).since)
    (hblank : ∀ slot, (pages slot).flights = [] → (pages' slot).flights = []) :
    lane.Books phase reached weight pages' opening where
  scenario := h.scenario
  sessions := h.sessions
  requests := h.requests
  placed slot s hs := by
    obtain ⟨hslot, hsound, hkeeps, hbooked⟩ := h.placed slot s hs
    exact ⟨hslot, hsound, hkeeps, hpages slot s hs hbooked⟩
  live := h.live
  vacant := h.vacant
  owners := h.owners
  blank slot hs := hblank slot (h.blank slot hs)
  asked := h.asked
  seats := h.seats
  desks := h.desks

lemma Books.same (h : lane.Books phase reached weight pages opening)
    (hsame : ∀ slot, (pages slot).Same (pages' slot)) :
    lane.Books phase reached weight pages' opening := by
  refine h.turn_pages ?_ fun slot hblank => (hsame slot).flights.trans hblank
  intro slot s _ hbooked
  rw [(hsame slot).flights, (hsame slot).since]
  exact hbooked.perm (hsame slot).timers

lemma new_books {sc : Scenario} (hsc : sc.Sound reached weight) (name : String) (capacity : Nat)
    (recorder : Recorder) (hpages : ∀ slot, (pages slot).flights = [] ∧ (pages slot).timers = []) :
    (Lane.new name sc capacity recorder).Books phase reached weight pages none where
  scenario := hsc
  sessions := Pool.new_sound _ _
  requests := Pool.new_sound _ _
  placed slot s hs := by
    simp only [Lane.new, Pool.new_item?] at hs ⊢
    split at hs
    · cases hs
      obtain ⟨hflights, htimers⟩ := hpages slot
      refine ⟨rfl, Session.recycle_sound sc reached weight (.new sc slot), ⟨?_, ?_⟩, ?_⟩
      · intro k id step op r hk
        cases hk
      · intro r record hr
        rw [Pool.new_get?] at hr
        cases hr
      · rw [hflights, htimers]
        constructor <;> simp [Session.new, awaits_nil]
    · cases hs
  live slot s hs := by
    simp only [Lane.new, Pool.new_item?, Pool.new_isAcquired] at hs ⊢
    split at hs
    · cases hs
      simp [Session.new, SessionState.isLive]
    · cases hs
  vacant slot s hs _ := by
    simp only [Lane.new, Pool.new_item?] at hs
    split at hs
    · cases hs
      rfl
    · cases hs
  owners r record hr := by
    simp only [Lane.new, Pool.new_get?] at hr
    cases hr
  blank slot _ := (hpages slot).1
  asked := rfl
  seats := Pool.new_capacity _ _
  desks := Pool.new_capacity _ _

lemma Books.acquire (h : lane.Books phase reached weight pages none) {slot : Nat}
    {sessions : Pool Session} (hslot : lane.sessions.acquire = (some slot, sessions)) :
    ({ lane with sessions } : Lane).Books phase reached weight pages (some slot) := by
  have hsome : lane.sessions.acquire.1 = some slot := by rw [hslot]
  have hrest : lane.sessions.acquire.2 = sessions := by rw [hslot]
  have hitem := Pool.acquire_item? hsome
  have hacquired := Pool.acquire_isAcquired h.sessions hsome
  obtain ⟨hfresh, -⟩ := Pool.acquire_fresh h.sessions hsome
  have hcapacity := Pool.acquire_capacity lane.sessions
  have hasked := Pool.acquire_asked lane.sessions
  have hsound := Pool.acquire_sound h.sessions
  rw [hrest] at hitem hacquired hcapacity hasked hsound
  refine ⟨h.scenario, hsound, h.requests, ?_, ?_, ?_, ?_, ?_, ?_, ?_, h.desks⟩
  · intro j s hs
    rw [hitem] at hs
    exact h.placed j s hs
  · intro j s hs
    rw [hitem] at hs
    have hlive := h.live j s hs
    simp only [hacquired, ne_eq, reduceCtorEq, not_false_eq_true, and_true] at hlive ⊢
    by_cases hj : j = slot
    · subst hj
      rw [hlive, hfresh]
      simp
    · rw [hlive]
      simp [hj, Ne.symm hj]
  · intro j s hs
    rw [hitem] at hs
    exact h.vacant j s hs
  · intro r record hr
    obtain ⟨j, hj, hheld⟩ := h.owners r record hr
    refine ⟨j, hj, ?_⟩
    rw [hacquired]
    simp [hheld]
  · intro j hj
    rw [hitem] at hj
    exact h.blank j hj
  · rw [h.asked, hasked]
  · rw [hcapacity, hasked]
    exact h.seats

lemma Books.reset (h : lane.Books phase reached weight pages none) :
    lane.reset.Books phase reached weight pages none where
  scenario := h.scenario
  sessions := Pool.resetMarks_sound h.sessions
  requests := Pool.resetMarks_sound h.requests
  placed slot s hs := (h.placed slot s hs).spare fun _ _ _ => Iff.rfl
  live := h.live
  vacant := h.vacant
  owners := h.owners
  blank := h.blank
  asked := h.asked
  seats := h.seats
  desks := h.desks

lemma Books.owns (h : lane.Books phase reached weight pages opening) {slot : Nat} {s : Session}
    (hs : lane.sessions.item? slot = some s) :
    Turn.Owns ⟨s, lane.requests, lane.recorder, []⟩ :=
  ⟨h.requests, (h.placed slot s hs).keeps, (h.placed slot s hs).sound.distinct⟩

lemma Books.roomy (h : lane.Books phase reached weight pages opening)
    (hsmall : lane.requests.asked < 2 ^ 32) {slot : Nat} {s : Session}
    (hs : lane.sessions.get? slot = some s) :
    Turn.Roomy lane.scenario ⟨s, lane.requests, lane.recorder, []⟩ := by
  obtain ⟨hheld, hitem⟩ := Pool.get?_eq_some.mp hs
  set others := lane.requests.acquired.filter fun x => x.2.session != some s.slot with hothers
  set slots := (lane.sessions.others slot).map Prod.fst with hslots
  have hslot := (h.placed slot s hitem).slot
  have hperm := (Pool.acquired_others hs).length_eq
  have hle : others.length ≤ lane.scenario.maxBranches * slots.length := by
    have hnodup : others.Nodup := lane.requests.acquired_nodup.filter _
    have hcard := Finset.card_le_mul_card_image_of_maps_to
      (f := fun x : Nat × Request => x.2.session) (s := others.toFinset)
      (t := (slots.map some).toFinset) ?_ lane.scenario.maxBranches ?_
    · rw [List.toFinset_card_of_nodup hnodup] at hcard
      refine hcard.trans (Nat.mul_le_mul_left _ ?_)
      exact (List.toFinset_card_le _).trans (List.length_map _).le
    · intro x hx
      obtain ⟨hmem, hne⟩ := List.mem_filter.mp (List.mem_toFinset.mp hx)
      obtain ⟨j, hj, hheldj⟩ := h.owners x.1 x.2 (Pool.mem_acquired.mp hmem)
      obtain ⟨sj, hsj⟩ := Pool.isAcquired_iff.mp hheldj
      rw [List.mem_toFinset, hj]
      refine List.mem_map_of_mem (List.mem_map.mpr ⟨(j, sj), Pool.mem_others.mpr ⟨?_, hsj⟩, rfl⟩)
      rintro rfl
      rw [hj, hslot, bne_self_eq_false] at hne
      cases hne
    · intro owner howner
      obtain ⟨j, hj, rfl⟩ := List.mem_map.mp (List.mem_toFinset.mp howner)
      obtain ⟨⟨j, sj⟩, hmem, rfl⟩ := List.mem_map.mp hj
      obtain ⟨-, hsj⟩ := Pool.mem_others.mp hmem
      obtain ⟨-, hitemj⟩ := Pool.get?_eq_some.mp hsj
      have hown := (h.owns hitemj).length_own_le
      have hlength := (h.placed j sj hitemj).sound.length_le
      have hslotj := (h.placed j sj hitemj).slot
      have hfilter := List.length_filterMap_le Branch.request? sj.branches
      have hsub : (others.toFinset.filter fun x => x.2.session = some j).card ≤
          (lane.requests.acquired.filter fun x => !(x.2.session != some sj.slot)).length := by
        rw [← List.toFinset_card_of_nodup (lane.requests.acquired_nodup.filter _)]
        refine Finset.card_le_card fun x hx => ?_
        obtain ⟨hx, hsession⟩ := Finset.mem_filter.mp hx
        have hmem := (List.mem_filter.mp (List.mem_toFinset.mp hx)).1
        rw [List.mem_toFinset, List.mem_filter]
        exact ⟨hmem, by simp [hsession, hslotj]⟩
      exact hsub.trans (hown.trans (hfilter.trans hlength))
  have hcount := Pool.length_acquired_add h.sessions
  have hseats : slots.length + 1 ≤ lane.sessions.asked := by
    have hmod := Nat.mod_le lane.sessions.asked (2 ^ 32)
    rw [hslots, List.length_map]
    rw [h.seats, Pool.numbered] at hcount
    rw [List.length_cons] at hperm
    omega
  have hdesks : lane.requests.capacity = lane.sessions.asked * lane.scenario.maxBranches := by
    rw [h.desks, Pool.numbered, Nat.mod_eq_of_lt hsmall, h.asked]
  calc others.length + lane.scenario.maxBranches
      ≤ lane.scenario.maxBranches * slots.length + lane.scenario.maxBranches :=
        Nat.add_le_add_right hle _
    _ = lane.scenario.maxBranches * (slots.length + 1) := (Nat.mul_succ _ _).symm
    _ ≤ lane.scenario.maxBranches * lane.sessions.asked := Nat.mul_le_mul_left _ hseats
    _ = lane.requests.capacity := by rw [hdesks, Nat.mul_comm]

lemma drive_of_free {slot : Nat} (hs : lane.sessions.get? slot = none) (phase : Nat) (now : Nanos)
    (act : Stage → Turn → Turn × Verdict) : lane.drive phase now slot act = (lane, [], .alive) := by
  unfold Lane.drive
  simp only [hs]

lemma drive_acquired {slot : Nat} {s : Session} (hs : lane.sessions.get? slot = some s)
    (phase : Nat) (now : Nanos) {act : Stage → Turn → Turn × Verdict} {t : Turn} {verdict : Verdict}
    (hact : act ⟨lane.scenario, phase, now⟩ ⟨s, lane.requests, lane.recorder, []⟩ = (t, verdict)) :
    (lane.drive phase now slot act).1.sessions.acquired.Perm
      (if verdict.isEnded then lane.sessions.others slot
        else (slot, t.session) :: lane.sessions.others slot) := by
  unfold Lane.drive
  simp only [hs, hact]
  cases verdict with
  | ended how =>
    have hget : (lane.sessions.update slot fun _ => t.session).get? slot = some t.session := by
      rw [Pool.update_get?, if_pos rfl, hs]
      rfl
    obtain ⟨q, hq⟩ := Pool.release_of_get? (Session.recycle lane.scenario) hget
    simp only [free, hq]
    exact (Pool.release_acquired hq).trans (Pool.update_others hs _)
  | alive | broken => exact Pool.update_acquired hs _

lemma drive_eq (hsound : lane.sessions.Sound) {slot : Nat} {s : Session}
    (hs : lane.sessions.get? slot = some s) (phase : Nat) (now : Nanos)
    {act : Stage → Turn → Turn × Verdict} {t : Turn} {verdict : Verdict}
    (hact : act ⟨lane.scenario, phase, now⟩ ⟨s, lane.requests, lane.recorder, []⟩ = (t, verdict)) :
    ∃ sessions, lane.drive phase now slot act =
        ({ lane with sessions, requests := t.requests, recorder := t.recorder }, t.effects,
          verdict) ∧
      sessions.Sound ∧ sessions.asked = lane.sessions.asked ∧
      sessions.capacity = lane.sessions.capacity ∧
      (∀ j, sessions.item? j =
        if j = slot then some (verdict.leaves lane.scenario t.session)
        else lane.sessions.item? j) ∧
      ∀ j, sessions.isAcquired j =
        if j = slot then !verdict.isEnded else lane.sessions.isAcquired j := by
  obtain ⟨hheld, hitem⟩ := Pool.get?_eq_some.mp hs
  have hkept : ∀ j, (lane.sessions.update slot fun _ => t.session).item? j =
      if j = slot then some t.session else lane.sessions.item? j := by
    intro j
    rw [Pool.update_item?]
    by_cases hj : j = slot
    · rw [hj, if_pos ⟨rfl, hheld⟩, if_pos rfl, hitem]
      rfl
    · rw [if_neg fun hf => hj hf.1, if_neg hj]
  have hupdated := Pool.update_sound hsound slot fun _ => t.session
  unfold Lane.drive
  simp only [hs, hact]
  cases verdict with
  | ended how =>
    have hget : (lane.sessions.update slot fun _ => t.session).get? slot = some t.session := by
      rw [Pool.update_get?, if_pos rfl, hs]
      rfl
    obtain ⟨q, hq⟩ := Pool.release_of_get? (Session.recycle lane.scenario) hget
    refine ⟨q, by simp only [free, hq], Pool.release_sound hq hupdated, ?_, ?_, ?_, ?_⟩
    · rw [Pool.release_asked hq, Pool.update_asked]
    · rw [Pool.release_capacity hq, Pool.update_capacity]
    · intro j
      rw [Pool.release_item? hq, hkept]
      by_cases hj : j = slot <;> simp [hj, Verdict.leaves]
    · intro j
      rw [Pool.release_isAcquired hq, Pool.update_isAcquired]
      by_cases hj : j = slot <;> simp [hj, Verdict.isEnded]
  | alive | broken =>
    refine ⟨_, rfl, hupdated, Pool.update_asked .., Pool.update_capacity .., hkept, ?_⟩
    intro j
    rw [Pool.update_isAcquired]
    by_cases hj : j = slot
    · rw [hj, hheld, if_pos rfl]
      rfl
    · rw [if_neg hj]

section Drive

variable {now : Nanos} {slot : Nat} {cause : Cause} {timers : List Timer} {s : Session}

lemma Books.opens (h : lane.Books phase reached weight pages (cause.opening slot))
    (hs : lane.sessions.get? slot = some s)
    (htimers : (pages slot).timers = cause.timer?.toList ++ timers)
    (hclock : ∀ op, s.nextOp ≤ op → (pages slot).since op = now)
    (haddress : ∀ tag, cause.tag? = some tag → tag.phase = phase ∧ tag.slot = slot) :
    Turn.Opens ⟨lane.scenario, phase, now⟩ reached weight cause (pages slot).flights timers
      (pages slot).since ⟨s, lane.requests, lane.recorder, []⟩ := by
  obtain ⟨hheld, hitem⟩ := Pool.get?_eq_some.mp hs
  have hplaced := h.placed slot s hitem
  have hlive := h.live slot s hitem
  refine ⟨⟨hplaced.sound, h.requests, hplaced.keeps⟩, ?_, hclock, rfl, ?_, ?_, ?_⟩
  · rw [← htimers]
    exact hplaced.booked
  · intro hcause
    exact hlive.mpr ⟨hheld, fun hopening => hcause (Cause.opening_eq_some.mp hopening).1⟩
  · intro hcause
    refine h.vacant slot s hitem (Bool.eq_false_iff.mpr fun hf => ?_)
    rw [hcause] at hlive
    exact (hlive.mp hf).2 rfl
  · intro tag htag
    rw [hplaced.slot]
    exact haddress tag htag

lemma Books.free {opening : Option Nat} (h : lane.Books phase reached weight pages opening)
    (hfree : lane.sessions.isAcquired slot = false) :
    (∀ s, lane.sessions.item? slot = some s → s.branches = []) ∧
      ∀ f ∈ (pages slot).flights, f.isPending = false := by
  have hempty : ∀ s, lane.sessions.item? slot = some s → s.branches = [] := by
    intro s hitem
    refine h.vacant slot s hitem (Bool.eq_false_iff.mpr fun hlive => ?_)
    rw [h.live slot s hitem, hfree] at hlive
    cases hlive.1
  refine ⟨hempty, fun f hf => ?_⟩
  cases hitem : lane.sessions.item? slot with
  | none =>
    rw [h.blank slot hitem] at hf
    cases hf
  | some s =>
    refine (h.placed slot s hitem).booked.not_pending (fun k => ?_) f hf
    rw [hempty s hitem]
    rfl

lemma Books.drive_free (h : lane.Books phase reached weight pages (cause.opening slot))
    (hs : lane.sessions.get? slot = none)
    (htimers : (pages slot).timers = cause.timer?.toList ++ timers) :
    Driven phase reached weight pages now slot cause timers lane lane [] .alive := by
  have hfree : lane.sessions.isAcquired slot = false := by
    by_contra hheld
    obtain ⟨s, hf⟩ := Pool.isAcquired_iff.mp (Bool.eq_true_of_not_eq_false hheld)
    rw [hs] at hf
    cases hf
  obtain ⟨hempty, hquiet⟩ := h.free hfree
  have hheard : (pages slot).flights.map (Flight.hear now cause) = (pages slot).flights := by
    rw [List.map_congr_left fun f hf => Flight.hear_of_not_pending (hquiet f hf)]
    exact List.map_id' _
  have hflights : ((pages slot).turned now cause timers [] .alive).flights =
      (pages slot).flights := by
    change (List.map _ _ ++ []).map id = _
    rw [List.map_id, List.append_nil, hheard]
  have hrest : ((pages slot).turned now cause timers [] .alive).timers = timers := by
    change timers ++ [] = timers
    rw [List.append_nil]
  refine ⟨?_, rfl, rfl, rfl, ?_, (fun x hx => by cases hx), (fun timer htimer => by cases htimer),
    (fun _ fault hf => by cases hf), ?_, fun hf => by cases hf⟩
  · have hturned : lane.Books phase reached weight (fun j =>
        if j = slot then (pages j).turned now cause timers [] .alive else pages j)
        (cause.opening slot) := by
      refine h.turn_pages ?_ ?_
      · intro j s hitem hbooked
        by_cases hj : j = slot
        · subst hj
          rw [if_pos rfl, hflights, hrest]
          refine hbooked.of_vacant (hempty s hitem) ?_
          rw [htimers]
          exact List.sublist_append_right _ _
        · rw [if_neg hj]
          exact hbooked
      · intro j hj
        split
        · rename_i heq
          subst heq
          rw [hflights, hj]
        · exact hj
    refine { hturned with live := fun j s hitem => ?_ }
    rw [h.live j s hitem]
    constructor
    · exact fun hlive => ⟨hlive.1, by simp⟩
    · rintro ⟨hheld, -⟩
      refine ⟨hheld, fun hopening => ?_⟩
      rw [(Cause.opening_eq_some.mp hopening).2, hfree] at hheld
      cases hheld
  · rw [List.filterMap_eq_nil_iff.mpr]
    · rfl
    · intro f hf
      rw [Flight.recording?, Flight.settles?_of_not_pending (hquiet f hf)]
      rfl
  · intro _ hresting j s hj _
    refine hresting j s hj fun hopening => ?_
    rw [(Cause.opening_eq_some.mp hopening).2, hs] at hj
    cases hj

lemma Books.of_serves (h : lane.Books phase reached weight pages (cause.opening slot))
    (hs : lane.sessions.get? slot = some s) {t : Turn} {verdict : Verdict}
    (ht : Turn.Serves ⟨lane.scenario, phase, now⟩ reached weight cause (pages slot).flights timers
      (pages slot).since ⟨s, lane.requests, lane.recorder, []⟩ t verdict) {sessions : Pool Session}
    (hsound : sessions.Sound) (hasked : sessions.asked = lane.sessions.asked)
    (hcapacity : sessions.capacity = lane.sessions.capacity)
    (hitem : ∀ j, sessions.item? j = if j = slot then some (verdict.leaves lane.scenario t.session)
      else lane.sessions.item? j)
    (hacquired : ∀ j, sessions.isAcquired j =
      if j = slot then !verdict.isEnded else lane.sessions.isAcquired j) :
    ({ lane with sessions, requests := t.requests, recorder := t.recorder } : Lane).Books phase
      reached weight (fun j =>
        if j = slot then (pages j).turned now cause timers t.effects verdict else pages j)
      none := by
  have hslot : s.slot = slot := (h.placed slot s (Pool.get?_eq_some.mp hs).2).slot
  -- A session in the pool is the one that took the turn, or another one that is as it was.
  have hcases : ∀ j s', sessions.item? j = some s' →
      (j = slot ∧ s' = verdict.leaves lane.scenario t.session) ∨
        (j ≠ slot ∧ lane.sessions.item? j = some s') := by
    intro j s' hj
    rw [hitem] at hj
    split at hj
    · rename_i heq
      exact .inl ⟨heq, (Option.some.inj hj).symm⟩
    · rename_i hne
      exact .inr ⟨hne, hj⟩
  constructor
  case scenario => exact h.scenario
  case sessions => exact hsound
  case requests => exact ht.pool
  case placed =>
    intro j s' hj
    obtain ⟨rfl, rfl⟩ | ⟨hne, hj⟩ := hcases j s' hj
    · rw [if_pos rfl]
      exact ⟨(verdict.leaves_slot ..).trans (ht.slot.trans hslot), ht.sound, ht.keeps, ht.booked⟩
    · rw [if_neg hne]
      refine (h.placed j s' hj).spare fun r record hrecord => ht.spares r record ?_
      rw [hrecord, hslot]
      exact fun heq => hne (Option.some.inj heq)
  case live =>
    intro j s' hj
    rw [hacquired]
    obtain ⟨rfl, rfl⟩ | ⟨hne, hj⟩ := hcases j s' hj
    · rw [if_pos rfl, verdict.leaves_isLive _ ht.live]
      simp
    · rw [if_neg hne, h.live j s' hj]
      simp [Cause.opening_eq_some, hne]
  case vacant =>
    intro j s' hj hdead
    obtain ⟨rfl, rfl⟩ | ⟨-, hj⟩ := hcases j s' hj
    · rw [verdict.leaves_isLive _ ht.live, Bool.not_eq_false'] at hdead
      exact Verdict.leaves_branches hdead
    · exact h.vacant j s' hj hdead
  case owners =>
    intro r record hr
    by_cases hown : record.session = some slot
    · refine ⟨slot, hown, ?_⟩
      rw [hacquired, if_pos rfl, Bool.not_eq_true']
      by_contra hended
      rw [Bool.not_eq_false] at hended
      have hkept : record.session = some (verdict.leaves lane.scenario t.session).slot := by
        rw [hown, verdict.leaves_slot, ht.slot, hslot]
      obtain ⟨k, id, step, hk⟩ := ht.keeps.owned r record hr hkept
      rw [Verdict.leaves_branches hended] at hk
      cases hk
    · have hbefore := (ht.spares r record (by rw [hslot]; exact hown)).mp hr
      obtain ⟨j, hj, hheldj⟩ := h.owners r record hbefore
      refine ⟨j, hj, ?_⟩
      rw [hacquired, if_neg]
      · exact hheldj
      · rintro rfl
        exact hown hj
  case blank =>
    intro j hj
    rw [hitem] at hj
    split at hj
    · cases hj
    · rename_i hne
      rw [if_neg hne]
      exact h.blank j hj
  case asked =>
    rw [ht.asked, hasked]
    exact h.asked
  case seats =>
    rw [hcapacity, hasked]
    exact h.seats
  case desks =>
    rw [ht.capacity, ht.asked]
    exact h.desks

lemma Books.act_resting (h : lane.Books phase reached weight pages (cause.opening slot))
    (hs : lane.sessions.get? slot = some s) {t : Turn} {verdict : Verdict}
    (ht : Turn.Serves ⟨lane.scenario, phase, now⟩ reached weight cause (pages slot).flights timers
      (pages slot).since ⟨s, lane.requests, lane.recorder, []⟩ t verdict)
    (hact : cause.act ⟨lane.scenario, phase, now⟩ ⟨s, lane.requests, lane.recorder, []⟩ =
      (t, verdict))
    (hsmall : lane.requests.asked < 2 ^ 32) (hresting : lane.Resting (cause.opening slot))
    (hgoes : verdict.isEnded = false) : (verdict.leaves lane.scenario t.session).Resting := by
  have hrested : cause = .start ∨ s.Resting := by
    by_cases hcause : cause = .start
    · exact .inl hcause
    · exact .inr (hresting slot s hs fun hopening => hcause (Cause.opening_eq_some.mp hopening).1)
  cases verdict with
  | alive => exact ht.resting hrested rfl
  | ended how => cases hgoes
  | broken fault =>
    -- There is room for the requests, so it is for a wait that has not begun; that does nothing.
    by_cases hknown : cause.Known s
    · exact absurd (h.roomy hsmall hs) (ht.unbroken hknown fault rfl).2
    · unfold Cause.Known at hknown
      push Not at hknown
      obtain ⟨tag, htag, hnot⟩ := hknown
      obtain ⟨fault', hout⟩ : ∃ fault', cause.act ⟨lane.scenario, phase, now⟩
          ⟨s, lane.requests, lane.recorder, []⟩ =
            (⟨s, lane.requests, lane.recorder, []⟩, .broken fault') :=
        Turn.act_of_unknown htag hnot
      rw [hact] at hout
      cases hout
      refine hrested.resolve_left ?_
      rintro rfl
      cases htag

/-- Whatever comes for a slot, the books of the lane stay right. -/
theorem Books.drive (h : lane.Books phase reached weight pages (cause.opening slot))
    (htimers : (pages slot).timers = cause.timer?.toList ++ timers)
    (hclock : ∀ s, lane.sessions.item? slot = some s → ∀ op, s.nextOp ≤ op →
      (pages slot).since op = now)
    (haddress : ∀ tag, cause.tag? = some tag → tag.phase = phase ∧ tag.slot = slot) :
    Driven phase reached weight pages now slot cause timers lane
      (lane.drive phase now slot cause.act).1 (lane.drive phase now slot cause.act).2.1
      (lane.drive phase now slot cause.act).2.2 := by
  cases hs : lane.sessions.get? slot with
  | none =>
    rw [drive_of_free hs]
    exact h.drive_free hs htimers
  | some s =>
    obtain ⟨hheld, hitem⟩ := Pool.get?_eq_some.mp hs
    have hopens := h.opens hs htimers (hclock s hitem) haddress
    have hserves := Turn.act_serves (by exact h.scenario) hopens
    generalize hact : cause.act ⟨lane.scenario, phase, now⟩ ⟨s, lane.requests, lane.recorder, []⟩ =
      out at hserves
    obtain ⟨t, verdict⟩ := out
    obtain ⟨sessions, hdrive, hsound, hasked, hcapacity, hitems, hacquired⟩ :=
      drive_eq h.sessions hs phase now hact
    rw [hdrive]
    have hslot : s.slot = slot := (h.placed slot s hitem).slot
    refine ⟨h.of_serves hs hserves hsound hasked hcapacity hitems hacquired, rfl, hcapacity,
      hserves.asked, hserves.recorder, ?_, ?_, ?_, ?_, hserves.whole⟩
    · rw [← hslot]
      exact hserves.calls
    · rw [← hslot]
      exact hserves.timersOwn
    · intro hknown fault hfault
      obtain ⟨hfull, hroom⟩ := hserves.unbroken (hknown s hs) fault hfault
      refine ⟨hfull, ?_⟩
      by_contra hlt
      exact hroom (h.roomy (Nat.lt_of_not_le hlt) hs)
    · intro hsmall hresting j s' hj _
      obtain ⟨hheldj, hitemj⟩ := Pool.get?_eq_some.mp hj
      change sessions.isAcquired j = true at hheldj
      change sessions.item? j = some s' at hitemj
      rw [hitems] at hitemj
      rw [hacquired] at hheldj
      split at hitemj
      · rename_i heq
        subst heq
        rw [if_pos rfl, Bool.not_eq_true'] at hheldj
        cases hitemj
        exact h.act_resting hs hserves hact hsmall hresting hheldj
      · rename_i hne
        rw [if_neg hne] at hheldj
        exact hresting j s' (Pool.get?_eq_some.mpr ⟨hheldj, hitemj⟩) fun hopening =>
          hne (Cause.opening_eq_some.mp hopening).2

end Drive

end Lane

end LoadEngine
