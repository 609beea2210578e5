import LoadEngine.Proofs.TurnSettle
import Mathlib.Data.List.Perm.Subperm

/-! What a turn comes to, whatever set it off. The slot is left in order, for the session that is in
it or for the next one; the books agree with it; and what was kept for others is untouched. -/

namespace LoadEngine

open Rehearsal (issues schedules)

namespace Cause

def timer? : Cause → Option Timer
  | timer due => some due
  | _ => none

lemma tag?_of_timer? {cause : Cause} {due : Timer} (h : cause.timer? = some due) :
    cause.tag? = some due.tag := by
  cases cause with
  | timer due' =>
    cases h
    rfl
  | _ => cases h

def Known (cause : Cause) (s : Session) : Prop := ∀ tag, cause.tag? = some tag → s.Knows tag

end Cause

namespace Verdict

def isEnded : Verdict → Bool
  | ended _ => true
  | _ => false

def leaves (sc : Scenario) (s : Session) : Verdict → Session
  | ended _ => s.recycle sc
  | _ => s

def closes : Verdict → Flight → Flight
  | ended how => .forsake how
  | _ => id

end Verdict

def Flight.recording? (now : Nanos) (cause : Cause) (f : Flight) : Option Recording :=
  (f.settles? now cause).map (.sample f.operation.metric)

/-- Every branch that has not finished waits, and not only for others. -/
structure Session.Resting (s : Session) : Prop where
  state : s.state = .suspended
  still : ∀ b ∈ s.branches, b.wait ≠ .runnable
  waits : ∃ k a, awaits s.branches k = some a

def Turn.others (t : Turn) : List (Nat × Request) :=
  t.requests.acquired.filter fun x => x.2.session != some t.session.slot

def Turn.Roomy (sc : Scenario) (t : Turn) : Prop :=
  t.others.length + sc.maxBranches ≤ t.requests.capacity

/-- What is promised of a turn. -/
structure Turn.Serves (stage : Stage) (reached : Nat → Prop) (weight : Nat → Nat) (cause : Cause)
    (flights : List Flight) (timers : List Timer) (since : Nat → Nanos) (t t' : Turn)
    (verdict : Verdict) : Prop where
  slot : t'.session.slot = t.session.slot
  nextOp : t.session.nextOp ≤ t'.session.nextOp
  live : verdict.isEnded = false → t'.session.state.isLive = true
  sound : Session.Sound stage.scenario reached weight (verdict.leaves stage.scenario t'.session)
  pool : t'.requests.Sound
  keeps : (verdict.leaves stage.scenario t'.session).Keeps t'.requests
  booked : (verdict.leaves stage.scenario t'.session).Booked stage.scenario stage.phase
    t'.requests
    ((flights.map (Flight.hear stage.now cause) ++ fresh stage.now t'.effects).map verdict.closes)
    (timers ++ schedules t'.effects) since
  capacity : t'.requests.capacity = t.requests.capacity
  asked : t'.requests.asked = t.requests.asked
  spares : ∀ r record, record.session ≠ some t.session.slot →
    (t'.requests.get? r = some record ↔ t.requests.get? r = some record)
  recorder : t'.recorder = (flights.filterMap (Flight.recording? stage.now cause) ++
    requestsOf t'.effects).foldl Recorder.enter t.recorder
  calls : ∀ x ∈ issues t'.effects, x.2.phase = stage.phase ∧ x.2.slot = t.session.slot
  timersOwn : ∀ timer ∈ schedules t'.effects,
    timer.tag.phase = stage.phase ∧ timer.tag.slot = t.session.slot
  resting : (cause = .start ∨ t.session.Resting) → verdict = .alive → t'.session.Resting
  unbroken : cause.Known t.session → ∀ fault, verdict = .broken fault →
    fault = .requestOverflow stage.phase t.requests.capacity ∧ ¬ t.Roomy stage.scenario
  whole : verdict = .ended .completed →
    ∀ f ∈ flights.map (Flight.hear stage.now cause) ++ fresh stage.now t'.effects,
      f.isPending = false

structure Turn.Opens (stage : Stage) (reached : Nat → Prop) (weight : Nat → Nat) (cause : Cause)
    (flights : List Flight) (timers : List Timer) (since : Nat → Nanos) (t : Turn) : Prop where
  coherent : t.Coherent stage.scenario reached weight
  booked : t.session.Booked stage.scenario stage.phase t.requests flights
    (cause.timer?.toList ++ timers) since
  clock : ∀ op, t.session.nextOp ≤ op → since op = stage.now
  effects : t.effects = []
  live : cause ≠ .start → t.session.state.isLive = true
  vacant : cause = .start → t.session.branches = []
  address : ∀ tag, cause.tag? = some tag → tag.phase = stage.phase ∧ tag.slot = t.session.slot

structure Turn.Leads (stage : Stage) (cause : Cause) (flights : List Flight) (t t₀ : Turn) :
    Prop where
  slot : t₀.session.slot = t.session.slot
  generation : t₀.session.generation = t.session.generation
  nextOp : t₀.session.nextOp = t.session.nextOp
  capacity : t₀.requests.capacity = t.requests.capacity
  asked : t₀.requests.asked = t.requests.asked
  spares : ∀ r record, record.session ≠ some t.session.slot →
    (t₀.requests.get? r = some record ↔ t.requests.get? r = some record)
  recorder : t₀.recorder =
    (flights.filterMap (Flight.recording? stage.now cause)).foldl Recorder.enter t.recorder
  effects : t₀.effects = []

section Recycle

variable {sc : Scenario} {reached : Nat → Prop} {weight : Nat → Nat} {s : Session}

lemma awaits_nil (k : Nat) : awaits [] k = none := rfl

lemma Session.recycle_sound (sc : Scenario) (reached : Nat → Prop) (weight : Nat → Nat)
    (s : Session) : Session.Sound sc reached weight (s.recycle sc) where
  tree := by constructor <;> simp [Session.recycle]
  growth := Nat.zero_le _
  typed := typed_initial sc
  below k a op ha := by cases ha
  distinct k k' a a' ha := by cases ha

lemma Session.Booked.recycle {phase : Nat} {s s' : Session} {requests requests' : Pool Request}
    {flights : List Flight} {timers : List Timer} {since : Nat → Nanos}
    (h : s.Booked sc phase requests flights timers since) (how : SessionEnd)
    (hgeneration : s.generation ≤ s'.generation) (hnext : s.nextOp ≤ s'.nextOp) :
    (s'.recycle sc).Booked sc phase requests' (flights.map (Flight.forsake how)) timers since where
  flies f hf body hbody := by
    obtain ⟨g, -, rfl⟩ := List.mem_map.mp hf
    have hpending := g.forsake_isPending how
    rw [Flight.isPending_iff.mpr ⟨body, hbody⟩] at hpending
    cases hpending
  flown k id step op r hk := by cases hk
  alarms k a hk := by cases hk
  flightOps := by
    rw [List.map_map]
    simpa [Function.comp_def] using h.flightOps
  timerOps := h.timerOps
  flightsKnown f hf := by
    obtain ⟨g, hg, rfl⟩ := List.mem_map.mp hf
    rw [Flight.forsake_tag]
    exact (h.flightsKnown g hg).mono hgeneration hnext
  timersKnown timer htimer := (h.timersKnown timer htimer).mono hgeneration hnext

lemma awaits_of_done {l : List Branch} (h : l.all Branch.isDone = true) (k : Nat) :
    awaits l k = none := by
  rw [Option.eq_none_iff_forall_ne_some]
  intro a ha
  obtain ⟨b, hb, -, -, hw⟩ := Turn.exists_of_awaits ha
  obtain ⟨op, hop⟩ := Session.exists_number ha
  have hdone := List.all_eq_true.mp h b (List.mem_of_getElem? hb)
  rw [Branch.isDone, hw] at hdone
  cases hwait : a.wait with
  | done =>
    rw [hwait] at hop
    cases hop
  | _ =>
    rw [hwait] at hdone
    cases hdone

end Recycle

lemma Tree.exists_awaits {sc : Scenario} {reached : Nat → Prop} {l : List Branch}
    (h : Tree sc reached l) (hstill : ∀ b ∈ l, b.wait ≠ .runnable)
    (hlive : l.all Branch.isDone = false) : ∃ k a, awaits l k = some a := by
  by_contra hnone
  have hdone : ∀ n i b, l.length - i ≤ n → l[i]? = some b → b.isDone = true := by
    intro n
    induction n with
    | zero =>
      intro i b hn hb
      have hlt := (List.getElem?_eq_some_iff.mp hb).1
      omega
    | succ n ih =>
      intro i b hn hb
      cases hw : b.wait with
      | runnable => exact absurd hw (hstill b (List.mem_of_getElem? hb))
      | operation op r => exact absurd ⟨i, _, Turn.awaits_of_request hb hw⟩ hnone
      | delay op => exact absurd ⟨i, _, Turn.awaits_of_delay hb hw⟩ hnone
      | done => rw [Branch.isDone, hw]; rfl
      | join =>
        -- a branch that it waits for came later, and is done
        have hwaits := h.waits b (List.mem_of_getElem? hb)
        rw [Branch.Waits, hw, h.children i b hb] at hwaits
        obtain ⟨c, hc, hparent⟩ := List.countP_pos_iff.mp hwaits.2
        rw [Bool.and_eq_true, beq_iff_eq, Bool.not_eq_true'] at hparent
        obtain ⟨j, hj⟩ := List.mem_iff_getElem?.mp hc
        have hlt := h.parent j c i hj hparent.1
        have hcdone := ih j c (by omega) hj
        rw [hparent.2] at hcdone
        cases hcdone
  rw [Bool.eq_false_iff] at hlive
  apply hlive
  rw [List.all_eq_true]
  intro b hb
  obtain ⟨i, hi⟩ := List.mem_iff_getElem?.mp hb
  exact hdone _ i b (Nat.le_refl _) hi

namespace Turn

variable {stage : Stage} {reached : Nat → Prop} {weight : Nat → Nat} {cause : Cause}
  {flights : List Flight} {timers : List Timer} {since : Nat → Nanos} {t t₀ t₁ : Turn}

lemma others_perm (h : ∀ r record, record.session ≠ some t.session.slot →
      (t₁.requests.get? r = some record ↔ t.requests.get? r = some record))
    (hslot : t₁.session.slot = t.session.slot) : t₁.others.Perm t.others := by
  unfold others
  rw [List.perm_ext_iff_of_nodup (t₁.requests.acquired_nodup.filter _)
    (t.requests.acquired_nodup.filter _)]
  rintro ⟨r, record⟩
  rw [List.mem_filter, List.mem_filter, Pool.mem_acquired, Pool.mem_acquired, hslot]
  simp only [bne_iff_ne]
  constructor
  · rintro ⟨hr, hne⟩
    exact ⟨(h r record hne).mp hr, hne⟩
  · rintro ⟨hr, hne⟩
    exact ⟨(h r record hne).mpr hr, hne⟩

lemma Owns.length_own_le (h : t.Owns) :
    (t.requests.acquired.filter fun x => !(x.2.session != some t.session.slot)).length ≤
      (t.session.branches.filterMap Branch.request?).length := by
  have hnodup : ((t.requests.acquired.filter fun x =>
      !(x.2.session != some t.session.slot)).map Prod.fst).Nodup :=
    t.requests.acquired_slots_nodup.sublist (List.filter_sublist.map _)
  have hsub : ((t.requests.acquired.filter fun x =>
      !(x.2.session != some t.session.slot)).map Prod.fst) ⊆
        t.session.branches.filterMap Branch.request? := by
    intro r hr
    obtain ⟨⟨r, record⟩, hx, rfl⟩ := List.mem_map.mp hr
    obtain ⟨hmem, hslot⟩ := List.mem_filter.mp hx
    refine h.mem_requests.mpr ⟨record, Pool.mem_acquired.mp hmem, ?_⟩
    simpa using hslot
  have hle := (List.subperm_of_subset hnodup hsub).length_le
  rwa [List.length_map] at hle

lemma Coherent.not_full (h : t.Coherent stage.scenario reached weight)
    (hroom : t.Roomy stage.scenario) {i : Nat} {b : Branch} (hb : t.session.branches[i]? = some b)
    (hrun : b.wait = .runnable) : t.requests.free ≠ [] := by
  intro hfull
  have hown := h.owns.length_own_le
  have hless : (t.session.branches.filterMap Branch.request?).length <
      t.session.branches.length := by
    rw [List.length_filterMap_lt_length_iff_exists]
    exact ⟨b, List.mem_of_getElem? hb, by simp [Branch.request?, hrun]⟩
  have hsplit := List.length_eq_length_filter_add (l := t.requests.acquired)
    fun x => x.2.session != some t.session.slot
  have hall := Pool.length_acquired_add h.pool
  rw [hfull, List.length_nil] at hall
  have hbranches := h.sound.length_le
  unfold Roomy others at hroom
  omega

lemma requests_of_leads (hl : Leads stage cause flights t t₀) (ha : Advances stage t₀ t₁) (r : Nat)
    (record : Request) (h : record.session ≠ some t.session.slot) :
    t₁.requests.get? r = some record ↔ t.requests.get? r = some record :=
  (ha.spares r record (by rw [hl.slot]; exact h)).trans (hl.spares r record h)

lemma recorder_of_leads (hl : Leads stage cause flights t t₀) (ha : Advances stage t₀ t₁) :
    t₁.recorder = (flights.filterMap (Flight.recording? stage.now cause) ++
      requestsOf t₁.effects).foldl Recorder.enter t.recorder := by
  rw [ha.recorder, hl.recorder, List.foldl_append]

lemma Going.serves
    (h : Going stage reached weight (flights.map (Flight.hear stage.now cause)) timers
      since t₀ t₁) (hl : Leads stage cause flights t t₀) {state : SessionState}
    (hstate : state.isLive = true) {verdict : Verdict} (hended : verdict.isEnded = false)
    (hresting : verdict = .alive →
      ({ t₁.session with state } : Session).Resting)
    (hunbroken : ∀ fault, verdict = .broken fault →
      fault = .requestOverflow stage.phase t.requests.capacity ∧ ¬ t.Roomy stage.scenario) :
    Serves stage reached weight cause flights timers since t
      { t₁ with session := { t₁.session with state } } verdict := by
  have hleaves : ∀ s : Session, verdict.leaves stage.scenario s = s := by
    intro s
    cases verdict with
    | ended how => cases hended
    | _ => rfl
  have hcloses : verdict.closes = id := by
    cases verdict with
    | ended how => cases hended
    | _ => rfl
  have hadv := h.advances
  have hrequests := requests_of_leads hl hadv
  have hrecorder := recorder_of_leads hl hadv
  refine ⟨hadv.slot.trans hl.slot, hl.nextOp ▸ hadv.nextOp, fun _ => hstate, ?_, h.coherent.pool,
    ?_,
    ?_, hadv.capacity.trans hl.capacity, hadv.asked.trans hl.asked, hrequests, hrecorder, ?_, ?_,
    fun _ => hresting, fun _ => hunbroken, ?_⟩
  · rw [hleaves]
    obtain ⟨htree, hgrowth, htyped, hbelow, hdistinct⟩ := h.coherent.sound
    exact ⟨htree, hgrowth, htyped, hbelow, hdistinct⟩
  · rw [hleaves]
    exact h.coherent.keeps.congr rfl rfl fun _ _ _ _ _ => Iff.rfl
  · rw [hleaves, hcloses, List.map_id]
    exact h.booked.keep rfl rfl (Nat.le_refl _) (fun _ => rfl) (fun _ _ => rfl)
      (fun _ _ _ hr => hr) fun _ _ => rfl
  · rw [← hl.slot]
    exact hadv.calls
  · rw [← hl.slot]
    exact hadv.timers
  · intro hcompleted
    rw [hcompleted] at hended
    cases hended

lemma close_serves (howns : t₁.Owns) (hadv : Advances stage t₀ t₁)
    (hbooked : t₁.session.Booked stage.scenario stage.phase t₁.requests
      (flights.map (Flight.hear stage.now cause) ++ fresh stage.now t₁.effects)
      (timers ++ schedules t₁.effects) since)
    (hl : Leads stage cause flights t t₀) (how : SessionEnd)
    (hdone : how = .completed → t₁.session.branches.all Branch.isDone = true) :
    Serves stage reached weight cause flights timers since t (t₁.close how).1 (t₁.close how).2 := by
  obtain ⟨t', hclose, hclosed⟩ := howns.close how
  rw [hclose]
  have hslot : t'.session.slot = t₁.session.slot := by rw [hclosed.session]
  have hslots : t₁.session.slot = t.session.slot := hadv.slot.trans hl.slot
  have hnext : t'.session.nextOp = t₁.session.nextOp := by rw [hclosed.session]
  constructor
  case slot => exact hslot.trans hslots
  case nextOp =>
    rw [hnext, ← hl.nextOp]
    exact hadv.nextOp
  case live => exact nofun
  case sound => exact Session.recycle_sound _ _ _ _
  case pool => exact hclosed.pool
  case keeps =>
    constructor
    · intro k id step op r hk
      cases hk
    · intro r record hrecord hown
      exact absurd (hown.trans (congrArg some hslot)) ((hclosed.requests r record).mp hrecord).2
  case booked =>
    rw [hclosed.effects]
    refine hbooked.recycle how ?_ hnext.ge
    rw [hclosed.session]
    exact Nat.le_add_right _ _
  case capacity => exact hclosed.capacity.trans (hadv.capacity.trans hl.capacity)
  case asked => exact hclosed.asked.trans (hadv.asked.trans hl.asked)
  case spares =>
    intro r record hne
    refine ((hclosed.requests r record).trans ?_).trans (requests_of_leads hl hadv r record hne)
    rw [hslots]
    exact and_iff_left hne
  case recorder =>
    rw [hclosed.recorder, hclosed.effects]
    exact recorder_of_leads hl hadv
  case calls =>
    rw [hclosed.effects, ← hl.slot]
    exact hadv.calls
  case timersOwn =>
    rw [hclosed.effects, ← hl.slot]
    exact hadv.timers
  case resting => exact fun _ => nofun
  case unbroken => exact fun _ _ => nofun
  case whole =>
    intro hcompleted
    rw [hclosed.effects]
    exact hbooked.not_pending (awaits_of_done (hdone (Verdict.ended.inj hcompleted)))

lemma still_of_firstRunnable? (h : t₁.session.firstRunnable? = none) :
    ∀ b ∈ t₁.session.branches, b.wait ≠ .runnable := by
  intro b hb hrun
  have hnot := List.findIdx?_eq_none_iff.mp h b hb
  rw [Branch.isRunnable, hrun] at hnot
  cases hnot

lemma run_serves (hsc : stage.scenario.Sound reached weight)
    (h : Going stage reached weight (flights.map (Flight.hear stage.now cause)) timers since t₀
      (t₁.onSession fun s => { s with state := .running }))
    (hl : Leads stage cause flights t t₀) :
    Serves stage reached weight cause flights timers since t (t₁.run stage).1
      (t₁.run stage).2 := by
  have hrests := run_rests hsc (fun _ hg => hg.coherent)
    (fun _ _ _ _ hg hb hrun ht => hg.takes hsc hb hrun ht) h
  generalize t₁.run stage = out at hrests
  cases hrests with
  | waits hg hnone hlive =>
    refine hg.serves hl rfl rfl (fun _ => ⟨rfl, still_of_firstRunnable? hnone, ?_⟩)
      fun fault hf => by cases hf
    exact hg.coherent.sound.tree.exists_awaits (still_of_firstRunnable? hnone) hlive
  | completes hg hdone =>
    exact close_serves hg.coherent.owns hg.advances hg.booked hl .completed fun _ => hdone
  | fails hg =>
    exact close_serves hg.coherent.owns hg.advances hg.booked hl .failed fun hf => by cases hf
  | full hg hb hrun hfull =>
    refine hg.serves hl hg.live rfl (fun hf => by cases hf) fun fault hf => ?_
    cases hf
    refine ⟨by rw [hg.advances.capacity, hl.capacity], fun hroom => ?_⟩
    refine hg.coherent.not_full ?_ hb hrun hfull
    have hperm := others_perm (requests_of_leads hl hg.advances)
      (hg.advances.slot.trans hl.slot)
    unfold Roomy at hroom ⊢
    rw [hperm.length_eq, hg.advances.capacity, hl.capacity]
    exact hroom

end Turn

end LoadEngine
