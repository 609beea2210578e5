import LoadEngine.Proofs.ShardAnswers

/-! The slots of a phase on one shard. Every start looks for a free slot once, and finds none just
when as many sessions are live as the shard has slots; the mark of the pool is the highest number of
sessions that were live at a time since it was last taken back. Whatever else the shard does only
gives slots back. -/

namespace LoadEngine

namespace Pool

variable {α : Type} {p q : Pool α} {slot : Nat}

lemma acquire_maxUsed (hp : p.Sound) (h : (p.acquire).1 = some slot) :
    (p.acquire).2.maxUsed = max p.maxUsed (p.acquired.length + 1) := by
  have hcount := length_acquired_add hp
  unfold acquire at h ⊢
  cases hf : p.free with
  | nil =>
    rw [hf] at h
    cases h
  | cons s rest =>
    have hsize : (p.mark s true).size = p.capacity := by rw [mark, Array.size_modify, capacity]
    have houtstanding : outstanding { p with cells := p.mark s true, free := rest } =
        p.acquired.length + 1 := by
      rw [hf, List.length_cons] at hcount
      simp only [outstanding, capacity, available] at hsize hcount ⊢
      omega
    simp only [houtstanding]

lemma release_maxUsed {reset : α → α} (h : p.release reset slot = .ok q) :
    q.maxUsed = p.maxUsed := by
  unfold release at h
  split at h
  · cases h
  · split at h
    · cases h
      rfl
    · cases h

lemma resetMarks_maxUsed (hp : p.Sound) : p.resetMarks.maxUsed = p.acquired.length := by
  have hcount := length_acquired_add hp
  simp only [resetMarks, outstanding, available]
  omega

end Pool

namespace Lane

variable {lane lane' lane'' : Lane} {slots mark : Nat}

/-- A lane with so many slots, no more than `mark` of which were taken at a time. -/
structure Seats (lane : Lane) (slots mark : Nat) : Prop where
  sound : lane.sessions.Sound
  capacity : lane.sessions.capacity = slots
  marked : lane.sessions.maxUsed = mark
  alive : lane.alive ≤ mark
  room : mark ≤ slots

structure Recedes (lane lane' : Lane) : Prop where
  sound : lane.sessions.Sound → lane'.sessions.Sound
  alive : lane.sessions.Sound → lane'.alive ≤ lane.alive
  capacity : lane'.sessions.capacity = lane.sessions.capacity
  mark : lane'.sessions.maxUsed = lane.sessions.maxUsed

lemma Recedes.refl (lane : Lane) : Recedes lane lane := ⟨id, fun _ => le_rfl, rfl, rfl⟩

lemma Recedes.trans (h : Recedes lane lane') (h' : Recedes lane' lane'') : Recedes lane lane'' where
  sound hsound := h'.sound (h.sound hsound)
  alive hsound := (h'.alive (h.sound hsound)).trans (h.alive hsound)
  capacity := h'.capacity.trans h.capacity
  mark := h'.mark.trans h.mark

lemma Seats.recedes (h : lane.Seats slots mark) (hr : lane.Recedes lane') :
    lane'.Seats slots mark where
  sound := hr.sound h.sound
  capacity := hr.capacity.trans h.capacity
  marked := hr.mark.trans h.marked
  alive := (hr.alive h.sound).trans h.alive
  room := h.room

lemma new_seats (name : String) (scenario : Scenario) (capacity : Nat) (recorder : Recorder) :
    (new name scenario capacity recorder).Seats (Pool.numbered capacity) 0 where
  sound := Pool.new_sound _ _
  capacity := Pool.new_capacity _ _
  marked := rfl
  alive := by rw [alive, new, Pool.new_acquired, List.length_nil]
  room := Nat.zero_le _

lemma Seats.reset (h : lane.Seats slots mark) : lane.reset.Seats slots lane.alive where
  sound := Pool.resetMarks_sound h.sound
  capacity := h.capacity
  marked := Pool.resetMarks_maxUsed h.sound
  alive := le_rfl
  room := h.alive.trans h.room

lemma drive_recedes (lane : Lane) (phase : Nat) (now : Nanos) (slot : Nat)
    (act : Stage → Turn → Turn × Verdict) :
    lane.Recedes (lane.drive phase now slot act).1 := by
  have hkept : (lane.drive phase now slot act).1.sessions.capacity = lane.sessions.capacity ∧
      (lane.drive phase now slot act).1.sessions.maxUsed = lane.sessions.maxUsed ∧
      (lane.drive phase now slot act).1.alive ≤ lane.alive := by
    unfold drive
    cases hs : lane.sessions.get? slot with
    | none => exact ⟨rfl, rfl, le_rfl⟩
    | some session =>
      simp only
      cases hact : act ⟨lane.scenario, phase, now⟩ ⟨session, lane.requests, lane.recorder, []⟩ with
      | mk t verdict =>
        have hlength := lane.sessions.length_update slot fun _ => t.session
        have hcapacity := lane.sessions.update_capacity slot fun _ => t.session
        cases verdict with
        | alive | broken => exact ⟨hcapacity, rfl, hlength.le⟩
        | ended how =>
          have hget : (lane.sessions.update slot fun _ => t.session).get? slot =
              some t.session := by
            rw [Pool.update_get?, if_pos rfl, hs]
            rfl
          obtain ⟨q, hq⟩ := Pool.release_of_get? (Session.recycle lane.scenario) hget
          have hmark := Pool.release_maxUsed hq
          have hreleased := (Pool.release_acquired hq).length_eq
          have hothers := (Pool.acquired_others hget).length_eq
          simp only [free, hq]
          refine ⟨(Pool.release_capacity hq).trans hcapacity, hmark, ?_⟩
          simp only [alive, List.length_cons] at hlength hothers ⊢
          omega
  exact ⟨fun hsound => (drive_alive hsound phase now slot act).1, fun _ => hkept.2.2, hkept.1,
    hkept.2.1⟩

end Lane

/-- A start looks for a slot: how many sessions of the phase are live on the shard, and whether all
slots are taken. -/
structure Attempt where
  there : Nat
  blocked : Bool
deriving DecidableEq, Repr

def Attempt.after (a : Attempt) : Nat := if a.blocked then a.there else a.there + 1

/-- The most sessions that were live right after one of the attempts. -/
def crest (attempts : List Attempt) : Nat := (attempts.map Attempt.after).foldr max 0

lemma crest_cons (a : Attempt) (rest : List Attempt) :
    crest (a :: rest) = max a.after (crest rest) := rfl

lemma crest_append (a b : List Attempt) : crest (a ++ b) = max (crest a) (crest b) := by
  induction a with
  | nil => exact (Nat.zero_max _).symm
  | cons x rest ih => rw [List.cons_append, crest_cons, crest_cons, ih, Nat.max_assoc]

lemma le_crest {attempts : List Attempt} {a : Attempt} (h : a ∈ attempts) :
    a.after ≤ crest attempts := by
  induction attempts with
  | nil => cases h
  | cons x rest ih =>
    rw [crest_cons]
    rcases List.mem_cons.mp h with rfl | h
    · exact le_max_left _ _
    · exact (ih h).trans (le_max_right _ _)

def Deed.seats (index : Nat) : Deed → Bool
  | command (.prepare phase _ _ _) | command (.start phase _) | command (.collect phase true) =>
    phase == index
  | _ => false

def Notice.blockedIn (phase : Nat) : Notice → Nat
  | started index _ _ blocked => if index = phase then blocked else 0
  | _ => 0

def blockedIn (phase : Nat) (notices : List Notice) : Nat :=
  (notices.map (Notice.blockedIn phase)).sum

@[simp] lemma blockedIn_append (phase : Nat) (a b : List Notice) :
    blockedIn phase (a ++ b) = blockedIn phase a + blockedIn phase b := by
  simp [blockedIn]

lemma blockedIn_of_no_start (phase : Nat) {a : List Notice} (h : ∀ n ∈ a, n.isStart = false) :
    blockedIn phase a = 0 := by
  refine sum_of_no_start ?_ h
  intro n hn
  cases n with
  | started => cases hn
  | ended | fault => rfl

def Notice.shard : Notice → Nat
  | started _ shard _ _ | ended _ shard _ | fault shard _ => shard

def Unasked (id : Nat) (outputs : List Output) : Prop :=
  ∀ n ∈ noticesOf outputs, n.isStart = false ∧ n.shard = id

namespace Shard

variable {s s' s'' s₁ : Shard} {now : Nanos} {index slots mark : Nat} {deed : Deed}

def attempts (now : Nanos) (phase : Nat) : Nat → Shard → List Attempt
  | 0, _ => []
  | count + 1, s =>
    match s.acquire phase with
    | (none, _) => ⟨s.alive phase, true⟩ :: attempts now phase count s
    | (some slot, shard) =>
      let (shard, _, verdict) := shard.drive now phase slot Turn.start
      ⟨s.alive phase, false⟩ :: if verdict.isBroken then [] else attempts now phase count shard

def Seats (s : Shard) (index slots mark : Nat) : Prop :=
  ∃ lane, s.lanes.get? index = some lane ∧ lane.Seats slots mark

structure Recedes (index : Nat) (s s' : Shard) : Prop where
  id : s'.id = s.id
  lanes : Option.Rel Lane.Recedes (s.lanes.get? index) (s'.lanes.get? index)

lemma Recedes.of_lanes_eq (hid : s'.id = s.id) (hlanes : s'.lanes = s.lanes) :
    Recedes index s s' := by
  refine ⟨hid, ?_⟩
  rw [hlanes]
  cases s.lanes.get? index with
  | none => exact .none
  | some lane => exact .some (.refl lane)

lemma Recedes.refl (s : Shard) : Recedes index s s := .of_lanes_eq rfl rfl

lemma Recedes.trans (h : Recedes index s s') (h' : Recedes index s' s'') :
    Recedes index s s'' := by
  refine ⟨h'.id.trans h.id, ?_⟩
  have hlanes := h.lanes
  have hlanes' := h'.lanes
  generalize s.lanes.get? index = a at hlanes ⊢
  generalize s'.lanes.get? index = b at hlanes hlanes'
  generalize s''.lanes.get? index = c at hlanes' ⊢
  cases hlanes with
  | none =>
    cases hlanes'
    exact .none
  | some hl =>
    cases hlanes' with
    | some hl' => exact .some (hl.trans hl')

lemma Recedes.insert_other {phase : Nat} (hne : phase ≠ index) (lane : Lane) :
    Recedes index s { s with lanes := s.lanes.insert phase lane } := by
  refine ⟨rfl, ?_⟩
  simp only [OrderedMap.get?_insert_ne _ _ hne.symm]
  exact (Recedes.refl s).lanes

lemma Seats.recedes (h : s.Seats index slots mark) (hr : Recedes index s s') :
    s'.Seats index slots mark := by
  obtain ⟨lane, hlane, hseats⟩ := h
  have hlanes := hr.lanes
  rw [hlane] at hlanes
  cases hlane' : s'.lanes.get? index with
  | none =>
    rw [hlane'] at hlanes
    cases hlanes
  | some lane' =>
    rw [hlane'] at hlanes
    cases hlanes with
    | some hl => exact ⟨lane', hlane', hseats.recedes hl⟩

lemma Seats.alive_le (h : s.Seats index slots mark) : s.alive index ≤ mark := by
  obtain ⟨lane, hlane, hseats⟩ := h
  simp only [alive, hlane]
  exact hseats.alive

lemma Seats.alive_recedes (h : s.Seats index slots mark) (hr : Recedes index s s') :
    s'.alive index ≤ s.alive index := by
  obtain ⟨lane, hlane, hseats⟩ := h
  have hlanes := hr.lanes
  simp only [alive, hlane] at hlanes ⊢
  cases hlane' : s'.lanes.get? index with
  | none => exact Nat.zero_le _
  | some lane' =>
    rw [hlane'] at hlanes
    cases hlanes with
    | some hl => exact hl.alive hseats.sound

lemma drive_recedes (s : Shard) (now : Nanos) (phase slot : Nat)
    (act : Stage → Turn → Turn × Verdict) :
    Recedes index s (s.drive now phase slot act).1 := by
  unfold drive
  cases hlane : s.lanes.get? phase with
  | none => exact .refl s
  | some lane =>
    refine Recedes.trans ?_ (.of_lanes_eq (by rw [carryOut_frame]) (carryOut_lanes _ _))
    by_cases hp : phase = index
    · subst hp
      refine ⟨rfl, ?_⟩
      rw [hlane, OrderedMap.get?_insert_self]
      exact .some (lane.drive_recedes phase now slot act)
    · exact .insert_other hp _

lemma visit_recedes (s : Shard) (now : Nanos) (phase slot : Nat)
    (act : Stage → Turn → Turn × Verdict) : Recedes index s (s.visit now phase slot act).1 :=
  s.drive_recedes now phase slot act

lemma recedes_prevails (index : Nat) : Prevails fun s _ s' => Recedes index s s' :=
  GoesOn.prevails ⟨.refl, Recedes.trans⟩ (fun _ _ => .of_lanes_eq rfl rfl) visit_recedes

lemma start_recedes {phase : Nat} (hne : phase ≠ index) (s : Shard) (now : Nanos) (count : Nat) :
    Recedes index s (s.start now phase count).1 := by
  have hstart {s s₁ : Shard} {slot : Nat} (ha : s.acquire phase = (some slot, s₁)) :
      Recedes index s (s₁.drive now phase slot Turn.start).1 := by
    obtain ⟨lane, sessions, -, -, rfl⟩ := acquire_eq_some ha
    exact (Recedes.insert_other hne _).trans (drive_recedes _ now phase slot Turn.start)
  obtain ⟨-, -, hlaunch⟩ :=
    (recedes_prevails index).launch now phase hstart count ⟨s, [], 0, 0, []⟩
  exact hlaunch

lemma Seats.acquire_none (h : s.Seats index slots mark) (hnone : (s.acquire index).1 = none) :
    s.alive index = slots := by
  obtain ⟨lane, hlane, hseats⟩ := h
  have hcount := Pool.length_acquired_add hseats.sound
  unfold acquire at hnone
  simp only [hlane] at hnone
  rw [(Pool.acquire_none hnone).1, hseats.capacity, List.length_nil, Nat.add_zero] at hcount
  simp only [alive, hlane]
  exact hcount

lemma Seats.acquire_some {slot : Nat} (h : s.Seats index slots mark)
    (ha : s.acquire index = (some slot, s₁)) :
    s.alive index < slots ∧ s₁.Seats index slots (max mark (s.alive index + 1)) ∧
      s₁.id = s.id ∧ s₁.alive index = s.alive index + 1 := by
  obtain ⟨lane, hlane, hseats⟩ := h
  obtain ⟨lane', sessions, hlane', hacquire, rfl⟩ := acquire_eq_some ha
  rw [hlane, Option.some.injEq] at hlane'
  subst hlane'
  have hslot : lane.sessions.acquire.1 = some slot := by rw [hacquire]
  have hsessions : lane.sessions.acquire.2 = sessions := by rw [hacquire]
  obtain ⟨-, a, ha⟩ := Pool.acquire_fresh hseats.sound hslot
  have hlength := (Pool.acquire_acquired hseats.sound hslot ha).length_eq
  have hmark := Pool.acquire_maxUsed hseats.sound hslot
  have hcapacity := lane.sessions.acquire_capacity
  have hsound := Pool.acquire_sound hseats.sound
  have hcount := Pool.length_acquired_add hseats.sound
  obtain ⟨rest, hfree, -⟩ := Pool.acquire_some hslot
  rw [hsessions] at hlength hmark hcapacity hsound
  rw [hfree, hseats.capacity, List.length_cons] at hcount
  rw [hseats.capacity] at hcapacity
  rw [hseats.marked] at hmark
  rw [List.length_cons] at hlength
  have halive : s.alive index = lane.sessions.acquired.length := by
    simp only [alive, hlane]
    rfl
  rw [halive]
  have hafter : Shard.alive { s with lanes := s.lanes.insert index { lane with sessions } } index =
      lane.sessions.acquired.length + 1 := by
    simp only [alive, OrderedMap.get?_insert_self]
    exact hlength
  refine ⟨by omega, ⟨{ lane with sessions }, OrderedMap.get?_insert_self _ _ _, ?_⟩, rfl, hafter⟩
  refine ⟨hsound, hcapacity, hmark, ?_, ?_⟩
  · exact hlength.le.trans (le_max_right _ _)
  · exact max_le hseats.room (by omega)

lemma attempts_succ (now : Nanos) (phase count : Nat) (s : Shard) :
    attempts now phase (count + 1) s =
      match s.acquire phase with
      | (none, _) => ⟨s.alive phase, true⟩ :: attempts now phase count s
      | (some slot, shard) =>
        let (shard, _, verdict) := shard.drive now phase slot Turn.start
        ⟨s.alive phase, false⟩ :: if verdict.isBroken then [] else attempts now phase count shard :=
  rfl

structure Seated (now : Nanos) (index count slots mark : Nat) (w w' : Wave) : Prop where
  seats : w'.shard.Seats index slots (max mark (crest (attempts now index count w.shard)))
  id : w'.shard.id = w.shard.id
  blocked : w'.blocked = w.blocked + (attempts now index count w.shard).countP Attempt.blocked
  full : ∀ a ∈ attempts now index count w.shard,
    a.there ≤ slots ∧ (a.blocked = true ↔ a.there = slots)
  few : ∀ a ∈ attempts now index count w.shard, a.there < w.shard.alive index + count

lemma Seated.cons {count : Nat} {a : Attempt} {w w₁ w' : Wave}
    (h : Seated now index count slots (max mark a.after) w₁ w')
    (hattempts : attempts now index (count + 1) w.shard =
      a :: attempts now index count w₁.shard)
    (hid : w₁.shard.id = w.shard.id)
    (hblocked : w₁.blocked = w.blocked + if a.blocked then 1 else 0)
    (hfull : a.there ≤ slots ∧ (a.blocked = true ↔ a.there = slots))
    (hthere : a.there = w.shard.alive index)
    (halive : w₁.shard.alive index ≤ w.shard.alive index + 1) :
    Seated now index (count + 1) slots mark w w' := by
  refine ⟨?_, h.id.trans hid, ?_, ?_, ?_⟩
  · rw [hattempts, crest_cons, ← Nat.max_assoc]
    exact h.seats
  · rw [hattempts, List.countP_cons, h.blocked, hblocked]
    omega
  · rw [hattempts]
    exact List.forall_mem_cons.mpr ⟨hfull, h.full⟩
  · rw [hattempts]
    refine List.forall_mem_cons.mpr ⟨by omega, fun b hb => ?_⟩
    have hlater := h.few b hb
    omega

lemma Seats.launch {w : Wave} (h : w.shard.Seats index slots mark) (now : Nanos) (count : Nat) :
    Seated now index count slots mark w (launch now index count w) := by
  -- One start after the other; none is looked at behind the one that breaks a contract.
  induction count generalizing w mark with
  | zero =>
    refine ⟨?_, rfl, rfl, nofun, nofun⟩
    change w.shard.Seats index slots (max mark 0)
    rwa [Nat.max_zero]
  | succ count ih =>
    rw [launch_succ]
    cases ha : w.shard.acquire index with
    | mk slot? s₁ =>
      cases slot? with
      | none =>
        have hfull := h.acquire_none (by rw [ha])
        have hattempts : attempts now index (count + 1) w.shard =
            ⟨w.shard.alive index, true⟩ :: attempts now index count w.shard := by
          simp only [attempts_succ, ha]
        have hmark : max mark (Attempt.after ⟨w.shard.alive index, true⟩) = mark :=
          Nat.max_eq_left h.alive_le
        rw [← hmark] at h
        exact (ih (w := { w with blocked := w.blocked + 1 }) h).cons hattempts rfl rfl
          ⟨hfull.le, by simp [hfull]⟩ rfl (Nat.le_succ _)
      | some slot =>
        obtain ⟨hroom, hacquired, hid, halive⟩ := h.acquire_some ha
        have hdriven : Recedes index s₁ _ := s₁.drive_recedes now index slot Turn.start
        have hfirst : w.shard.alive index ≤ slots ∧
            (false = true ↔ w.shard.alive index = slots) := ⟨hroom.le, by simp [hroom.ne]⟩
        simp only
        cases hd : s₁.drive now index slot Turn.start with
        | mk s₂ r =>
          obtain ⟨outputs, verdict⟩ := r
          rw [hd] at hdriven
          have hattempts : attempts now index (count + 1) w.shard =
              ⟨w.shard.alive index, false⟩ ::
                if verdict.isBroken then [] else attempts now index count s₂ := by
            simp only [attempts_succ, ha, hd]
          have hseats := hacquired.recedes hdriven
          have hsame := hdriven.id.trans hid
          have hmore (w' : Wave) (hw : w'.shard = s₂) (hb : w'.blocked = w.blocked)
              (hgoes : verdict.isBroken = false) :
              Seated now index (count + 1) slots mark w (Shard.launch now index count w') := by
            subst hw
            rw [hgoes, if_neg Bool.false_ne_true] at hattempts
            have hle := hacquired.alive_recedes hdriven
            exact (ih hseats).cons hattempts hsame hb hfirst rfl (hle.trans halive.le)
          cases verdict with
          | alive => exact hmore _ rfl rfl rfl
          | ended how => exact hmore _ rfl rfl rfl
          | broken fault =>
            have hone : attempts now index (count + 1) w.shard = [⟨w.shard.alive index, false⟩] :=
              hattempts
            refine ⟨?_, hsame, ?_, ?_, ?_⟩
            · rw [hone]
              exact hseats
            · rw [hone]
              rfl
            · rw [hone]
              exact List.forall_mem_singleton.mpr hfirst
            · rw [hone]
              exact List.forall_mem_singleton.mpr (Nat.lt_add_of_pos_right count.succ_pos)

lemma launch_started_le (now : Nanos) (phase count : Nat) (w : Wave) :
    w.started ≤ (launch now phase count w).started := by
  induction count generalizing w with
  | zero => exact le_rfl
  | succ count ih =>
    rw [launch_succ]
    split
    · exact ih { w with blocked := w.blocked + 1 }
    · have hmore (w' : Wave) (hw : w'.started = w.started + 1) :
          w.started ≤ (launch now phase count w').started := by
        have hle := ih w'
        omega
      simp only
      split
      · exact hmore _ rfl
      · exact hmore _ rfl
      · exact Nat.le_succ _

lemma Seats.launch_missed {w : Wave} (h : w.shard.Seats index slots mark) (hslots : 0 < slots)
    (now : Nanos) (count : Nat) (hblocked : w.blocked < (Shard.launch now index count w).blocked) :
    0 < w.shard.alive index + ((Shard.launch now index count w).started - w.started) := by
  cases count with
  | zero => exact absurd hblocked (lt_irrefl _)
  | succ count =>
    rw [launch_succ]
    cases ha : w.shard.acquire index with
    | mk slot? s₁ =>
      cases slot? with
      | none =>
        rw [h.acquire_none (by rw [ha])]
        exact Nat.add_pos_left hslots _
      | some slot =>
        have hstarted (w' : Wave) (hw : w'.started = w.started + 1) :
            0 < (Shard.launch now index count w').started - w.started := by
          have hle := launch_started_le now index count w'
          omega
        refine Nat.add_pos_right _ ?_
        simp only
        split
        · exact hstarted _ rfl
        · exact hstarted _ rfl
        · exact Nat.sub_pos_of_lt (Nat.lt_succ_self _)

lemma unasked_append {id : Nat} {a b : List Output} :
    Unasked id (a ++ b) ↔ Unasked id a ∧ Unasked id b := by
  unfold Unasked
  rw [noticesOf_append]
  exact List.forall_mem_append

lemma drive_notices (s : Shard) (now : Nanos) (phase slot : Nat)
    (act : Stage → Turn → Turn × Verdict) : noticesOf (s.drive now phase slot act).2.1 = [] := by
  unfold drive
  split
  · rfl
  · exact carryOut_notices _ _

lemma drive_unasked (s : Shard) (now : Nanos) (phase slot : Nat)
    (act : Stage → Turn → Turn × Verdict) (id : Nat) :
    Unasked id (s.drive now phase slot act).2.1 := by
  intro n hn
  rw [drive_notices] at hn
  cases hn

lemma visit_unasked (s : Shard) (now : Nanos) (phase slot : Nat)
    (act : Stage → Turn → Turn × Verdict) : Unasked s.id (s.visit now phase slot act).2 := by
  have hid := (s.drive_recedes now phase slot act : Recedes phase s _).id
  have hdrive := s.drive_unasked now phase slot act s.id
  unfold visit
  generalize s.drive now phase slot act = out at hid hdrive
  obtain ⟨s', outputs, verdict⟩ := out
  refine unasked_append.mpr ⟨hdrive, ?_⟩
  cases verdict with
  | alive => exact nofun
  | ended | broken => exact List.forall_mem_singleton.mpr ⟨rfl, hid⟩

lemma unasked_prevails :
    Prevails fun s outputs s' => s'.id = s.id ∧ Unasked s.id outputs := by
  refine GoesOn.prevails ⟨fun s => ⟨rfl, nofun⟩, fun h h' => ⟨h'.1.trans h.1, ?_⟩⟩
    (fun s timers => ⟨rfl, nofun⟩)
    fun s now phase slot act => ⟨?_, s.visit_unasked now phase slot act⟩
  · exact unasked_append.mpr ⟨h.2, h.1 ▸ h'.2⟩
  · exact (s.visit_recedes now phase slot act : Recedes phase s _).id

lemma launch_unasked (s : Shard) (now : Nanos) (phase count : Nat) :
    Unasked s.id (launch now phase count ⟨s, [], 0, 0, []⟩).outputs := by
  have hstart {s s₁ : Shard} {slot : Nat} (ha : s.acquire phase = (some slot, s₁)) :
      (s₁.drive now phase slot Turn.start).1.id = s.id ∧
        Unasked s.id ((s₁.drive now phase slot Turn.start).2.1 ++
          (s₁.drive now phase slot Turn.start).1.blame
            (s₁.drive now phase slot Turn.start).2.2) := by
    have hacquired : s₁.id = s.id := by
      obtain ⟨lane, sessions, -, -, rfl⟩ := acquire_eq_some ha
      rfl
    have hdriven : Recedes phase s₁ _ := s₁.drive_recedes now phase slot Turn.start
    have hid := hdriven.id.trans hacquired
    refine ⟨hid, unasked_append.mpr ⟨s₁.drive_unasked now phase slot Turn.start s.id, ?_⟩⟩
    cases (s₁.drive now phase slot Turn.start).2.2 with
    | alive | ended => exact nofun
    | broken => exact List.forall_mem_singleton.mpr ⟨rfl, hid⟩
  obtain ⟨outputs, houtputs, -, hunasked⟩ :=
    unasked_prevails.launch now phase hstart count ⟨s, [], 0, 0, []⟩
  rw [houtputs]
  exact hunasked

lemma perform_unasked (hdeed : ∀ phase count, deed ≠ .command (.start phase count)) (s : Shard)
    (now : Nanos) : Unasked s.id (s.perform now deed).2 := by
  cases deed with
  | command c =>
    cases c with
    | prepare phase name scenario capacity =>
      simp only [perform, handleCommand]
      split
      · exact List.forall_mem_nil _
      · exact List.forall_mem_nil _
    | start phase count => exact absurd rfl (hdeed phase count)
    | terminate phase => exact (unasked_prevails.terminate s now phase).2
    | collect phase reset => exact List.forall_mem_nil _
    | shutdown => exact (unasked_prevails.terminateAll s now).2
  | event e =>
    cases e with
    | data | complete =>
      simp only [perform, handleEvent]
      exact s.visit_unasked now _ _ _
  | timers => exact (unasked_prevails.fire s now _).2

lemma perform_recedes (hdeed : deed.seats index = false) (s : Shard) (now : Nanos) :
    Recedes index s (s.perform now deed).1 := by
  cases deed with
  | command c =>
    cases c with
    | prepare phase name scenario capacity =>
      have hne : phase ≠ index := by simpa [Deed.seats] using hdeed
      simp only [perform, handleCommand]
      split
      · exact .insert_other hne _
      · exact .refl s
    | start phase count =>
      have hne : phase ≠ index := by simpa [Deed.seats] using hdeed
      exact start_recedes hne s now count
    | terminate phase => exact (recedes_prevails index).terminate s now phase
    | collect phase reset =>
      simp only [perform, handleCommand, collect]
      cases s.lanes.get? phase with
      | none => exact .refl s
      | some lane =>
        cases reset with
        | false => exact .refl s
        | true =>
          have hne : phase ≠ index := by simpa [Deed.seats] using hdeed
          exact .insert_other hne _
    | shutdown => exact (recedes_prevails index).terminateAll s now
  | event e =>
    cases e with
    | data | complete =>
      simp only [perform, handleEvent]
      exact s.visit_recedes now _ _ _
  | timers => exact (recedes_prevails index).fire s now _

lemma prepare_seats {phase : Nat} {name : String} {scenario : Scenario} {capacity : Nat}
    (hroom : hasRoom phase scenario capacity = true) (s : Shard) (now : Nanos) :
    (s.perform now (.command (.prepare phase name scenario capacity))).1.Seats phase
      (Pool.numbered capacity) 0 := by
  simp only [perform, handleCommand, hroom, if_true]
  exact ⟨_, OrderedMap.get?_insert_self _ _ _, Lane.new_seats name scenario capacity s.template⟩

lemma start_blockedIn (s : Shard) (now : Nanos) (phase count : Nat) :
    blockedIn index (noticesOf (s.start now phase count).2) =
      if phase = index then (launch now phase count ⟨s, [], 0, 0, []⟩).blocked else 0 := by
  have hunasked := s.launch_unasked now phase count
  have hquiet := fun n hn => (hunasked n hn).1
  have hends : ∀ n ∈ (launch now phase count ⟨s, [], 0, 0, []⟩).ends.map
      fun how => Notice.ended phase s.id how, n.isStart = false := by
    intro n hn
    obtain ⟨how, -, rfl⟩ := List.mem_map.mp hn
    rfl
  have hnone := blockedIn_of_no_start index hends
  simp only [start, noticesOf_append, noticesOf_notice, noticesOf_ends, blockedIn_append]
  rw [blockedIn_of_no_start index hquiet, Nat.zero_add]
  simp only [blockedIn, List.map_cons, List.sum_cons, Notice.blockedIn] at hnone ⊢
  rw [hnone, Nat.add_zero]

lemma start_startedIn (s : Shard) (now : Nanos) (phase count : Nat) :
    (launch now phase count ⟨s, [], 0, 0, []⟩).started ≤
      startedIn phase (noticesOf (s.start now phase count).2) := by
  have hone : (launch now phase count ⟨s, [], 0, 0, []⟩).started =
      (Notice.started phase s.id (launch now phase count ⟨s, [], 0, 0, []⟩).started
        (launch now phase count ⟨s, [], 0, 0, []⟩).blocked).startedIn phase := (if_pos rfl).symm
  simp only [start, noticesOf_append, noticesOf_notice, noticesOf_ends, startedIn_append]
  refine hone.le.trans (le_trans ?_ (Nat.le_add_left _ _))
  exact Nat.le_add_right _ _

structure Starts (s : Shard) (now : Nanos) (index count slots mark : Nat) : Prop where
  seats : (s.start now index count).1.Seats index slots
    (max mark (crest (attempts now index count s)))
  blocked : blockedIn index (noticesOf (s.start now index count).2) =
    (attempts now index count s).countP Attempt.blocked
  full : ∀ a ∈ attempts now index count s,
    a.there ≤ slots ∧ (a.blocked = true ↔ a.there = slots)
  few : ∀ a ∈ attempts now index count s, a.there < s.alive index + count
  missed : 0 < slots → 0 < blockedIn index (noticesOf (s.start now index count).2) →
    0 < s.alive index + startedIn index (noticesOf (s.start now index count).2)

lemma Seats.start (h : s.Seats index slots mark) (now : Nanos) (count : Nat) :
    s.Starts now index count slots mark := by
  have hseated := Seats.launch (w := ⟨s, [], 0, 0, []⟩) h now count
  have hblocked : blockedIn index (noticesOf (s.start now index count).2) = _ :=
    s.start_blockedIn now index count
  rw [if_pos rfl] at hblocked
  refine ⟨hseated.seats, ?_, hseated.full, hseated.few, fun hslots hpos => ?_⟩
  · rw [hblocked, hseated.blocked]
    exact Nat.zero_add _
  · rw [hblocked] at hpos
    have hmissed := Seats.launch_missed (w := ⟨s, [], 0, 0, []⟩) h hslots now count hpos
    exact hmissed.trans_le (Nat.add_le_add_left (s.start_startedIn now index count) _)

lemma perform_blockedIn (hdeed : ∀ count, deed ≠ .command (.start index count)) (s : Shard)
    (now : Nanos) : blockedIn index (noticesOf (s.perform now deed).2) = 0 := by
  by_cases hstart : ∃ phase count, deed = .command (.start phase count)
  · obtain ⟨phase, count, rfl⟩ := hstart
    refine (s.start_blockedIn now phase count).trans (if_neg ?_)
    rintro rfl
    exact hdeed count rfl
  · push Not at hstart
    exact blockedIn_of_no_start index fun n hn => (perform_unasked hstart s now n hn).1

lemma Seats.collect (h : s.Seats index slots mark) (reset : Bool) :
    (s.collect index reset).2.maxUsed = mark ∧
      (s.collect index reset).1.Seats index slots (if reset then s.alive index else mark) := by
  obtain ⟨lane, hlane, hseats⟩ := h
  have halive : s.alive index = lane.alive := by simp only [alive, hlane]
  simp only [Shard.collect, hlane, halive]
  refine ⟨hseats.marked, ?_⟩
  cases reset with
  | false => exact ⟨lane, hlane, hseats⟩
  | true => exact ⟨lane.reset, OrderedMap.get?_insert_self _ _ _, hseats.reset⟩

end Shard

end LoadEngine
