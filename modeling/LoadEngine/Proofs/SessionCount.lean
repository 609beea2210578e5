import LoadEngine.Proofs.OrderedMap
import LoadEngine.Proofs.Pool
import LoadEngine.Proofs.ShardLoops
import LoadEngine.Shard.Node

/-! Sessions are not lost on a shard. Whatever the shard does, the sessions that it had and those
that it told to have started are those that it has and those that it told to have ended, as long as
no contract is broken. What a session does in its turn does not matter. -/

namespace LoadEngine

namespace Notice

def isStart : Notice → Bool
  | started _ _ _ _ => true
  | _ => false

def startedIn (phase : Nat) : Notice → Nat
  | started index _ n _ => if index = phase then n else 0
  | _ => 0

def answersIn (phase : Nat) : Notice → Nat
  | started index _ n blocked => if index = phase then n + blocked else 0
  | _ => 0

def endsIn (phase : Nat) : Notice → Nat
  | ended index _ _ => if index = phase then 1 else 0
  | _ => 0

end Notice

def startedIn (phase : Nat) (notices : List Notice) : Nat :=
  (notices.map (Notice.startedIn phase)).sum

def answersIn (phase : Nat) (notices : List Notice) : Nat :=
  (notices.map (Notice.answersIn phase)).sum

def endsIn (phase : Nat) (notices : List Notice) : Nat := (notices.map (Notice.endsIn phase)).sum

section Counts

variable (phase : Nat) (a b : List Notice)

@[simp] lemma startedIn_append :
    startedIn phase (a ++ b) = startedIn phase a + startedIn phase b := by
  simp [startedIn]

@[simp] lemma answersIn_append :
    answersIn phase (a ++ b) = answersIn phase a + answersIn phase b := by
  simp [answersIn]

@[simp] lemma endsIn_append : endsIn phase (a ++ b) = endsIn phase a + endsIn phase b := by
  simp [endsIn]

lemma sum_of_no_start {f : Notice → Nat} (hf : ∀ n : Notice, n.isStart = false → f n = 0)
    {a : List Notice} (h : ∀ n ∈ a, n.isStart = false) : (a.map f).sum = 0 := by
  induction a with
  | nil => rfl
  | cons n rest ih =>
    obtain ⟨hn, hrest⟩ := List.forall_mem_cons.mp h
    rw [List.map_cons, List.sum_cons, hf n hn, ih hrest]

lemma startedIn_of_no_start {a : List Notice} (h : ∀ n ∈ a, n.isStart = false) :
    startedIn phase a = 0 := by
  refine sum_of_no_start ?_ h
  intro n hn
  cases n with
  | started index shard n blocked => cases hn
  | ended index shard how => rfl
  | fault shard cause => rfl

lemma answersIn_of_no_start {a : List Notice} (h : ∀ n ∈ a, n.isStart = false) :
    answersIn phase a = 0 := by
  refine sum_of_no_start ?_ h
  intro n hn
  cases n with
  | started index shard n blocked => cases hn
  | ended index shard how => rfl
  | fault shard cause => rfl

lemma endsIn_ends (index shard : Nat) (ends : List SessionEnd) :
    endsIn phase (ends.map fun how => .ended index shard how) =
      if index = phase then ends.length else 0 := by
  induction ends with
  | nil => simp [endsIn]
  | cons how rest ih =>
    simp only [endsIn, List.map_cons, List.sum_cons, Notice.endsIn, List.length_cons] at ih ⊢
    rw [ih]
    by_cases h : index = phase
    · simp only [if_pos h]
      omega
    · simp only [if_neg h]

end Counts

namespace Output

def isHarmless : Output → Bool
  | notice (.fault _ _) | crash => false
  | _ => true

def notice? : Output → Option Notice
  | notice n => some n
  | _ => none

def snapshot? : Output → Option PhaseSnapshot
  | snapshot _ s => some s
  | _ => none

end Output

def Harmless (outputs : List Output) : Prop := ∀ o ∈ outputs, o.isHarmless = true

lemma harmless_append {a b : List Output} : Harmless (a ++ b) ↔ Harmless a ∧ Harmless b :=
  List.forall_mem_append

def noticesOf (outputs : List Output) : List Notice := outputs.filterMap Output.notice?

@[simp] lemma noticesOf_nil : noticesOf [] = [] := rfl

@[simp] lemma noticesOf_append (a b : List Output) :
    noticesOf (a ++ b) = noticesOf a ++ noticesOf b :=
  List.filterMap_append

@[simp] lemma noticesOf_notice (n : Notice) (rest : List Output) :
    noticesOf (.notice n :: rest) = n :: noticesOf rest := rfl

lemma noticesOf_ends (phase shard : Nat) (ends : List SessionEnd) :
    noticesOf (ends.map fun how => .notice (.ended phase shard how)) =
      ends.map fun how => .ended phase shard how := by
  induction ends with
  | nil => rfl
  | cons how rest ih => simpa using ih

def Lane.alive (lane : Lane) : Nat := lane.sessions.acquired.length

def Verdict.ends : Verdict → Nat
  | ended _ => 1
  | _ => 0

def Verdict.isBroken : Verdict → Bool
  | broken _ => true
  | _ => false

lemma Pool.length_update {α : Type} (p : Pool α) (slot : Nat) (f : α → α) :
    (p.update slot f).acquired.length = p.acquired.length := by
  cases h : p.get? slot with
  | none =>
    apply List.Perm.length_eq
    apply Pool.acquired_eq_of_get?
    intro i
    rw [Pool.update_get?]
    by_cases hi : i = slot
    · rw [if_pos hi, hi, h]
      rfl
    · rw [if_neg hi]
  | some a =>
    rw [(Pool.update_acquired h f).length_eq, (Pool.acquired_others h).length_eq]
    rfl

lemma Lane.drive_alive {lane : Lane} (h : lane.sessions.Sound) (phase : Nat) (now : Nanos)
    (slot : Nat) (act : Stage → Turn → Turn × Verdict) :
    (lane.drive phase now slot act).1.sessions.Sound ∧
      ((lane.drive phase now slot act).2.2.isBroken = false →
        (lane.drive phase now slot act).1.alive + (lane.drive phase now slot act).2.2.ends =
          lane.alive) := by
  unfold Lane.drive
  cases hs : lane.sessions.get? slot with
  | none => exact ⟨h, fun _ => rfl⟩
  | some session =>
    simp only
    cases hact : act ⟨lane.scenario, phase, now⟩ ⟨session, lane.requests, lane.recorder, []⟩ with
    | mk t verdict =>
      have hupdate := Pool.update_sound h slot fun _ => t.session
      have hlength := lane.sessions.length_update slot fun _ => t.session
      cases verdict with
      | alive => exact ⟨hupdate, fun _ => hlength⟩
      | broken fault => exact ⟨hupdate, fun hb => by cases hb⟩
      | ended how =>
        have hget : (lane.sessions.update slot fun _ => t.session).get? slot = some t.session := by
          rw [Pool.update_get?, if_pos rfl, hs]
          rfl
        obtain ⟨q, hq⟩ := Pool.release_of_get? (Session.recycle lane.scenario) hget
        simp only [Lane.free, hq]
        refine ⟨Pool.release_sound hq hupdate, fun _ => ?_⟩
        have hreleased := (Pool.release_acquired hq).length_eq
        have hothers := (Pool.acquired_others hget).length_eq
        simp only [Lane.alive, Verdict.ends, List.length_cons] at hlength hothers ⊢
        omega

namespace Shard

variable {s : Shard} {now : Nanos}

def alive (s : Shard) (phase : Nat) : Nat :=
  match s.lanes.get? phase with
  | some lane => lane.alive
  | none => 0

def Sound (s : Shard) : Prop :=
  ∀ (phase : Nat) (lane : Lane), s.lanes.get? phase = some lane → lane.sessions.Sound

lemma alive_insert (s : Shard) (index : Nat) (lane : Lane) (phase : Nat) :
    alive { s with lanes := s.lanes.insert index lane } phase =
      if phase = index then lane.alive else s.alive phase := by
  unfold alive
  simp only [OrderedMap.get?_insert]
  by_cases h : phase = index
  · simp only [if_pos h]
  · simp only [if_neg h]

lemma Sound.insert (h : s.Sound) (index : Nat) {lane : Lane} (hl : lane.sessions.Sound) :
    Sound { s with lanes := s.lanes.insert index lane } := by
  intro phase lane' hlane
  obtain ⟨-, rfl⟩ | ⟨-, hlane⟩ := OrderedMap.get?_insert_eq_some hlane
  · exact hl
  · exact h phase lane' hlane

lemma carryOut_schedule (s : Shard) (timer : Timer) (rest : List Effect) :
    s.carryOut (.schedule timer :: rest) =
      (({ s with timers := s.timers.schedule timer }.carryOut rest).1,
        if timer.due < Timer.reach then
          ({ s with timers := s.timers.schedule timer }.carryOut rest).2
        else .crash :: ({ s with timers := s.timers.schedule timer }.carryOut rest).2) := rfl

lemma carryOut_issue (s : Shard) (operation : Operation BoundValidator) (tag : Tag)
    (rest : List Effect) :
    s.carryOut (.issue operation tag :: rest) =
      ((s.carryOut rest).1, .call operation tag :: (s.carryOut rest).2) := rfl

lemma carryOut_frame (s : Shard) (effects : List Effect) :
    (s.carryOut effects).1 = { s with timers := (s.carryOut effects).1.timers } := by
  induction effects generalizing s with
  | nil => rfl
  | cons e rest ih =>
    cases e with
    | schedule timer =>
      rw [carryOut_schedule]
      exact ih { s with timers := s.timers.schedule timer }
    | issue operation tag =>
      rw [carryOut_issue]
      exact ih s

lemma carryOut_lanes (s : Shard) (effects : List Effect) :
    (s.carryOut effects).1.lanes = s.lanes := by
  rw [carryOut_frame]

lemma carryOut_outputs (s : Shard) (effects : List Effect) :
    ∀ o ∈ (s.carryOut effects).2, o = .crash ∨ ∃ operation tag, o = .call operation tag := by
  induction effects generalizing s with
  | nil => exact nofun
  | cons e rest ih =>
    cases e with
    | schedule timer =>
      rw [carryOut_schedule]
      have hrest := ih { s with timers := s.timers.schedule timer }
      split
      · exact hrest
      · exact List.forall_mem_cons.mpr ⟨.inl rfl, hrest⟩
    | issue operation tag =>
      rw [carryOut_issue]
      exact List.forall_mem_cons.mpr ⟨.inr ⟨operation, tag, rfl⟩, ih s⟩

lemma carryOut_notices (s : Shard) (effects : List Effect) :
    noticesOf (s.carryOut effects).2 = [] := by
  refine List.filterMap_eq_nil_iff.mpr fun o ho => ?_
  obtain rfl | ⟨operation, tag, rfl⟩ := s.carryOut_outputs effects o ho <;> rfl

structure Accounts (s s' : Shard) (told : List Notice) : Prop where
  sound : s'.Sound
  balance : ∀ phase, s.alive phase + startedIn phase told = s'.alive phase + endsIn phase told

lemma Accounts.refl (h : s.Sound) : Accounts s s [] := ⟨h, fun _ => rfl⟩

lemma Accounts.trans {s' s'' : Shard} {a b : List Notice} (h : Accounts s s' a)
    (h' : Accounts s' s'' b) : Accounts s s'' (a ++ b) := by
  refine ⟨h'.sound, ?_⟩
  intro phase
  have h₁ := h.balance phase
  have h₂ := h'.balance phase
  rw [startedIn_append, endsIn_append]
  omega

lemma alive_of_lanes_eq {s' : Shard} (h : s'.lanes = s.lanes) (phase : Nat) :
    s'.alive phase = s.alive phase := by
  unfold alive
  rw [h]

lemma Sound.of_lanes_eq {s' : Shard} (h : s'.lanes = s.lanes) (hs : s.Sound) : s'.Sound := by
  intro phase lane hlane
  exact hs phase lane (h ▸ hlane)

lemma drive_alive (h : s.Sound) (now : Nanos) (index slot : Nat)
    (act : Stage → Turn → Turn × Verdict) :
    (s.drive now index slot act).1.Sound ∧ noticesOf (s.drive now index slot act).2.1 = [] ∧
      ((s.drive now index slot act).2.2.isBroken = false → ∀ phase,
        (s.drive now index slot act).1.alive phase +
            (if index = phase then (s.drive now index slot act).2.2.ends else 0) =
          s.alive phase) := by
  unfold drive
  cases hl : s.lanes.get? index with
  | none => exact ⟨h, rfl, fun _ phase => by simp [Verdict.ends]⟩
  | some lane =>
    obtain ⟨hsound, hcount⟩ := Lane.drive_alive (h index lane hl) index now slot act
    simp only
    have hlanes := carryOut_lanes
      { s with lanes := s.lanes.insert index (lane.drive index now slot act).1 }
      (lane.drive index now slot act).2.1
    refine ⟨(h.insert index hsound).of_lanes_eq hlanes, carryOut_notices _ _, ?_⟩
    intro hb phase
    rw [alive_of_lanes_eq hlanes, alive_insert]
    by_cases hp : phase = index
    · subst hp
      rw [if_pos rfl, if_pos rfl, hcount hb]
      simp only [alive, hl]
    · rw [if_neg hp, if_neg (Ne.symm hp)]
      rfl

lemma announce_accounts (index : Nat) (verdict : Verdict)
    (h : Harmless (s.announce index verdict)) :
    verdict.isBroken = false ∧ (∀ n ∈ noticesOf (s.announce index verdict), n.isStart = false) ∧
      ∀ phase, endsIn phase (noticesOf (s.announce index verdict)) =
        if index = phase then verdict.ends else 0 := by
  cases verdict with
  | alive =>
    refine ⟨rfl, by simp [announce], ?_⟩
    intro phase
    simp [announce, endsIn, Verdict.ends]
  | ended how =>
    refine ⟨rfl, by simp [announce, Notice.isStart], ?_⟩
    intro phase
    simp [announce, endsIn, Verdict.ends, Notice.endsIn]
  | broken fault =>
    have hfault := h (.notice (.fault s.id fault)) (by simp [announce])
    cases hfault

structure Closes (s s' : Shard) (outputs : List Output) : Prop extends
    Accounts s s' (noticesOf outputs) where
  quiet : ∀ n ∈ noticesOf outputs, n.isStart = false

lemma Closes.refl (h : s.Sound) : Closes s s [] := ⟨.refl h, by simp⟩

lemma Closes.trans {s' s'' : Shard} {a b : List Output} (h : Closes s s' a)
    (h' : Closes s' s'' b) : Closes s s'' (a ++ b) := by
  refine ⟨?_, ?_⟩
  · rw [noticesOf_append]
    exact h.toAccounts.trans h'.toAccounts
  · rw [noticesOf_append]
    exact List.forall_mem_append.mpr ⟨h.quiet, h'.quiet⟩

lemma Closes.of_lanes_eq {s' s'' : Shard} {outputs : List Output} (h : Closes s' s'' outputs)
    (hl : s'.lanes = s.lanes) : Closes s s'' outputs := by
  refine ⟨⟨h.sound, ?_⟩, h.quiet⟩
  intro phase
  rw [← alive_of_lanes_eq hl]
  exact h.balance phase

lemma visit_closes (h : s.Sound) (now : Nanos) (index slot : Nat)
    (act : Stage → Turn → Turn × Verdict) (hout : Harmless (s.visit now index slot act).2) :
    Closes s (s.visit now index slot act).1 (s.visit now index slot act).2 := by
  obtain ⟨hsound, hnotices, hcount⟩ := drive_alive h now index slot act
  unfold visit at hout ⊢
  simp only at hout ⊢
  obtain ⟨hb, hquiet, hends⟩ := announce_accounts index
    (s.drive now index slot act).2.2 (harmless_append.1 hout).2
  have hsplit : noticesOf ((s.drive now index slot act).2.1 ++
      announce (s.drive now index slot act).1 index (s.drive now index slot act).2.2) =
        noticesOf (announce (s.drive now index slot act).1 index
          (s.drive now index slot act).2.2) := by
    rw [noticesOf_append, hnotices, List.nil_append]
  refine ⟨⟨hsound, ?_⟩, ?_⟩
  · intro phase
    have hc := hcount hb phase
    rw [hsplit, startedIn_of_no_start phase hquiet, hends phase]
    omega
  · rw [hsplit]
    exact hquiet

lemma closes_prevails :
    Prevails fun s outputs s' => s.Sound → Harmless outputs → Closes s s' outputs := by
  refine GoesOn.prevails ⟨fun s h _ => .refl h, ?_⟩ (fun s timers h _ => ?_)
    fun s now index slot act h => visit_closes h now index slot act
  · intro s s' s'' a b hfirst hsecond h hout
    obtain ⟨ha, hb⟩ := harmless_append.1 hout
    have hcloses := hfirst h ha
    exact hcloses.trans (hsecond hcloses.sound hb)
  · have htimers : Sound { s with timers } := h
    exact (Closes.refl htimers).of_lanes_eq rfl

lemma acquire_alive (h : s.Sound) {index slot : Nat} (hslot : (s.acquire index).1 = some slot) :
    (s.acquire index).2.Sound ∧ ∀ phase,
      (s.acquire index).2.alive phase = s.alive phase + if index = phase then 1 else 0 := by
  unfold acquire at hslot ⊢
  cases hl : s.lanes.get? index with
  | none =>
    rw [hl] at hslot
    cases hslot
  | some lane =>
    simp only [hl] at hslot ⊢
    have hlane := h index lane hl
    obtain ⟨a, ha⟩ := (Pool.acquire_fresh hlane hslot).2
    have hlength := (Pool.acquire_acquired hlane hslot ha).length_eq
    refine ⟨h.insert index (Pool.acquire_sound hlane), ?_⟩
    intro phase
    rw [alive_insert]
    by_cases hp : phase = index
    · subst hp
      rw [if_pos rfl, if_pos rfl]
      simpa only [alive, hl, Lane.alive, List.length_cons] using hlength
    · rw [if_neg hp, if_neg (Ne.symm hp), Nat.add_zero]

structure Launched (index count : Nat) (w w' : Wave) : Prop where
  sound : w'.shard.Sound
  notices : noticesOf w'.outputs = noticesOf w.outputs
  answered : w'.started + w'.blocked = w.started + w.blocked + count
  balance : ∀ phase,
    w.shard.alive phase + (if index = phase then w'.started + w.ends.length else 0) =
      w'.shard.alive phase + (if index = phase then w.started + w'.ends.length else 0)

lemma Launched.trans {index a b : Nat} {w w₁ w' : Wave} (h : Launched index a w w₁)
    (h' : Launched index b w₁ w') : Launched index (a + b) w w' := by
  refine ⟨h'.sound, h'.notices.trans h.notices, ?_, fun phase => ?_⟩
  · rw [h'.answered, h.answered, Nat.add_assoc]
  · have h₁ := h.balance phase
    have h₂ := h'.balance phase
    split_ifs at h₁ h₂ ⊢ <;> omega

lemma launch_accounts {now : Nanos} {index count : Nat} {w : Wave} (h : w.shard.Sound)
    (hout : Harmless (launch now index count w).outputs) :
    Launched index count w (launch now index count w) := by
  induction count generalizing w with
  | zero => exact ⟨h, rfl, rfl, fun _ => rfl⟩
  | succ count ih =>
    rw [launch_succ] at hout ⊢
    rw [Nat.add_comm count 1]
    cases ha : w.shard.acquire index with
    | mk slot? shard =>
      cases slot? with
      | none =>
        simp only [ha] at hout ⊢
        have hone : Launched index 1 w { w with blocked := w.blocked + 1 } :=
          ⟨h, rfl, rfl, fun _ => rfl⟩
        exact hone.trans (ih h hout)
      | some slot =>
        have hslot : (w.shard.acquire index).1 = some slot := by rw [ha]
        obtain ⟨hacquired, hmore⟩ := acquire_alive h hslot
        rw [ha] at hacquired hmore
        obtain ⟨hdriven, hquiet, hdrive⟩ := drive_alive hacquired now index slot Turn.start
        simp only [ha] at hout ⊢
        cases hd : shard.drive now index slot Turn.start with
        | mk shard' r =>
          obtain ⟨outputs, verdict⟩ := r
          rw [hd] at hdriven hquiet hdrive
          simp only [hd] at hout ⊢
          have hone (ends : List SessionEnd) (hends : ends.length = w.ends.length + verdict.ends)
              (hgoes : verdict.isBroken = false) : Launched index 1 w
                ⟨shard', w.outputs ++ outputs, w.started + 1, w.blocked, ends⟩ := by
            refine ⟨hdriven, ?_, Nat.add_right_comm .., fun phase => ?_⟩
            · rw [noticesOf_append, hquiet, List.append_nil]
            · have h₁ := hdrive hgoes phase
              have h₂ := hmore phase
              simp only [hends] at h₁ h₂ ⊢
              split_ifs at h₁ h₂ ⊢ <;> omega
          cases verdict with
          | alive => exact (hone w.ends rfl rfl).trans (ih hdriven hout)
          | ended how =>
            exact (hone (w.ends ++ [how]) List.length_append rfl).trans (ih hdriven hout)
          | broken fault =>
            have hfault := hout (.notice (.fault shard'.id fault)) (by simp)
            cases hfault

lemma start_accounts (h : s.Sound) {index count : Nat}
    (hout : Harmless (s.start now index count).2) :
    Accounts s (s.start now index count).1 (noticesOf (s.start now index count).2) ∧
      ∃ shard started blocked rest, noticesOf (s.start now index count).2 =
          .started index shard started blocked :: rest ∧
        started + blocked = count ∧ ∀ n ∈ rest, n.isStart = false := by
  unfold start at hout ⊢
  simp only at hout ⊢
  obtain ⟨hsound, hnotices, hanswered, hcount⟩ :=
    launch_accounts (w := ⟨s, [], 0, 0, []⟩) h (harmless_append.1 hout).1
  have hends : ∀ (shard : Nat) (ends : List SessionEnd),
      ∀ n ∈ ends.map fun how => Notice.ended index shard how, n.isStart = false := by
    intro shard ends n hn
    obtain ⟨how, -, rfl⟩ := List.mem_map.mp hn
    rfl
  rw [noticesOf_append, hnotices, noticesOf_notice, noticesOf_ends, noticesOf_nil, List.nil_append]
  refine ⟨⟨hsound, ?_⟩, _, _, _, _, rfl, ?_, hends _ _⟩
  · intro phase
    have hc := hcount phase
    have hstarted := startedIn_of_no_start phase (hends s.id
      (launch now index count ⟨s, [], 0, 0, []⟩).ends)
    have hended := endsIn_ends phase index s.id (launch now index count ⟨s, [], 0, 0, []⟩).ends
    simp only [startedIn, endsIn, List.map_cons, List.sum_cons, Notice.startedIn,
      Notice.endsIn] at hstarted hended ⊢
    simp only [List.length_nil] at hc
    rw [hstarted, hended]
    split_ifs at hc ⊢ <;> omega
  · simpa using hanswered

lemma collect_closes (h : s.Sound) (index : Nat) (reset : Bool) :
    Closes s (s.collect index reset).1 [.snapshot index (s.collect index reset).2] := by
  unfold collect
  cases hl : s.lanes.get? index with
  | none => exact ⟨.refl h, by simp [noticesOf, Output.notice?]⟩
  | some lane =>
    refine ⟨⟨?_, ?_⟩, by simp [noticesOf, Output.notice?]⟩
    · cases reset with
      | false => exact h
      | true => exact h.insert index (Pool.resetMarks_sound (h index lane hl))
    · intro phase
      have htold : noticesOf [.snapshot index lane.snapshot] = [] := rfl
      simp only [htold, startedIn, endsIn, List.map_nil, List.sum_nil, Nat.add_zero]
      cases reset with
      | false => rfl
      | true =>
        simp only [if_true, alive_insert]
        by_cases hp : phase = index
        · subst hp
          rw [if_pos rfl]
          simp only [alive, hl]
          rfl
        · rw [if_neg hp]

lemma handleEvent_closes (h : s.Sound) (e : Event) (hout : Harmless (s.handleEvent now e).2) :
    Closes s (s.handleEvent now e).1 (s.handleEvent now e).2 := by
  cases e with
  | data tag fragment =>
    exact visit_closes h now tag.phase tag.slot (fun stage => Turn.onData stage tag fragment) hout
  | complete tag completion =>
    exact visit_closes h now tag.phase tag.slot
      (fun stage => Turn.onCompletion stage tag completion) hout

end Shard

namespace Command

def startsIn (phase : Nat) : Command → Nat
  | start index count => if index = phase then count else 0
  | _ => 0

def isPrepare : Command → Bool
  | prepare _ _ _ _ => true
  | _ => false

def isPlain : Command → Bool
  | start _ count => 0 < count
  | terminate _ | collect _ _ => true
  | prepare _ _ _ _ | shutdown => false

end Command

def startsIn (phase : Nat) (commands : List Command) : Nat :=
  (commands.map (Command.startsIn phase)).sum

@[simp] lemma startsIn_append (phase : Nat) (a b : List Command) :
    startsIn phase (a ++ b) = startsIn phase a + startsIn phase b := by
  simp [startsIn]

lemma startsIn_cons (phase : Nat) (c : Command) (rest : List Command) :
    startsIn phase (c :: rest) = c.startsIn phase + startsIn phase rest := rfl

namespace Shard

variable {s : Shard} {now : Nanos}

structure Answers (s s' : Shard) (asked : Nat → Nat) (told : List Notice) : Prop extends
    Accounts s s' told where
  first : ∀ n ∈ told.tail, n.isStart = false
  answered : ∀ phase, answersIn phase told = asked phase
  positive : ∀ n ∈ told, n.isStart = true → ∃ phase, 0 < n.answersIn phase

lemma Closes.answers {s' : Shard} {outputs : List Output} (h : Closes s s' outputs) :
    Answers s s' (fun _ => 0) (noticesOf outputs) := by
  refine ⟨h.toAccounts, ?_, ?_, ?_⟩
  · intro n hn
    exact h.quiet n (List.mem_of_mem_tail hn)
  · intro phase
    exact answersIn_of_no_start phase h.quiet
  · intro n hn hstart
    rw [h.quiet n hn] at hstart
    cases hstart

lemma start_answers (h : s.Sound) {index count : Nat} (hcount : 0 < count)
    (hout : Harmless (s.start now index count).2) :
    Answers s (s.start now index count).1 (fun phase => if index = phase then count else 0)
      (noticesOf (s.start now index count).2) := by
  obtain ⟨haccounts, shard, started, blocked, rest, htold, hanswered, hrest⟩ :=
    start_accounts h hout
  refine ⟨haccounts, ?_, ?_, ?_⟩
  · rw [htold]
    exact hrest
  · intro phase
    have hquiet := answersIn_of_no_start phase hrest
    rw [htold]
    simp only [answersIn, List.map_cons, List.sum_cons, Notice.answersIn] at hquiet ⊢
    rw [hquiet, hanswered, Nat.add_zero]
  · intro n hn hstart
    rw [htold, List.mem_cons] at hn
    rcases hn with rfl | hn
    · refine ⟨index, ?_⟩
      simp only [Notice.answersIn, if_true]
      omega
    · rw [hrest n hn] at hstart
      cases hstart

lemma plain_answers (h : s.Sound) {c : Command} (hc : c.isPlain = true)
    (hout : Harmless (s.handleCommand now c).2) :
    Answers s (s.handleCommand now c).1 (fun phase => c.startsIn phase)
      (noticesOf (s.handleCommand now c).2) := by
  cases c with
  | prepare phase name scenario capacity => cases hc
  | start index count => exact start_answers h (of_decide_eq_true hc) hout
  | terminate index => exact (closes_prevails.terminate s now index h hout).answers
  | collect index reset => exact (collect_closes h index reset).answers
  | shutdown => cases hc

lemma prepare_answers (h : s.Sound) {c : Command} (hc : c.isPrepare = true)
    (hidle : ∀ phase, s.alive phase = 0) (hout : Harmless (s.handleCommand now c).2) :
    noticesOf (s.handleCommand now c).2 = [] ∧ (s.handleCommand now c).1.Sound ∧
      ∀ phase, (s.handleCommand now c).1.alive phase = 0 := by
  cases c with
  | prepare index name scenario capacity =>
    unfold handleCommand at hout ⊢
    by_cases hroom : hasRoom index scenario capacity = true
    · simp only [hroom, if_true]
      refine ⟨rfl, h.insert index (Pool.new_sound _ _), ?_⟩
      intro phase
      rw [prepare, alive_insert]
      by_cases hp : phase = index
      · rw [if_pos hp, Lane.alive, Lane.new, Pool.new_acquired]
        rfl
      · rw [if_neg hp]
        exact hidle phase
    · simp only [hroom] at hout
      have hcrash := hout .crash (by simp)
      cases hcrash
  | start index count => cases hc
  | terminate index => cases hc
  | collect index reset => cases hc
  | shutdown => cases hc

end Shard

namespace Node

variable {n n' : Node} {now : Nanos} {outputs : List Output}

/-- A node that is up. Room is made for all phases before anything else is asked for. -/
structure Orderly (n : Node) : Prop where
  running : n.running = true
  sound : n.shard.Sound
  queue : ∃ preparations rest, n.commands = preparations ++ rest ∧
    (∀ c ∈ preparations, c.isPrepare = true) ∧ (∀ c ∈ rest, c.isPlain = true) ∧
    (preparations ≠ [] → ∀ phase, n.shard.alive phase = 0)

structure Serves (n n' : Node) (told : List Notice) : Prop where
  orderly : n'.Orderly
  answered : ∀ phase,
    startsIn phase n.commands = startsIn phase n'.commands + answersIn phase told
  balance : ∀ phase,
    n.shard.alive phase + startedIn phase told = n'.shard.alive phase + endsIn phase told
  first : ∀ n ∈ told.tail, n.isStart = false
  positive : ∀ n ∈ told, n.isStart = true → ∃ phase, 0 < n.answersIn phase

lemma Orderly.serves (h : n.Orderly) {s : Shard} (events : List Event)
    (hs : n.shard.Closes s outputs) :
    Serves n { n with shard := s, events := events } (noticesOf outputs) := by
  obtain ⟨preparations, rest, hqueue, hprepare, hplain, hidle⟩ := h.queue
  have hanswers := hs.answers
  refine ⟨⟨h.running, hs.sound, preparations, rest, hqueue, hprepare, hplain, ?_⟩, ?_,
    hs.balance, hanswers.first, hanswers.positive⟩
  · intro hne phase
    have hbalance := hs.balance phase
    rw [hidle hne phase, startedIn_of_no_start phase hs.quiet] at hbalance
    change s.alive phase = 0
    omega
  · intro phase
    rw [hanswers.answered phase]
    rfl

lemma event?_serves (h : n.Orderly) (he : n.event? now = some (n', outputs))
    (hout : Harmless outputs) : Serves n n' (noticesOf outputs) := by
  obtain ⟨shard, commands, events, running⟩ := n
  obtain rfl : running = true := h.running
  cases events with
  | nil => cases he
  | cons event rest =>
    cases he
    exact h.serves rest (Shard.handleEvent_closes h.sound event hout)

lemma timers?_serves (h : n.Orderly) (he : n.timers? now = some (n', outputs))
    (hout : Harmless outputs) : Serves n n' (noticesOf outputs) := by
  unfold timers? at he
  split at he
  · simp only [Option.some.injEq, Prod.mk.injEq] at he
    obtain ⟨rfl, rfl⟩ := he
    exact h.serves n.events (Shard.closes_prevails.fire n.shard now _ h.sound hout)
  · cases he

lemma command?_cons {c : Command} {rest : List Command} (hrun : n.running = true)
    (hq : n.commands = c :: rest) (hc : c ≠ .shutdown) (now : Nanos) :
    n.command? now = some ({ n with
      shard := (n.shard.handleCommand now c).1
      commands := rest }, (n.shard.handleCommand now c).2) := by
  obtain ⟨shard, commands, events, running⟩ := n
  obtain rfl : running = true := hrun
  obtain rfl : commands = c :: rest := hq
  cases c with
  | shutdown => exact absurd rfl hc
  | prepare phase name scenario capacity => rfl
  | start index count => rfl
  | terminate index => rfl
  | collect index reset => rfl

lemma command?_serves (h : n.Orderly) (he : n.command? now = some (n', outputs))
    (hout : Harmless outputs) : Serves n n' (noticesOf outputs) := by
  obtain ⟨preparations, rest, hqueue, hprepare, hplain, hidle⟩ := h.queue
  cases preparations with
  | nil =>
    cases rest with
    | nil => simp [command?, hqueue] at he
    | cons c rest =>
      have hc := hplain c List.mem_cons_self
      have hne : c ≠ .shutdown := by
        rintro rfl
        cases hc
      rw [command?_cons h.running hqueue hne] at he
      cases he
      have hanswers := Shard.plain_answers h.sound hc hout
      refine ⟨⟨h.running, hanswers.sound, [], rest, rfl, by simp, ?_, by simp⟩, ?_,
        hanswers.balance, hanswers.first, hanswers.positive⟩
      · intro d hd
        exact hplain d (List.mem_cons_of_mem c hd)
      · intro phase
        rw [hqueue, List.nil_append, startsIn_cons, hanswers.answered phase]
        exact Nat.add_comm _ _
  | cons c preparations =>
    have hc := hprepare c List.mem_cons_self
    have hne : c ≠ .shutdown := by
      rintro rfl
      cases hc
    rw [command?_cons h.running hqueue hne] at he
    cases he
    have hnone := hidle (by simp)
    obtain ⟨htold, hsound, hidle'⟩ := Shard.prepare_answers h.sound hc hnone hout
    have hzero (phase : Nat) : c.startsIn phase = 0 := by
      cases c with
      | start index count => cases hc
      | _ => rfl
    rw [htold]
    refine ⟨⟨h.running, hsound, preparations, rest, rfl, ?_, hplain, fun _ => hidle'⟩, ?_, ?_,
      by simp, by simp⟩
    · intro d hd
      exact hprepare d (List.mem_cons_of_mem c hd)
    · intro phase
      rw [hqueue, List.cons_append, startsIn_cons, hzero phase, Nat.zero_add]
      rfl
    · intro phase
      rw [hnone phase, hidle' phase]
      rfl

lemma Orderly.send (h : n.Orderly) {c : Command} (hc : c.isPlain = true) :
    n.send c = some { n with commands := n.commands ++ [c] } ∧
      Orderly { n with commands := n.commands ++ [c] } := by
  obtain ⟨preparations, rest, hqueue, hprepare, hplain, hidle⟩ := h.queue
  refine ⟨by simp [Node.send, h.running], h.running, h.sound, preparations, rest ++ [c], ?_,
    hprepare, ?_, hidle⟩
  · simp only [hqueue, List.append_assoc]
  · intro d hd
    rcases List.mem_append.mp hd with hd | hd
    · exact hplain d hd
    · rw [List.mem_singleton.mp hd]
      exact hc

lemma Orderly.deliver (h : n.Orderly) (events : List Event) :
    n.deliver events = { n with events := n.events ++ events } ∧ (n.deliver events).Orderly := by
  have heq : n.deliver events = { n with events := n.events ++ events } := by
    simp [Node.deliver, h.running]
  exact ⟨heq, heq ▸ ⟨h.running, h.sound, h.queue⟩⟩

end Node

end LoadEngine
