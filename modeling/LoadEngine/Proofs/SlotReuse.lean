import LoadEngine.Proofs.CountedOnce
import LoadEngine.Proofs.Renumbering

/-! Slots that go from one user to the next. All that the earlier users of a slot leave in it are
two numbers: whatever happens to the next one would happen in the same way to the first user of a
slot, with the tags counted from the start, and nothing comes of what earlier users waited for. -/

namespace LoadEngine

namespace Pool

variable {α : Type} (f : α → α) (p : Pool α)

def onAll : Pool α := { p with cells := p.cells.map fun cell => { cell with item := f cell.item } }

lemma onAll_get? (slot : Nat) : (p.onAll f).get? slot = (p.get? slot).map f := by
  unfold get? onAll
  rw [Array.getElem?_map]
  cases p.cells[slot]? with
  | none => rfl
  | some cell => cases hheld : cell.held <;> simp [hheld]

lemma onAll_acquire : (p.onAll f).acquire = (p.acquire.1, p.acquire.2.onAll f) := by
  unfold acquire
  have hfree : (p.onAll f).free = p.free := rfl
  rw [hfree]
  cases p.free with
  | nil => rfl
  | cons slot rest =>
    have hmark : (p.onAll f).mark slot true =
        (p.mark slot true).map fun cell => { cell with item := f cell.item } := by
      refine Array.ext_getElem? fun i => ?_
      simp only [mark, onAll, Array.getElem?_modify, Array.getElem?_map]
      split <;> cases p.cells[i]? <;> rfl
    simp only [hmark, outstanding, capacity, available, Array.size_map]
    rfl

lemma onAll_update (slot : Nat) (a : α) :
    (p.onAll f).update slot (fun _ => f a) = (p.update slot fun _ => a).onAll f := by
  unfold update onAll
  congr 1
  refine Array.ext_getElem? fun i => ?_
  simp only [Array.getElem?_modify, Array.getElem?_map]
  cases p.cells[i]? with
  | none => split <;> rfl
  | some cell => split <;> cases hheld : cell.held <;> simp [hheld]

lemma onAll_release {reset : α → α} (hreset : ∀ a, reset (f a) = f (reset a)) (slot : Nat) :
    (p.onAll f).release reset slot = (p.release reset slot).map (onAll f) := by
  unfold release
  have hcell : (p.onAll f).cells[slot]? =
      p.cells[slot]?.map fun cell => { cell with item := f cell.item } := Array.getElem?_map ..
  rw [hcell]
  cases p.cells[slot]? with
  | none =>
    have hcapacity : (p.onAll f).capacity = p.capacity := Array.size_map
    simp only [Option.map_none, hcapacity]
    rfl
  | some cell =>
    cases hheld : cell.held with
    | false => simp [hheld, Except.map]
    | true =>
      simp [hheld, Except.map, onAll, outstanding, capacity, available, Array.map_setIfInBounds,
        hreset]

lemma onAll_resetMarks : (p.onAll f).resetMarks = p.resetMarks.onAll f := by
  simp only [resetMarks, onAll, outstanding, capacity, available, Array.size_map]

lemma update_same {slot : Nat} {a : α} (h : p.get? slot = some a) :
    (p.update slot fun _ => a) = p := by
  obtain ⟨-, hitem⟩ := get?_eq_some.mp h
  unfold update
  congr 1
  refine Array.ext_getElem? fun i => ?_
  rw [Array.getElem?_modify]
  split
  · rename_i hi
    subst hi
    unfold item? at hitem
    cases hc : p.cells[slot]? with
    | none => rfl
    | some cell =>
      rw [hc] at hitem
      cases hitem
      simp
  · rfl

end Pool

namespace Lane

variable (σ : Nat → Offset) (lane : Lane)

def shift : Lane :=
  { lane with
    sessions := lane.sessions.onAll (.shift σ)
    requests := lane.requests.onHeld (.shift σ) }

def Seated : Prop := ∀ slot s, lane.sessions.item? slot = some s → s.slot = slot

lemma shift_free (slot : Nat) (how : SessionEnd) :
    (lane.shift σ).free slot how =
      ((lane.free slot how).1.shift σ, (lane.free slot how).2.shift σ) := by
  have hreset (s : Session) : Session.recycle lane.scenario (s.shift σ) =
      (Session.recycle lane.scenario s).shift σ := rfl
  have hreleased : (lane.shift σ).sessions.release (Session.recycle (lane.shift σ).scenario) slot =
      (lane.sessions.release (Session.recycle lane.scenario) slot).map (.onAll (.shift σ)) :=
    Pool.onAll_release (.shift σ) lane.sessions hreset slot
  unfold free
  rw [hreleased]
  cases hr : lane.sessions.release (Session.recycle lane.scenario) slot with
  | ok sessions => rfl
  | error fault => simp only [Except.map, Verdict.shift, Turn.release_fault σ hr]

lemma shift_drive {lane : Lane} (h : lane.Seated) (phase : Nat) (now : Nanos) {slot : Nat}
    {cause : Cause} (htag : ∀ tag, cause.tag? = some tag → tag.slot = slot) :
    (lane.shift σ).drive phase now slot (cause.shift σ).act =
      ((lane.drive phase now slot cause.act).1.shift σ,
        (lane.drive phase now slot cause.act).2.1.map (.shift σ),
        (lane.drive phase now slot cause.act).2.2.shift σ) := by
  have hget : (lane.shift σ).sessions.get? slot = (lane.sessions.get? slot).map (.shift σ) :=
    Pool.onAll_get? ..
  unfold drive
  rw [hget]
  cases hs : lane.sessions.get? slot with
  | none => rfl
  | some s =>
    have hslot := h slot s (Pool.get?_eq_some.mp hs).2
    have hact := Turn.shift_act σ ⟨s, lane.requests, lane.recorder, []⟩
      ⟨lane.scenario, phase, now⟩ cause fun tag ht => (htag tag ht).trans hslot.symm
    have hacted : (cause.shift σ).act ⟨(lane.shift σ).scenario, phase, now⟩
        ⟨s.shift σ, (lane.shift σ).requests, (lane.shift σ).recorder, []⟩ = _ := hact
    simp only [Option.map_some, hacted, Turn.shiftOut]
    generalize cause.act ⟨lane.scenario, phase, now⟩ ⟨s, lane.requests, lane.recorder, []⟩ = out
    obtain ⟨t, verdict⟩ := out
    have hlane : ({ lane.shift σ with
          sessions := (lane.shift σ).sessions.update slot fun _ => (t.shift σ).session
          requests := (t.shift σ).requests
          recorder := (t.shift σ).recorder } : Lane) =
        shift σ { lane with
          sessions := lane.sessions.update slot fun _ => t.session
          requests := t.requests
          recorder := t.recorder } := by
      unfold shift
      rw [← Pool.onAll_update]
      rfl
    cases verdict with
    | alive | broken =>
      simp only [Verdict.shift]
      rw [hlane]
      rfl
    | ended how =>
      simp only [Verdict.shift]
      rw [hlane, shift_free]
      rfl

lemma Seated.free {lane : Lane} (h : lane.Seated) (slot : Nat) (how : SessionEnd) :
    (lane.free slot how).1.Seated := by
  unfold Lane.free
  split
  · rename_i sessions hr
    intro j s hj
    rw [Pool.release_item? hr] at hj
    split at hj
    · obtain ⟨s', hs', rfl⟩ := Option.map_eq_some_iff.mp hj
      exact h j s' hs'
    · exact h j s hj
  · exact h

lemma Seated.drive {lane : Lane} (h : lane.Seated) (phase : Nat) (now : Nanos) (slot : Nat)
    (cause : Cause) : (lane.drive phase now slot cause.act).1.Seated := by
  unfold Lane.drive
  cases hs : lane.sessions.get? slot with
  | none => exact h
  | some s =>
    have hslot : s.slot = slot := h slot s (Pool.get?_eq_some.mp hs).2
    have hacted : (cause.act ⟨lane.scenario, phase, now⟩
        ⟨s, lane.requests, lane.recorder, []⟩).1.session.slot = slot :=
      (Turn.act_slot cause).trans hslot
    simp only
    generalize cause.act ⟨lane.scenario, phase, now⟩ ⟨s, lane.requests, lane.recorder, []⟩ = out
      at hacted ⊢
    obtain ⟨t, verdict⟩ := out
    have hupdated : Seated { lane with
        sessions := lane.sessions.update slot fun _ => t.session
        requests := t.requests
        recorder := t.recorder } := by
      intro j s' hj
      rw [Pool.update_item?] at hj
      split at hj
      · rename_i hhere
        obtain ⟨-, -, rfl⟩ := Option.map_eq_some_iff.mp hj
        exact hacted.trans hhere.1.symm
      · exact h j s' hj
    cases verdict with
    | ended how => exact hupdated.free slot how
    | alive | broken => exact hupdated

lemma Seated.acquire {lane : Lane} (h : lane.Seated) {slot : Nat} {sessions : Pool Session}
    (ha : lane.sessions.acquire = (some slot, sessions)) : Seated { lane with sessions } := by
  intro j s hj
  have hitem := Pool.acquire_item? (congrArg Prod.fst ha) j
  rw [ha] at hitem
  exact h j s (hitem ▸ hj)

end Lane

/-- What happens to a lane: a session is to start in it, something comes for a session by its tag, a
session has to end, or what was recorded is forgotten. -/
inductive Cue where
  | arrive (now : Nanos)
  | come (now : Nanos) (cause : Cause)
  | terminate (now : Nanos) (slot : Nat)
  | reset

/-- What comes of it: what a session asks for, its end, or a breach of the contract. -/
inductive Echo where
  | asks (effect : Effect)
  | ends (slot : Nat) (how : SessionEnd)
  | breaks (fault : ContractViolation)

def Verdict.echoes (slot : Nat) : Verdict → List Echo
  | alive => []
  | ended how => [.ends slot how]
  | broken fault => [.breaks fault]

namespace Lane

def take (lane : Lane) (phase : Nat) (now : Nanos) (slot : Nat) (cause : Cause) :
    Lane × List Echo :=
  let (lane, effects, verdict) := lane.drive phase now slot cause.act
  (lane, effects.map .asks ++ verdict.echoes slot)

def follow (lane : Lane) (phase : Nat) : Cue → Lane × List Echo
  | .arrive now =>
    match lane.sessions.acquire with
    | (none, _) => (lane, [])
    | (some slot, sessions) => { lane with sessions }.take phase now slot .start
  | .come now cause =>
    match cause.tag? with
    | none => (lane, [])
    | some tag => lane.take phase now tag.slot cause
  | .terminate now slot => lane.take phase now slot .terminate
  | .reset => (lane.reset, [])

def play (lane : Lane) (phase : Nat) : List Cue → Lane × List Echo
  | [] => (lane, [])
  | cue :: rest =>
    let (lane, echoes) := lane.follow phase cue
    let (lane, more) := lane.play phase rest
    (lane, echoes ++ more)

end Lane

section Shift

variable (σ : Nat → Offset)

def Cue.shift : Cue → Cue
  | .come now cause => .come now (cause.shift σ)
  | cue => cue

def Echo.shift : Echo → Echo
  | .asks effect => .asks (effect.shift σ)
  | .ends slot how => .ends slot how
  | .breaks fault => .breaks (fault.shift σ)

lemma Verdict.shift_echoes (slot : Nat) (verdict : Verdict) :
    (verdict.shift σ).echoes slot = (verdict.echoes slot).map (.shift σ) := by
  cases verdict <;> rfl

end Shift

def Offset.Covers (a : Offset) (tag : Tag) : Prop := tag.generation ≤ a.generations ∧ tag.op < a.ops

/-- The cues of a script under other numbers, and among them whatever comes for waits with numbers
that were left out. -/
inductive Recalls (phase : Nat) (σ : Nat → Offset) : List Cue → List Cue → Prop
  | nil : Recalls phase σ [] []
  | cue {script cues : List Cue} (cue : Cue) (h : Recalls phase σ script cues) :
      Recalls phase σ (cue :: script) (cue.shift σ :: cues)
  | late {script cues : List Cue} {cause : Cause} {tag : Tag} (now : Nanos)
      (htag : cause.tag? = some tag) (hphase : tag.phase = phase)
      (hcovers : (σ tag.slot).Covers tag) (h : Recalls phase σ script cues) :
      Recalls phase σ script (.come now cause :: cues)

section Recalls

variable {phase : Nat} {σ : Nat → Offset}

def Offset.Leaves (a : Offset) (tag : Tag) : Prop := a.generations ≤ tag.generation ∧ a.ops ≤ tag.op

lemma Tag.exists_shift {tag : Tag} (h : (σ tag.slot).Leaves tag) :
    ∃ tag₀ : Tag, tag₀.shift σ = tag := by
  refine ⟨{ tag with
    generation := tag.generation - (σ tag.slot).generations
    op := tag.op - (σ tag.slot).ops }, ?_⟩
  simp only [Tag.shift, Nat.sub_add_cancel h.1, Nat.sub_add_cancel h.2]

lemma Cause.exists_shift {cause : Cause}
    (h : ∀ tag, cause.tag? = some tag → (σ tag.slot).Leaves tag) :
    ∃ cause₀ : Cause, cause₀.shift σ = cause := by
  cases cause with
  | start => exact ⟨.start, rfl⟩
  | terminate => exact ⟨.terminate, rfl⟩
  | data tag fragment =>
    obtain ⟨tag₀, rfl⟩ := Tag.exists_shift (h tag rfl)
    exact ⟨.data tag₀ fragment, rfl⟩
  | complete tag completion =>
    obtain ⟨tag₀, rfl⟩ := Tag.exists_shift (h tag rfl)
    exact ⟨.complete tag₀ completion, rfl⟩
  | timer due =>
    obtain ⟨time, tag, kind⟩ := due
    obtain ⟨tag₀, rfl⟩ := Tag.exists_shift (h tag rfl)
    exact ⟨.timer ⟨time, tag₀, kind⟩, rfl⟩

theorem exists_recalls {cues : List Cue}
    (h : ∀ now cause tag, .come now cause ∈ cues → cause.tag? = some tag →
      (tag.phase = phase ∧ (σ tag.slot).Covers tag) ∨ (σ tag.slot).Leaves tag) :
    ∃ script, Recalls phase σ script cues := by
  induction cues with
  | nil => exact ⟨[], .nil⟩
  | cons cue rest ih =>
    obtain ⟨script, hrest⟩ := ih fun now cause tag hmem => h now cause tag (.tail _ hmem)
    cases cue with
    | arrive now => exact ⟨_, .cue (.arrive now) hrest⟩
    | terminate now slot => exact ⟨_, .cue (.terminate now slot) hrest⟩
    | reset => exact ⟨_, .cue .reset hrest⟩
    | come now cause =>
      by_cases hlate : ∃ tag, cause.tag? = some tag ∧ tag.phase = phase ∧ (σ tag.slot).Covers tag
      · obtain ⟨tag, htag, hphase, hcovers⟩ := hlate
        exact ⟨script, .late now htag hphase hcovers hrest⟩
      · obtain ⟨cause₀, rfl⟩ := Cause.exists_shift fun tag htag =>
          (h now cause tag (.head _) htag).resolve_left fun hcovers => hlate ⟨tag, htag, hcovers⟩
        exact ⟨_, .cue (.come now cause₀) hrest⟩

end Recalls

namespace Lane

variable {σ : Nat → Offset} {lane : Lane}

lemma shift_take (h : lane.Seated) (phase : Nat) (now : Nanos) {slot : Nat} (cause : Cause)
    (htag : ∀ tag, cause.tag? = some tag → tag.slot = slot) :
    (lane.shift σ).take phase now slot (cause.shift σ) =
      ((lane.take phase now slot cause).1.shift σ,
        (lane.take phase now slot cause).2.map (.shift σ)) := by
  unfold take
  rw [shift_drive σ h phase now htag]
  simp only [List.map_append, List.map_map, Verdict.shift_echoes]
  rfl

lemma Seated.follow (h : lane.Seated) (phase : Nat) (cue : Cue) :
    (lane.follow phase cue).1.Seated := by
  cases cue with
  | arrive now =>
    simp only [Lane.follow]
    split
    · exact h
    · rename_i slot sessions ha
      exact (h.acquire ha).drive phase now slot .start
  | come now cause =>
    simp only [Lane.follow]
    split
    · exact h
    · exact h.drive phase now _ cause
  | terminate now slot => exact h.drive phase now slot .terminate
  | reset => exact h

lemma shift_follow (h : lane.Seated) (phase : Nat) (cue : Cue) :
    (lane.shift σ).follow phase (cue.shift σ) =
      ((lane.follow phase cue).1.shift σ, (lane.follow phase cue).2.map (.shift σ)) := by
  cases cue with
  | arrive now =>
    have ha : (lane.shift σ).sessions.acquire =
        (lane.sessions.acquire.1, lane.sessions.acquire.2.onAll (.shift σ)) :=
      Pool.onAll_acquire ..
    simp only [Cue.shift, follow, ha]
    generalize hacquire : lane.sessions.acquire = out
    obtain ⟨slot?, sessions⟩ := out
    cases slot? with
    | none => rfl
    | some slot =>
      exact shift_take (h.acquire hacquire) phase now .start nofun
  | come now cause =>
    have htag : (cause.shift σ).tag? = cause.tag?.map (.shift σ) := by cases cause <;> rfl
    simp only [Cue.shift, follow, htag]
    cases hcause : cause.tag? with
    | none => rfl
    | some tag =>
      refine shift_take h phase now cause fun other hother => ?_
      rw [hcause] at hother
      cases hother
      rfl
  | terminate now slot => exact shift_take h phase now .terminate nofun
  | reset =>
    have hreset : (lane.shift σ).reset = lane.reset.shift σ := by
      unfold reset shift
      simp only [Pool.onAll_resetMarks, Pool.onHeld_resetMarks]
    simp only [Cue.shift, follow, hreset, List.map_nil]

lemma shift_follow_late {phase : Nat} {cause : Cause} {tag : Tag} (now : Nanos) (h : lane.Seated)
    (htag : cause.tag? = some tag) (hphase : tag.phase = phase)
    (hcovers : (σ tag.slot).Covers tag) :
    (lane.shift σ).follow phase (.come now cause) = (lane.shift σ, []) := by
  simp only [follow, htag, take, drive]
  cases hs : (lane.shift σ).sessions.get? tag.slot with
  | none => rfl
  | some s =>
    have hget : (lane.shift σ).sessions.get? tag.slot =
        (lane.sessions.get? tag.slot).map (.shift σ) := Pool.onAll_get? ..
    obtain ⟨s₀, hs₀, rfl⟩ := Option.map_eq_some_iff.mp (hget.symm.trans hs)
    have hslot : s₀.slot = tag.slot := h tag.slot s₀ (Pool.get?_eq_some.mp hs₀).2
    obtain ⟨kind, hmeant⟩ := Cause.tag?_eq_some.mp htag
    have hknows : (s₀.shift σ).Knows tag := by
      obtain ⟨hgeneration, hop⟩ := hcovers
      rw [← hslot] at hgeneration hop
      exact ⟨hgeneration.trans (Nat.le_add_left _ _), hop.trans_le (Nat.le_add_left _ _)⟩
    have hnot : ¬ (s₀.shift σ).Pends phase tag kind := by
      rintro ⟨k, b, hb, hop, -, -⟩
      rw [Session.shift_branch] at hb
      obtain ⟨b₀, -, rfl⟩ := Option.map_eq_some_iff.mp hb
      have hlt := hcovers.2
      rw [← hslot] at hlt
      cases hw : b₀.wait <;> simp [Branch.shift, Wait.shift, Wait.number?, hw] at hop <;> omega
    have hignores : (s₀.shift σ).Ignores (lane.shift σ).scenario phase cause :=
      Session.ignores_of_not_pends hknows hphase hslot.symm hmeant hnot
    have hacted := hignores now
      ⟨s₀.shift σ, (lane.shift σ).requests, (lane.shift σ).recorder, []⟩ rfl
    simp only [hacted, Pool.update_same _ hs]
    rfl

lemma play_cons (lane : Lane) (phase : Nat) (cue : Cue) (rest : List Cue) :
    lane.play phase (cue :: rest) =
      (((lane.follow phase cue).1.play phase rest).1,
        (lane.follow phase cue).2 ++ ((lane.follow phase cue).1.play phase rest).2) := rfl

theorem shift_play (h : lane.Seated) {phase : Nat} {script cues : List Cue}
    (hrecalls : Recalls phase σ script cues) :
    (lane.shift σ).play phase cues =
      ((lane.play phase script).1.shift σ, (lane.play phase script).2.map (.shift σ)) := by
  induction hrecalls generalizing lane with
  | nil => rfl
  | cue cue _ ih =>
    simp only [play_cons, shift_follow h, ih (h.follow phase cue), List.map_append]
  | late now htag hphase hcovers _ ih =>
    simp only [play_cons, shift_follow_late now h htag hphase hcovers, ih h, List.nil_append]

end Lane

def Echo.call? : Echo → Option (Operation BoundValidator × Tag)
  | asks (.issue operation tag) => some (operation, tag)
  | _ => none

namespace Visit

def cue? (phase : Nat) (v : Visit) : Option Cue :=
  if v.phase = phase then
    some (match v.cause with
      | .start => .arrive v.now
      | .terminate => .terminate v.now v.slot
      | cause => .come v.now cause)
  else none

def callsIn (phase : Nat) (v : Visit) : List (Operation BoundValidator × Tag) :=
  if v.phase = phase then callsOf v.outputs else []

end Visit

lemma Lane.take_calls (lane : Lane) (phase : Nat) (now : Nanos) (slot : Nat) (cause : Cause) :
    (lane.take phase now slot cause).2.filterMap Echo.call? =
      Rehearsal.issues (lane.drive phase now slot cause.act).2.1 := by
  have hverdict (verdict : Verdict) : (verdict.echoes slot).filterMap Echo.call? = [] := by
    cases verdict <;> rfl
  simp only [Lane.take, List.filterMap_append, hverdict, List.append_nil, List.filterMap_map]
  unfold Rehearsal.issues
  refine List.filterMap_congr fun effect _ => ?_
  cases effect <;> rfl

namespace Shard

variable {s s₁ s' : Shard} {now : Nanos} {cause : Cause} {phase slot : Nat} {lane : Lane}
  {visits : List Visit}

lemma turn_takes (hlane : s.lanes.get? phase = some lane) (now : Nanos) (slot : Nat)
    (cause : Cause) :
    (s.turn now phase slot cause).1.lanes.get? phase =
        some (lane.take phase now slot cause).1 ∧
      callsOf (s.turn now phase slot cause).2.outputs =
        (lane.take phase now slot cause).2.filterMap Echo.call? := by
  rw [Lane.take_calls]
  unfold Lane.take
  generalize hdrive : lane.drive phase now slot cause.act = out
  obtain ⟨lane', effects, verdict⟩ := out
  obtain ⟨s', outputs, hturned, hturn⟩ := turn_eq hlane hdrive
  rw [hturn, hturned.lanes, OrderedMap.get?_insert_self]
  exact ⟨rfl, hturned.calls⟩

lemma turn_lane_of_ne {p : Nat} (hne : p ≠ phase) (s : Shard) (now : Nanos) (slot : Nat)
    (cause : Cause) : (s.turn now p slot cause).1.lanes.get? phase = s.lanes.get? phase := by
  cases hother : s.lanes.get? p with
  | none => rw [turn_of_none hother]
  | some other =>
    generalize hdrive : other.drive p now slot cause.act = out
    obtain ⟨lane', effects, verdict⟩ := out
    obtain ⟨s', outputs, hturned, hturn⟩ := turn_eq hother hdrive
    rw [hturn, hturned.lanes, OrderedMap.get?_insert_ne _ _ hne.symm]

lemma Arises.lane_of_ne {p : Nat} (ha : Arises s now cause p slot s₁) (hne : p ≠ phase) :
    s₁.lanes.get? phase = s.lanes.get? phase := by
  cases ha with
  | start ha =>
    obtain ⟨other, sessions, -, -, rfl⟩ := acquire_eq_some ha
    exact OrderedMap.get?_insert_ne _ _ hne.symm
  | data | complete | timer | terminate => rfl

lemma Arises.follows (ha : Arises s now cause phase slot s₁)
    (hlane : s.lanes.get? phase = some lane) :
    ∃ cue, (s₁.turn now phase slot cause).2.cue? phase = some cue ∧
      (s₁.turn now phase slot cause).1.lanes.get? phase = some (lane.follow phase cue).1 ∧
      callsOf (s₁.turn now phase slot cause).2.outputs =
        (lane.follow phase cue).2.filterMap Echo.call? := by
  cases ha with
  | start ha =>
    obtain ⟨before, sessions, hbefore, hacquire, rfl⟩ := acquire_eq_some ha
    obtain rfl := Option.some.inj (hlane.symm.trans hbefore)
    refine ⟨.arrive now, if_pos rfl, ?_⟩
    simp only [Lane.follow, hacquire]
    exact turn_takes (OrderedMap.get?_insert_self _ _ _) now slot .start
  | data tag fragment => exact ⟨_, if_pos rfl, turn_takes hlane now tag.slot _⟩
  | complete tag completion => exact ⟨_, if_pos rfl, turn_takes hlane now tag.slot _⟩
  | @timer due timers _ =>
    exact ⟨_, if_pos rfl, turn_takes (s := { s with timers }) hlane now due.tag.slot (.timer due)⟩
  | terminate => exact ⟨_, if_pos rfl, turn_takes hlane now slot .terminate⟩

theorem Course.plays (h : Course s visits s') (hlane : s.lanes.get? phase = some lane) :
    s'.lanes.get? phase = some (lane.play phase (visits.filterMap (Visit.cue? phase))).1 ∧
      visits.flatMap (Visit.callsIn phase) =
        (lane.play phase (visits.filterMap (Visit.cue? phase))).2.filterMap Echo.call? := by
  induction h generalizing lane with
  | nil => exact ⟨hlane, rfl⟩
  | @cons s s₁ s' now cause p slot visits ha _ ih =>
    rw [List.flatMap_cons]
    by_cases hp : p = phase
    · subst hp
      obtain ⟨cue, hcue, hfollowed, hcalls⟩ := ha.follows hlane
      obtain ⟨hplayed, hmore⟩ := ih hfollowed
      have hhere : (s₁.turn now p slot cause).2.callsIn p = _ := (if_pos rfl).trans hcalls
      rw [List.filterMap_cons_some hcue, Lane.play_cons, List.filterMap_append, hhere, hmore]
      exact ⟨hplayed, rfl⟩
    · have hcue : (s₁.turn now p slot cause).2.cue? phase = none := if_neg hp
      have hhere : (s₁.turn now p slot cause).2.callsIn phase = [] := if_neg hp
      rw [List.filterMap_cons_none hcue, hhere]
      refine ih ?_
      rw [turn_lane_of_ne hp, ha.lane_of_ne hp, hlane]

end Shard

namespace Pool

variable {α : Type} {f : α → α} {p : Pool α}

def put (p : Pool α) (slot : Nat) (a : α) : Pool α :=
  { p with cells := p.cells.modify slot fun cell => { cell with item := a } }

lemma put_item? (p : Pool α) (slot : Nat) (a : α) (i : Nat) :
    (p.put slot a).item? i = (p.item? i).map fun b => if i = slot then a else b := by
  unfold put item?
  rw [Array.getElem?_modify]
  cases p.cells[i]? with
  | none => split <;> rfl
  | some cell =>
    split
    · rename_i hi
      simp [hi]
    · rename_i hi
      simp [Ne.symm hi]

lemma onAll_put {slot : Nat} {a : α}
    (h : ∀ i b, p.item? i = some b → f (if i = slot then a else b) = b) :
    (p.put slot a).onAll f = p := by
  unfold put onAll
  congr 1
  refine Array.ext_getElem? fun i => ?_
  have hi := h i
  unfold item? at hi
  simp only [Array.getElem?_map, Array.getElem?_modify]
  cases hc : p.cells[i]? with
  | none => split <;> rfl
  | some cell =>
    rw [hc] at hi
    have hcell := hi cell.item rfl
    split
    · rename_i hslot
      rw [if_pos hslot.symm] at hcell
      simp [hcell]
    · rename_i hslot
      rw [if_neg (Ne.symm hslot)] at hcell
      simp [hcell]

lemma onHeld_same (h : ∀ i b, p.get? i = some b → f b = b) : p.onHeld f = p := by
  unfold onHeld
  congr 1
  refine Array.ext_getElem? fun i => ?_
  have hi := h i
  unfold get? at hi
  rw [Array.getElem?_map]
  cases hc : p.cells[i]? with
  | none => rfl
  | some cell =>
    cases hheld : cell.held with
    | false => simp [hheld]
    | true =>
      rw [hc] at hi
      simp only [hheld, if_true] at hi
      obtain ⟨item, held⟩ := cell
      obtain rfl : held = true := hheld
      exact congrArg (fun item => some (Cell.mk item true)) (hi item rfl)

end Pool

namespace Session

/-- The numbers that the earlier users of a slot have used up. -/
def offset (used : Session) (slot : Nat) : Offset :=
  if slot = used.slot then ⟨used.generation, used.nextOp⟩ else ⟨0, 0⟩

lemma shift_offset_of_ne {used s : Session} (h : s.slot ≠ used.slot) :
    s.shift used.offset = s := by
  have hbranches (b : Branch) : b.shift ⟨0, 0⟩ = b := by
    obtain ⟨sequence, step, wait, parent, children⟩ := b
    cases wait <;> rfl
  have hmap : s.branches.map (Branch.shift ⟨0, 0⟩) = s.branches :=
    (List.map_congr_left fun b _ => hbranches b).trans (List.map_id _)
  unfold shift offset
  rw [if_neg h, hmap]
  rfl

lemma shift_new {scenario : Scenario} {used : Session} (h : used.recycle scenario = used) :
    (new scenario used.slot).shift used.offset = used := by
  have hoffset : used.offset used.slot = ⟨used.generation, used.nextOp⟩ := if_pos rfl
  refine Eq.trans ?_ h
  simp only [shift, new, recycle, hoffset, List.map_nil, Nat.zero_add]

end Session

namespace Lane

variable {lane : Lane}

/-- The lane as it would be if a slot had not had any user. -/
def renew (lane : Lane) (slot : Nat) : Lane :=
  { lane with sessions := lane.sessions.put slot (.new lane.scenario slot) }

lemma Seated.renew (h : lane.Seated) (slot : Nat) : (lane.renew slot).Seated := by
  intro j s hj
  have hput := lane.sessions.put_item? slot (.new lane.scenario slot) j
  obtain ⟨s', hs', rfl⟩ := Option.map_eq_some_iff.mp (hput.symm.trans hj)
  split
  · rename_i hslot
    exact hslot.symm
  · exact h j s' hs'

def Cleared (lane : Lane) : Prop :=
  ∀ slot s, lane.sessions.item? slot = some s → lane.sessions.isAcquired slot = false →
    s.recycle lane.scenario = s

lemma new_cleared (name : String) (scenario : Scenario) (capacity : Nat) (recorder : Recorder) :
    (Lane.new name scenario capacity recorder).Cleared := by
  intro slot s hs _
  simp only [Lane.new, Pool.new_item?] at hs
  split at hs
  · cases hs
    rfl
  · cases hs

lemma Cleared.acquire (h : lane.Cleared) (hsound : lane.sessions.Sound) {slot : Nat}
    {sessions : Pool Session} (ha : lane.sessions.acquire = (some slot, sessions)) :
    Cleared { lane with sessions } := by
  have hfirst : lane.sessions.acquire.1 = some slot := congrArg Prod.fst ha
  intro j s hj hfree
  have hitem := Pool.acquire_item? hfirst j
  have hacquired := Pool.acquire_isAcquired hsound hfirst j
  rw [ha] at hitem hacquired
  rw [hacquired, Bool.or_eq_false_iff] at hfree
  exact h j s (hitem ▸ hj) hfree.1

lemma Cleared.drive (h : lane.Cleared) (hsound : lane.sessions.Sound) (phase : Nat) (now : Nanos)
    (slot : Nat) (cause : Cause) : (lane.drive phase now slot cause.act).1.Cleared := by
  cases hs : lane.sessions.get? slot with
  | none =>
    rw [drive_of_free hs]
    exact h
  | some s =>
    generalize hacted : cause.act ⟨lane.scenario, phase, now⟩
      ⟨s, lane.requests, lane.recorder, []⟩ = out
    obtain ⟨t, verdict⟩ := out
    obtain ⟨sessions, hdrive, -, -, -, hitem, hacquired⟩ := drive_eq hsound hs phase now hacted
    rw [hdrive]
    intro j s' hj hfree
    simp only [hitem, hacquired] at hj hfree
    split at hj
    · rename_i hslot
      rw [if_pos hslot] at hfree
      cases hj
      cases verdict with
      | ended how => rfl
      | alive | broken => cases hfree
    · rename_i hslot
      rw [if_neg hslot] at hfree
      exact h j s' hj hfree

lemma shift_renew {used : Session} (hseated : lane.Seated)
    (hitem : lane.sessions.item? used.slot = some used) (hclear : used.recycle lane.scenario = used)
    (hreturned : ∀ r record, lane.requests.get? r = some record →
      record.session ≠ some used.slot) : (lane.renew used.slot).shift used.offset = lane := by
  have hsessions : (lane.sessions.put used.slot (.new lane.scenario used.slot)).onAll
      (.shift used.offset) = lane.sessions := by
    refine Pool.onAll_put fun i s hs => ?_
    have hslot := hseated i s hs
    split
    · rename_i hi
      subst hi
      obtain rfl := Option.some.inj (hitem.symm.trans hs)
      exact Session.shift_new hclear
    · rename_i hi
      exact Session.shift_offset_of_ne (hslot ▸ hi)
  have hrequests : lane.requests.onHeld (.shift used.offset) = lane.requests := by
    refine Pool.onHeld_same fun r record hr => ?_
    have hother := hreturned r record hr
    obtain ⟨owner, generation, op, issuedAt⟩ := record
    cases owner with
    | none => rfl
    | some slot =>
      have hoffset : used.offset slot = ⟨0, 0⟩ := if_neg fun h => hother (congrArg some h)
      simp only [Request.shift, hoffset, Nat.add_zero]
  unfold shift renew
  rw [hsessions, hrequests]

end Lane

namespace Shard

variable {s s' : Shard} {l : Ledger} {phase slot : Nat} {lane : Lane} {used : Session}
  {visits : List Visit}

theorem Run.cleared (h : Run s l) (hlane : s.lanes.get? phase = some lane) : lane.Cleared := by
  refine h.lanes (Q := fun _ lane => lane.Cleared) ?_ ?_ ?_ ?_ hlane
  · exact fun _ => Lane.new_cleared
  · exact fun hlane slot s hs hfree => hlane slot s hs hfree
  · exact fun hlane hsound ha => hlane.acquire hsound ha
  · exact fun now hlane hbooks => hlane.drive hbooks.sessions _ now _ _

/-- Nothing of the earlier users of a slot comes through to the next one. Once the slot is free no
request slot is kept for them, and all that they asked for has tags that will be taken for late.
Whatever happens then, late or not, the phase is the same after it, and has given out the same, as
if the slot had not had any user; only the numbers of the slot go on. -/
structure LeavesNothing (s : Shard) (l : Ledger) (phase : Nat) (lane : Lane) (used : Session) :
    Prop where
  returned : ∀ r record, lane.requests.get? r = some record → record.session ≠ some used.slot
  late : ∀ tag, (∃ f ∈ l.of phase used.slot, f.tag = tag) ∨
    (∃ timer ∈ s.timersOf phase used.slot, timer.tag = tag) →
      tag.phase = phase ∧ (used.offset tag.slot).Covers tag
  same : ∀ script cues, Recalls phase used.offset script cues →
    lane.play phase cues = (((lane.renew used.slot).play phase script).1.shift used.offset,
      ((lane.renew used.slot).play phase script).2.map (.shift used.offset))
  course : ∀ visits s' script, Course s visits s' →
    Recalls phase used.offset script (visits.filterMap (Visit.cue? phase)) →
      s'.lanes.get? phase =
          some (((lane.renew used.slot).play phase script).1.shift used.offset) ∧
        visits.flatMap (Visit.callsIn phase) =
          (((lane.renew used.slot).play phase script).2.map (.shift used.offset)).filterMap
            Echo.call?

theorem Run.leavesNothing (h : Run s l) (hlane : s.lanes.get? phase = some lane)
    (hused : lane.sessions.item? slot = some used) (hfree : lane.sessions.isAcquired slot = false) :
    s.LeavesNothing l phase lane used := by
  obtain ⟨reached, weight, hbooks⟩ := h.books.lanes phase lane hlane
  have hplaced := hbooks.placed slot used hused
  obtain rfl := hplaced.slot
  have hseated : lane.Seated := fun j s hj => (hbooks.placed j s hj).slot
  have hreturned : ∀ r record, lane.requests.get? r = some record →
      record.session ≠ some used.slot := by
    intro r record hr hsession
    obtain ⟨owner, howner, hheld⟩ := hbooks.owners r record hr
    obtain rfl := Option.some.inj (hsession.symm.trans howner)
    rw [hfree] at hheld
    cases hheld
  -- All that earlier users left in the lane is where the numbers of the slot begin.
  have hrenewed : (lane.renew used.slot).shift used.offset = lane :=
    Lane.shift_renew hseated hused (h.cleared hlane used.slot used hused hfree) hreturned
  have hsame : ∀ script cues, Recalls phase used.offset script cues →
      lane.play phase cues = (((lane.renew used.slot).play phase script).1.shift used.offset,
        ((lane.renew used.slot).play phase script).2.map (.shift used.offset)) := by
    intro script cues hrecalls
    have hplayed := Lane.shift_play (hseated.renew used.slot) hrecalls
    rwa [hrenewed] at hplayed
  refine ⟨hreturned, ?_, hsame, fun visits s' script hc hrecalls => ?_⟩
  · intro tag hleft
    have hknown : tag.phase = phase ∧ tag.slot = used.slot ∧ used.Knows tag := by
      rcases hleft with ⟨f, hf, rfl⟩ | ⟨timer, htimer, rfl⟩
      · have hof := (List.mem_filter.mp hf).2
        simp only [Flight.isOf, Bool.and_eq_true, beq_iff_eq] at hof
        exact ⟨hof.1, hof.2, hplaced.booked.flightsKnown f hf⟩
      · have hof := (List.mem_filter.mp htimer).2
        simp only [Bool.and_eq_true, beq_iff_eq] at hof
        exact ⟨hof.1, hof.2, hplaced.booked.timersKnown timer htimer⟩
    obtain ⟨hphase, hslot, hknows⟩ := hknown
    have hoffset : used.offset tag.slot = ⟨used.generation, used.nextOp⟩ := if_pos hslot
    rw [hoffset]
    exact ⟨hphase, hknows⟩
  · obtain ⟨hplayed, hcalls⟩ := hc.plays hlane
    rw [hsame script _ hrecalls] at hplayed hcalls
    exact ⟨hplayed, hcalls⟩

end Shard

def errandLeavings : Session :=
  ⟨1, 1, 1, .idle, [], [.cursor .start, .cursor .start]⟩

def errandScript : List Cue :=
  [.arrive 7, .come 9 (.data ⟨0, 1, 0, 0, 0⟩ [98]), .come 10 (.complete ⟨0, 1, 0, 0, 0⟩ .success),
    .come 15 (.timer ⟨15, ⟨0, 1, 0, 1, 1⟩, .wake⟩)]

def errandCues : List Cue :=
  [.arrive 7, .come 8 (.complete ⟨0, 1, 0, 0, 0⟩ .success),
    .come 9 (.data ⟨0, 1, 1, 0, 1⟩ [98]), .come 10 (.complete ⟨0, 1, 1, 0, 1⟩ .success),
    .come 11 (.timer ⟨10000000005, ⟨0, 1, 0, 0, 0⟩, .deadline⟩),
    .come 15 (.timer ⟨15, ⟨0, 1, 1, 1, 2⟩, .wake⟩)]

theorem errandGivenUp_leavesNothing : ∃ lane, errandGivenUp.1.lanes.get? 0 = some lane ∧
    lane.sessions.item? 1 = some errandLeavings ∧ lane.sessions.isAcquired 1 = false ∧
    errandGivenUp.1.LeavesNothing ([errandSecond.2, errandGivenUp.2].foldl .after errandBooks) 0
      lane errandLeavings ∧
    Recalls 0 errandLeavings.offset errandScript errandCues ∧
    ((lane.play 0 errandCues).2.filterMap Echo.call?).map Prod.snd = [⟨0, 1, 1, 0, 1⟩] ∧
    (((lane.renew 1).play 0 errandScript).2.filterMap Echo.call?).map Prod.snd =
      [⟨0, 1, 0, 0, 0⟩] ∧
    ((lane.play 0 errandCues).1.held "get").completed = 2 := by
  have hlane : (errandGivenUp.1.lanes.get? 0).map (fun lane => (lane.sessions.item? 1,
      lane.sessions.isAcquired 1, ((lane.play 0 errandCues).2.filterMap Echo.call?).map Prod.snd,
      (((lane.renew 1).play 0 errandScript).2.filterMap Echo.call?).map Prod.snd,
      ((lane.play 0 errandCues).1.held "get").completed)) =
      some (some errandLeavings, false, [⟨0, 1, 1, 0, 1⟩], [⟨0, 1, 0, 0, 0⟩], 2) := by
    decide +kernel
  obtain ⟨lane, hlane, hfacts⟩ := Option.map_eq_some_iff.mp hlane
  simp only [Prod.mk.injEq] at hfacts
  obtain ⟨hused, hfree, hcalls, hfresh, hcompleted⟩ := hfacts
  have hlate : (errandLeavings.offset 1).Covers ⟨0, 1, 0, 0, 0⟩ := ⟨by decide, by decide⟩
  have hrecalls : Recalls 0 errandLeavings.offset errandScript errandCues :=
    .cue (.arrive 7) (.late 8 rfl rfl hlate (.cue (.come 9 (.data ⟨0, 1, 0, 0, 0⟩ [98]))
      (.cue (.come 10 (.complete ⟨0, 1, 0, 0, 0⟩ .success)) (.late 11 rfl rfl hlate
        (.cue (.come 15 (.timer ⟨15, ⟨0, 1, 0, 1, 1⟩, .wake⟩)) .nil)))))
  exact ⟨lane, hlane, hused, hfree,
    Shard.Run.leavesNothing errandGivenUp_run hlane hused hfree, hrecalls, hcalls, hfresh,
    hcompleted⟩

end LoadEngine
