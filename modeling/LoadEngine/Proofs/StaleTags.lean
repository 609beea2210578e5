import LoadEngine.Proofs.SessionRuns
import LoadEngine.Proofs.ShardDeeds
import LoadEngine.Proofs.TagNumbers

/-! What comes too late, too early or for another kind of wait. A session is told by the tag alone
what an event is for, over the whole life of its slot. -/

namespace LoadEngine

def Wait.timer? : Wait → Option TimerKind
  | .operation _ _ => some .deadline
  | .delay _ => some .wake
  | _ => none

/-- The wait that a cause means to end or to feed: by its tag, and of which kind it has to be. -/
def Cause.meant? : Cause → Option (Tag × TimerKind)
  | .data tag _ | .complete tag _ => some (tag, .deadline)
  | .timer due => some (due.tag, due.kind)
  | .start | .terminate => none

lemma Cause.tag?_eq_some {cause : Cause} {tag : Tag} :
    cause.tag? = some tag ↔ ∃ kind, cause.meant? = some (tag, kind) := by
  cases cause <;> simp [Cause.tag?, Cause.meant?]

namespace Session

/-- What can become of the session in a slot of a phase, with all that it told its shard. Whatever
happens to it, it can happen at any time and with any pool of requests; and the slot goes from one
user to the next. -/
inductive Life (scenario : Scenario) (phase : Nat) : Session → List Effect → Prop
  | new (slot : Nat) : Life scenario phase (.new scenario slot) []
  | act {s : Session} {told : List Effect} (h : Life scenario phase s told) (cause : Cause)
      (now : Nanos) (requests : Pool Request) (recorder : Recorder) :
      Life scenario phase
        (cause.act ⟨scenario, phase, now⟩ ⟨s, requests, recorder, []⟩).1.session
        (told ++ (cause.act ⟨scenario, phase, now⟩ ⟨s, requests, recorder, []⟩).1.effects)
  | recycle {s : Session} {told : List Effect} (h : Life scenario phase s told) :
      Life scenario phase (s.recycle scenario) told

def Pends (s : Session) (phase : Nat) (tag : Tag) (kind : TimerKind) : Prop :=
  ∃ k b, s.branches[k]? = some b ∧ b.wait.number? = some tag.op ∧ b.wait.timer? = some kind ∧
    tag = s.tag phase k tag.op

/-- The cause changes nothing: neither the session, nor the pool of requests, nor what is recorded,
nor does it ask the shard for anything. -/
def Ignores (s : Session) (scenario : Scenario) (phase : Nat) (cause : Cause) : Prop :=
  ∀ now t, t.session = s → cause.act ⟨scenario, phase, now⟩ t = (t, .alive)

def Refuses (s : Session) (scenario : Scenario) (phase : Nat) (tag : Tag) (cause : Cause) : Prop :=
  ∀ now t, t.session = s → cause.act ⟨scenario, phase, now⟩ t =
    (t, .broken (.prematureCallback s.slot tag.generation tag.op s.generation))

/-- What tags mean to a session that has told its shard of so much. -/
structure TellsTags (scenario : Scenario) (phase : Nat) (told : List Effect) (s : Session) :
    Prop where
  distinct : (waitTags told).Nodup
  calls : (callTags told).Sublist (waitTags told)
  stale : ∀ tag ∈ waitTags told, (∀ kind, ¬ s.Pends phase tag kind) →
    ∀ cause, cause.tag? = some tag → s.Ignores scenario phase cause
  mistaken : ∀ tag kind, s.Pends phase tag kind →
    ∀ cause other, cause.meant? = some (tag, other) → other ≠ kind →
      s.Ignores scenario phase cause
  premature : ∀ tag, s.generation < tag.generation ∨ (∀ known ∈ waitTags told, known.op ≠ tag.op) →
    ∀ cause, cause.tag? = some tag → s.Refuses scenario phase tag cause

variable {scenario : Scenario} {phase : Nat} {told : List Effect} {s : Session} {tag : Tag}
  {kind other : TimerKind} {cause : Cause}

lemma Life.handed (h : Life scenario phase s told) : s.Handed phase told := by
  induction h with
  | new slot => exact ⟨rfl, nofun, List.Sublist.refl _, fun op ⟨b, hb, _⟩ => by cases hb⟩
  | @act s told _ cause now requests recorder ih =>
    have hquiet : Session.Handed (Stage.mk scenario phase now).phase (told ++ []) s := by
      rw [List.append_nil]
      exact ih
    exact Turn.act_handed (t := ⟨s, requests, recorder, []⟩) hquiet cause
  | recycle _ ih => exact ⟨ih.numbers, ih.own, ih.calls, fun op ⟨b, hb, _⟩ => by cases hb⟩

namespace Handed

lemma op_lt_iff (h : s.Handed phase told) (op : Nat) :
    op < s.nextOp ↔ ∃ known ∈ waitTags told, known.op = op := by
  rw [← List.mem_range, ← h.numbers, List.mem_map]

lemma knows (h : s.Handed phase told) (htag : tag ∈ waitTags told) : s.Knows tag :=
  ⟨(h.own tag htag).2.2, (h.op_lt_iff tag.op).mpr ⟨tag, htag, rfl⟩⟩

lemma knows_of_pends (h : s.Handed phase told) (hpends : s.Pends phase tag kind) :
    s.Knows tag := by
  obtain ⟨k, b, hb, hop, -, htag⟩ := hpends
  refine ⟨?_, h.below tag.op ⟨b, List.mem_of_getElem? hb, hop⟩⟩
  rw [htag]
  exact Nat.le_refl _

lemma distinct (h : s.Handed phase told) : (waitTags told).Nodup := by
  refine List.Nodup.of_map Tag.op ?_
  rw [h.numbers]
  exact List.nodup_range

end Handed

lemma Pends.kind_eq (h : s.Pends phase tag kind) (h' : s.Pends phase tag other) : kind = other := by
  obtain ⟨k, b, hb, -, hkind, htag⟩ := h
  obtain ⟨k', b', hb', -, hother, htag'⟩ := h'
  obtain rfl : k = k' := congrArg Tag.branch (htag.symm.trans htag')
  obtain rfl : b = b' := Option.some.inj (hb.symm.trans hb')
  exact Option.some.inj (hkind.symm.trans hother)

lemma pends_of_wait (hphase : tag.phase = phase) (hslot : tag.slot = s.slot)
    (hgeneration : tag.generation = s.generation) {b : Branch}
    (hb : s.branches[tag.branch]? = some b)
    (hop : b.wait.number? = some tag.op) (hkind : b.wait.timer? = some kind) :
    s.Pends phase tag kind := by
  refine ⟨tag.branch, b, hb, hop, hkind, ?_⟩
  rw [Session.tag, ← hphase, ← hslot, ← hgeneration]

lemma pending?_of_not_pends (hknows : s.Knows tag) (hphase : tag.phase = phase)
    (hslot : tag.slot = s.slot) (hnot : ¬ s.Pends phase tag .deadline) :
    s.pending? scenario tag = .ok none := by
  cases hp : s.pending? scenario tag with
  | error fault => exact absurd hknows (pending?_error hp)
  | ok found =>
    cases found with
    | none => rfl
    | some p =>
      obtain ⟨-, hgeneration, -, -, b, hb, hwait, -⟩ := pending?_some hp
      refine absurd (pends_of_wait hphase hslot hgeneration hb ?_ ?_) hnot
      · rw [hwait]
        rfl
      · rw [hwait]
        rfl

lemma ignores_of_not_pends (hknows : s.Knows tag) (hphase : tag.phase = phase)
    (hslot : tag.slot = s.slot) (hmeant : cause.meant? = some (tag, kind))
    (hnot : ¬ s.Pends phase tag kind) : s.Ignores scenario phase cause := by
  intro now t ht
  subst ht
  cases cause with
  | start => cases hmeant
  | data _ fragment =>
    cases hmeant
    simp only [Cause.act, Turn.onData, pending?_of_not_pends hknows hphase hslot hnot]
  | complete _ completion =>
    cases hmeant
    simp only [Cause.act, Turn.onCompletion, pending?_of_not_pends hknows hphase hslot hnot]
  | timer due =>
    cases hmeant
    cases hkind : due.kind with
    | deadline =>
      rw [hkind] at hnot
      simp only [Cause.act, hkind, Turn.onTimer, Turn.onDeadline,
        pending?_of_not_pends hknows hphase hslot hnot]
    | wake =>
      rw [hkind] at hnot
      simp only [Cause.act, hkind, Turn.onTimer, Turn.onWake, isCurrent_of_knows hknows]
      cases hcurrent : due.tag.generation == t.session.generation && t.session.state.isLive with
      | false => rfl
      | true =>
        rw [Bool.and_eq_true, beq_iff_eq] at hcurrent
        simp only
        rw [if_neg]
        intro hwait
        obtain ⟨b, hb, hwait⟩ := Option.map_eq_some_iff.mp hwait
        refine hnot (pends_of_wait hphase hslot hcurrent.1 hb ?_ ?_)
        · rw [hwait]
          rfl
        · rw [hwait]
          rfl
  | terminate => cases hmeant

lemma refuses_of_not_knows (hnot : ¬ s.Knows tag) (htag : cause.tag? = some tag) :
    s.Refuses scenario phase tag cause := by
  intro now t ht
  subst ht
  have hcurrent : t.session.isCurrent tag = .error
      (.prematureCallback t.session.slot tag.generation tag.op t.session.generation) := by
    unfold isCurrent
    rw [if_pos]
    unfold Knows at hnot
    omega
  have hpending : t.session.pending? scenario tag = .error
      (.prematureCallback t.session.slot tag.generation tag.op t.session.generation) := by
    unfold pending?
    rw [hcurrent]
    rfl
  cases cause with
  | start => cases htag
  | data _ fragment =>
    cases htag
    simp only [Cause.act, Turn.onData, hpending]
  | complete _ completion =>
    cases htag
    simp only [Cause.act, Turn.onCompletion, hpending]
  | timer due =>
    obtain ⟨time, tag', kind⟩ := due
    cases htag
    cases kind with
    | deadline => simp only [Cause.act, Turn.onTimer, Turn.onDeadline, hpending]
    | wake => simp only [Cause.act, Turn.onTimer, Turn.onWake, hcurrent]
  | terminate => cases htag

/-- Over the whole life of a slot no tag is handed out twice, and only the tag of a wait that a
session is in moves the session, if it comes from where the wait looks. -/
theorem Life.tellsTags (h : Life scenario phase s told) : s.TellsTags scenario phase told := by
  have hhanded := h.handed
  refine ⟨hhanded.distinct, hhanded.calls, ?_, ?_, ?_⟩
  · intro tag htag hnot cause hcause
    obtain ⟨kind, hmeant⟩ := Cause.tag?_eq_some.mp hcause
    obtain ⟨hphase, hslot, -⟩ := hhanded.own tag htag
    exact ignores_of_not_pends (hhanded.knows htag) hphase hslot hmeant (hnot kind)
  · intro tag kind hpends cause other hmeant hother
    have hknows := hhanded.knows_of_pends hpends
    have hnot : ¬ s.Pends phase tag other := fun hp => hother (hp.kind_eq hpends)
    obtain ⟨k, b, -, -, -, htag⟩ := hpends
    exact ignores_of_not_pends hknows (congrArg Tag.phase htag) (congrArg Tag.slot htag) hmeant hnot
  · intro tag hearly cause hcause
    refine refuses_of_not_knows (fun hknows => ?_) hcause
    rcases hearly with hgeneration | hop
    · exact Nat.lt_irrefl _ (hgeneration.trans_le hknows.1)
    · obtain ⟨known, hknown, heq⟩ := (hhanded.op_lt_iff tag.op).mp hknows.2
      exact hop known hknown heq

end Session

def errandAsked : Turn :=
  (Turn.start ⟨errand, 0, 0⟩ ⟨.new errand 0, .new 2 fun _ => .blank, .empty .default, []⟩).1

def errandLeft : Turn := (Turn.terminate ⟨errandAsked.session, errandAsked.requests,
  errandAsked.recorder, []⟩).1

def errandAgain : Turn := (Turn.start ⟨errand, 0, 9⟩ ⟨errandLeft.session.recycle errand,
  errandLeft.requests, errandLeft.recorder, []⟩).1

def errandTold : List Effect := errandAsked.effects ++ errandLeft.effects ++ errandAgain.effects

theorem errandAgain_tellsTags : Session.Life errand 0 errandAgain.session errandTold ∧
    errandAgain.session.TellsTags errand 0 errandTold ∧
    waitTags errandTold = [⟨0, 0, 0, 0, 0⟩, ⟨0, 0, 1, 0, 1⟩] ∧
    errandAgain.session.Pends 0 ⟨0, 0, 1, 0, 1⟩ .deadline := by
  have hasked : Session.Life errand 0 errandAsked.session ([] ++ errandAsked.effects) :=
    (Session.Life.new 0).act .start 0 _ _
  have hleft : Session.Life errand 0 errandLeft.session
      ([] ++ errandAsked.effects ++ errandLeft.effects) := hasked.act .terminate 0 _ _
  have hagain : Session.Life errand 0 errandAgain.session errandTold :=
    hleft.recycle.act .start 9 _ _
  have hwaits : errandAgain.session.branches[0]?.map Branch.wait = some (.operation 1 0) := by
    decide +kernel
  obtain ⟨b, hb, hwait⟩ := Option.map_eq_some_iff.mp hwaits
  refine ⟨hagain, Session.Life.tellsTags hagain, by decide +kernel, 0, b, hb, ?_, ?_, ?_⟩
  · rw [hwait]
    rfl
  · rw [hwait]
    rfl
  · decide +kernel

/-- The sessions of a shard are none but those with such a life. -/
theorem Shard.Run.lives {s : Shard} {l : Ledger} (h : s.Run l) {phase : Nat} {lane : Lane}
    (hlane : s.lanes.get? phase = some lane) :
    lane.Every (fun scenario phase s => ∃ told, Session.Life scenario phase s told) phase := by
  refine h.every ?_ (fun _ _ slot => ⟨[], .new slot⟩) hlane
  rintro scenario phase s cause now requests recorder t verdict ⟨told, hlife⟩ - hact
  have hacted := hlife.act cause now requests recorder
  rw [hact] at hacted
  refine ⟨told ++ t.effects, ?_⟩
  cases verdict with
  | ended how => exact hacted.recycle
  | alive => exact hacted
  | broken fault => exact hacted

end LoadEngine
