import LoadEngine.Proofs.ShardRun

/-! What holds of the sessions of a shard, whatever becomes of them: it holds of a session that has
not started, and every cause that a session can meet keeps it. -/

namespace LoadEngine

/-- What is known where something happens to a session. The pool belongs to others as well; it keeps
what the operations of this one have taken. A session starts where the last one was cleared away. -/
structure Session.Meets (s : Session) (cause : Cause) (requests : Pool Request) : Prop where
  pool : requests.Sound
  keeps : s.Keeps requests
  vacant : cause = .start → s.branches = []

def Lane.Every (P : Scenario → Nat → Session → Prop) (phase : Nat) (lane : Lane) : Prop :=
  ∀ slot s, lane.sessions.item? slot = some s → P lane.scenario phase s

namespace Shard

theorem Run.lanes {Q : Nat → Lane → Prop}
    (hnew : ∀ phase name scenario capacity recorder,
      Q phase (.new name scenario capacity recorder))
    (hreset : ∀ {phase : Nat} {lane : Lane}, Q phase lane → Q phase lane.reset)
    (hacquire : ∀ {phase slot : Nat} {lane : Lane} {sessions : Pool Session}, Q phase lane →
      lane.sessions.Sound → lane.sessions.acquire = (some slot, sessions) →
      Q phase { lane with sessions })
    (hdrive : ∀ {phase slot : Nat} {lane : Lane} {cause : Cause} {reached : Nat → Prop}
      {weight : Nat → Nat} {pages : Nat → Page} (now : Nanos), Q phase lane →
      lane.Books phase reached weight pages (cause.opening slot) →
      Q phase (lane.drive phase now slot cause.act).1)
    {s : Shard} {l : Ledger} (h : Run s l) {phase : Nat} {lane : Lane}
    (hlane : s.lanes.get? phase = some lane) : Q phase lane := by
  -- A turn changes the lane of its own phase only; the others are as the induction has them.
  induction h generalizing phase lane with
  | new id template => cases hlane
  | @prepare s l p d scenario _ hphase hbuilt name capacity ih =>
    obtain ⟨rfl, rfl⟩ | ⟨-, hlane⟩ := OrderedMap.get?_insert_eq_some hlane
    · exact hnew phase name scenario capacity s.template
    · exact ih hlane
  | @reset s l p before _ hbefore ih =>
    rw [collect_reset hbefore] at hlane
    obtain ⟨rfl, rfl⟩ | ⟨-, hlane⟩ := OrderedMap.get?_insert_eq_some hlane
    · exact hreset (ih hbefore)
    · exact ih hlane
  | @turn s s₁ l now cause p slot h harises ih =>
    have hbefore : ∀ q other, s₁.lanes.get? q = some other → Q q other := by
      intro q other hother
      cases harises with
      | start ha =>
        obtain ⟨before, sessions, hbefore, hsessions, rfl⟩ := acquire_eq_some ha
        obtain ⟨rfl, rfl⟩ | ⟨-, hother⟩ := OrderedMap.get?_insert_eq_some hother
        · obtain ⟨reached, weight, hbooks⟩ := h.books.lanes q before hbefore
          exact hacquire (ih hbefore) hbooks.sessions hsessions
        · exact ih hother
      | data | complete | timer | terminate => exact ih hother
    cases hmoved : s₁.lanes.get? p with
    | none =>
      rw [turn_of_none hmoved] at hlane
      exact hbefore phase lane hlane
    | some moved =>
      obtain ⟨⟨reached, weight, hbooks⟩, -⟩ := h.books.arises harises hmoved
      rw [if_pos rfl] at hbooks
      generalize hdriven : moved.drive p now slot cause.act = out
      obtain ⟨moved', effects, verdict⟩ := out
      obtain ⟨s', outputs, hturned, hturn⟩ := turn_eq hmoved hdriven
      rw [hturn, hturned.lanes] at hlane
      obtain ⟨rfl, rfl⟩ | ⟨-, hlane⟩ := OrderedMap.get?_insert_eq_some hlane
      · have hnext := hdrive now (hbefore phase moved hmoved) hbooks
        rwa [hdriven] at hnext
      · exact hbefore phase lane hlane

end Shard

section Sessions

variable {P : Scenario → Nat → Session → Prop}
  (hact : ∀ {scenario : Scenario} {phase : Nat} {s : Session} {cause : Cause} {now : Nanos}
    {requests : Pool Request} {recorder : Recorder} {t : Turn} {verdict : Verdict},
    P scenario phase s → s.Meets cause requests →
    cause.act ⟨scenario, phase, now⟩ ⟨s, requests, recorder, []⟩ = (t, verdict) →
    P scenario phase (verdict.leaves scenario t.session))

include hact

lemma Lane.Every.drive {lane : Lane} {phase slot : Nat} {cause : Cause} (h : lane.Every P phase)
    (hsound : lane.sessions.Sound) (now : Nanos)
    (hmeets : ∀ s, lane.sessions.get? slot = some s → s.Meets cause lane.requests) :
    (lane.drive phase now slot cause.act).1.Every P phase := by
  cases hs : lane.sessions.get? slot with
  | none =>
    rw [Lane.drive_of_free hs]
    exact h
  | some s =>
    generalize hacted : cause.act ⟨lane.scenario, phase, now⟩
      ⟨s, lane.requests, lane.recorder, []⟩ = out
    obtain ⟨t, verdict⟩ := out
    have hkept := hact (h slot s (Pool.get?_eq_some.mp hs).2) (hmeets s hs) hacted
    obtain ⟨sessions, hdrive, -, -, -, hitem, -⟩ := Lane.drive_eq hsound hs phase now hacted
    rw [hdrive]
    intro j s' hj
    rw [hitem] at hj
    split at hj
    · cases hj
      exact hkept
    · exact h j s' hj

namespace Shard

/-- What holds of new sessions, and is kept by what sessions meet, holds of all that a shard has. -/
theorem Run.every (hnew : ∀ scenario phase slot, P scenario phase (.new scenario slot)) {s : Shard}
    {l : Ledger} (h : Run s l) {phase : Nat} {lane : Lane}
    (hlane : s.lanes.get? phase = some lane) : lane.Every P phase := by
  refine h.lanes (Q := fun phase lane => lane.Every P phase) ?_ ?_ ?_ ?_ hlane
  · intro phase name scenario capacity recorder slot s hs
    simp only [Lane.new, Pool.new_item?] at hs
    split at hs
    · cases hs
      exact hnew scenario phase slot
    · cases hs
  · exact fun hlane slot s hs => hlane slot s hs
  · intro phase slot lane sessions hlane _ ha j s hj
    have hitem := Pool.acquire_item? (congrArg Prod.fst ha) j
    rw [ha] at hitem
    exact hlane j s (hitem ▸ hj)
  · intro phase slot lane cause reached weight pages now hlane hbooks
    refine hlane.drive hact hbooks.sessions now fun session hs => ?_
    obtain ⟨-, hitem⟩ := Pool.get?_eq_some.mp hs
    refine ⟨hbooks.requests, (hbooks.placed slot session hitem).keeps, ?_⟩
    rintro rfl
    refine hbooks.vacant slot session hitem (Bool.eq_false_iff.mpr fun hlive => ?_)
    exact ((hbooks.live slot session hitem).mp hlive).2 rfl

end Shard

end Sessions

end LoadEngine
