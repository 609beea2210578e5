import LoadEngine.Proofs.Ledger
import LoadEngine.Proofs.TurnInvariant

/-! What the books say of a session in its turn. The operations that they have as pending are those
that its branches wait for, each with the response seen so far; and every wait with a number has one
timer, set when it began. -/

namespace LoadEngine

open Rehearsal (issues schedules)

def Session.Knows (s : Session) (tag : Tag) : Prop :=
  tag.generation ≤ s.generation ∧ tag.op < s.nextOp

inductive Session.Alarm (sc : Scenario) (phase : Nat) (s : Session) (since : Nat → Nanos)
    (k : Nat) :
    Await → Timer → Prop
  | deadline {id step op r : Nat} {operation : Operation BoundValidator}
      (hs : sc.step? id step = some (.operation operation)) :
      Alarm sc phase s since k ⟨id, step, .operation op r⟩
        ⟨since op + operation.timeout, s.tag phase k op, .deadline⟩
  | wake {id step op : Nat} {duration : Nanos} (hs : sc.step? id step = some (.delay duration)) :
      Alarm sc phase s since k ⟨id, step, .delay op⟩
        ⟨since op + duration, s.tag phase k op, .wake⟩

/-- A branch waits for the operation, the request slot tells when it was issued, and the cursors are
where the response takes them. -/
structure Session.Flies (sc : Scenario) (phase : Nat) (s : Session) (requests : Pool Request)
    (f : Flight) (body : List UInt8) : Prop where
  tag : f.tag = s.tag phase f.tag.branch f.tag.op
  wait : ∃ id step r, awaits s.branches f.tag.branch = some ⟨id, step, .operation f.tag.op r⟩ ∧
    sc.step? id step = some (.operation f.operation) ∧
    requests.get? r = some ⟨some s.slot, s.generation, f.tag.op, some f.since⟩
  cursors : ∀ v ∈ f.operation.validators,
    s.cursor? sc v.key f.tag.branch = some (v.validator.feed .start body)

/-- The books of one slot are right. -/
structure Session.Booked (sc : Scenario) (phase : Nat) (s : Session) (requests : Pool Request)
    (flights : List Flight) (timers : List Timer) (since : Nat → Nanos) : Prop where
  flies : ∀ f ∈ flights, ∀ body, f.fate = .pending body →
    s.Flies sc phase requests f body ∧ f.since = since f.tag.op
  flown : ∀ k id step op r, awaits s.branches k = some ⟨id, step, .operation op r⟩ →
    ∃ f ∈ flights, f.tag = s.tag phase k op ∧ f.isPending = true
  alarms : ∀ k a, awaits s.branches k = some a → ∃ timer ∈ timers, s.Alarm sc phase since k a timer
  flightOps : (flights.map fun f => f.tag.op).Nodup
  timerOps : (timers.map fun timer => timer.tag.op).Nodup
  flightsKnown : ∀ f ∈ flights, s.Knows f.tag
  timersKnown : ∀ timer ∈ timers, s.Knows timer.tag

namespace Session

variable {sc : Scenario} {phase : Nat} {s s' : Session} {requests requests' : Pool Request}
  {flights : List Flight} {timers : List Timer} {since since' : Nat → Nanos}

lemma Knows.mono {tag : Tag} (h : s.Knows tag) (hgeneration : s.generation ≤ s'.generation)
    (hnext : s.nextOp ≤ s'.nextOp) : s'.Knows tag :=
  ⟨h.1.trans hgeneration, h.2.trans_le hnext⟩

lemma tag_congr (hslot : s'.slot = s.slot) (hgeneration : s'.generation = s.generation)
    (phase k op : Nat) : s'.tag phase k op = s.tag phase k op := by
  rw [tag, tag, hslot, hgeneration]

lemma Alarm.number {k : Nat} {a : Await} {timer : Timer} (h : s.Alarm sc phase since k a timer) :
    ∃ op, a.wait.number? = some op ∧ timer.tag = s.tag phase k op := by
  cases h with
  | deadline hs => exact ⟨_, rfl, rfl⟩
  | wake hs => exact ⟨_, rfl, rfl⟩

lemma Alarm.tag_eq {k op : Nat} {a : Await} {timer : Timer}
    (h : s.Alarm sc phase since k a timer) (hop : a.wait.number? = some op) :
    timer.tag = s.tag phase k op := by
  obtain ⟨op', hop', htag⟩ := h.number
  rwa [Option.some.inj (hop'.symm.trans hop)] at htag

lemma Alarm.congr {k : Nat} {a : Await} {timer : Timer} (h : s.Alarm sc phase since k a timer)
    (hslot : s'.slot = s.slot) (hgeneration : s'.generation = s.generation)
    (hsince : ∀ op, a.wait.number? = some op → since' op = since op) :
    s'.Alarm sc phase since' k a timer := by
  cases h with
  | deadline hs =>
    rw [← tag_congr hslot hgeneration, ← hsince _ rfl]
    exact .deadline hs
  | wake hs =>
    rw [← tag_congr hslot hgeneration, ← hsince _ rfl]
    exact .wake hs

lemma Flies.congr {f : Flight} {body : List UInt8} (h : s.Flies sc phase requests f body)
    (hslot : s'.slot = s.slot) (hgeneration : s'.generation = s.generation)
    (hawaits : awaits s'.branches f.tag.branch = awaits s.branches f.tag.branch)
    (hrequests : ∀ r record, record.op = f.tag.op → record.session = some s.slot →
      requests.get? r = some record → requests'.get? r = some record)
    (hcursors : ∀ v ∈ f.operation.validators,
      s'.cursor? sc v.key f.tag.branch = s.cursor? sc v.key f.tag.branch) :
    s'.Flies sc phase requests' f body where
  tag := h.tag.trans (tag_congr hslot hgeneration ..).symm
  wait := by
    obtain ⟨id, step, r, hwait, hstep, hrecord⟩ := h.wait
    refine ⟨id, step, r, hawaits.trans hwait, hstep, ?_⟩
    rw [hslot, hgeneration]
    exact hrequests r _ rfl rfl hrecord
  cursors v hv := (hcursors v hv).trans (h.cursors v hv)

lemma exists_number {l : List Branch} {k : Nat} {a : Await} (h : awaits l k = some a) :
    ∃ op, a.wait.number? = some op := by
  obtain ⟨b, -, ha⟩ := Option.bind_eq_some_iff.mp h
  unfold Branch.await? at ha
  split at ha
  · rename_i hnumber
    cases ha
    exact Option.isSome_iff_exists.mp hnumber
  · cases ha

lemma Booked.number_lt (h : s.Booked sc phase requests flights timers since) {k op : Nat}
    {a : Await}
    (ha : awaits s.branches k = some a) (hop : a.wait.number? = some op) : op < s.nextOp := by
  obtain ⟨timer, htimer, halarm⟩ := h.alarms k a ha
  have hknown := (h.timersKnown timer htimer).2
  rwa [halarm.tag_eq hop] at hknown

lemma Booked.keep (h : s.Booked sc phase requests flights timers since)
    (hslot : s'.slot = s.slot) (hgeneration : s'.generation = s.generation)
    (hnext : s.nextOp ≤ s'.nextOp) (hawaits : ∀ k, awaits s'.branches k = awaits s.branches k)
    (hcursors : ∀ key branch, s'.cursor? sc key branch = s.cursor? sc key branch)
    (hrequests : ∀ r record, record.session = some s.slot → requests.get? r = some record →
      requests'.get? r = some record)
    (hsince : ∀ op < s.nextOp, since' op = since op) :
    s'.Booked sc phase requests' flights timers since' where
  flies f hf body hbody := by
    obtain ⟨hflies, htime⟩ := h.flies f hf body hbody
    refine ⟨hflies.congr hslot hgeneration (hawaits _) (fun r record _ => hrequests r record)
      fun v _ => hcursors v.key _, ?_⟩
    rw [hsince _ (h.flightsKnown f hf).2]
    exact htime
  flown k id step op r hk := by
    rw [hawaits] at hk
    obtain ⟨f, hf, htag, hpending⟩ := h.flown k id step op r hk
    exact ⟨f, hf, by rw [tag_congr hslot hgeneration]; exact htag, hpending⟩
  alarms k a ha := by
    rw [hawaits] at ha
    obtain ⟨timer, htimer, halarm⟩ := h.alarms k a ha
    exact ⟨timer, htimer, halarm.congr hslot hgeneration fun op hop =>
      hsince op (h.number_lt ha hop)⟩
  flightOps := h.flightOps
  timerOps := h.timerOps
  flightsKnown f hf := (h.flightsKnown f hf).mono hgeneration.ge hnext
  timersKnown timer htimer := (h.timersKnown timer htimer).mono hgeneration.ge hnext

lemma places_of_step {reached : Nat → Prop} {weight : Nat → Nat} (hsc : sc.Sound reached weight)
    {id step : Nat} {operation : Operation BoundValidator}
    (hs : sc.step? id step = some (.operation operation)) : Places sc operation.validators := by
  rw [Scenario.step?_eq] at hs
  exact (hsc.resolved id _ (List.mem_of_getElem? hs)).1

lemma nodup_concat_of_lt {α : Type} {g : α → Nat} {l : List α} {a : α} (h : (l.map g).Nodup)
    (hlt : ∀ x ∈ l, g x < g a) : ((l ++ [a]).map g).Nodup := by
  rw [List.map_append, List.map_singleton, List.nodup_append]
  refine ⟨h, List.nodup_singleton _, ?_⟩
  intro x hx y hy
  obtain ⟨z, hz, rfl⟩ := List.mem_map.mp hx
  obtain rfl := List.mem_singleton.mp hy
  exact Nat.ne_of_lt (hlt z hz)

lemma Booked.hold (h : s.Booked sc phase requests flights timers since) (s' : Session) {i : Nat}
    {a : Await} {timer : Timer} (hi : awaits s.branches i = none) (hslot : s'.slot = s.slot)
    (hgeneration : s'.generation = s.generation) (hnext : s'.nextOp = s.nextOp + 1)
    (hawaits : ∀ k, awaits s'.branches k = if k = i then some a else awaits s.branches k)
    (halarm : s'.Alarm sc phase since i a timer) (hnumber : a.wait.number? = some s.nextOp)
    (hcursors : ∀ f ∈ flights, ∀ body, s.Flies sc phase requests f body →
      ∀ v ∈ f.operation.validators, s'.cursor? sc v.key f.tag.branch =
        s.cursor? sc v.key f.tag.branch)
    (hrequests : ∀ r record, requests.get? r = some record → requests'.get? r = some record)
    {fresh : Option Flight}
    (hfresh : ∀ f ∈ fresh, f.tag = s'.tag phase i s.nextOp ∧ f.fate = .pending [] ∧
      s'.Flies sc phase requests' f [] ∧ f.since = since s.nextOp)
    (hoperation : ∀ op r, a.wait = .operation op r → fresh.isSome) :
    s'.Booked sc phase requests' (flights ++ fresh.toList) (timers ++ [timer]) since where
  flies f hf body hbody := by
    rcases List.mem_append.mp hf with hf | hf
    · obtain ⟨hflies, htime⟩ := h.flies f hf body hbody
      have hne : f.tag.branch ≠ i := by
        obtain ⟨id, step, r, hwait, -⟩ := hflies.wait
        intro he
        rw [he, hi] at hwait
        cases hwait
      exact ⟨hflies.congr hslot hgeneration (by rw [hawaits, if_neg hne])
        (fun r record _ _ => hrequests r record) (hcursors f hf body hflies), htime⟩
    · obtain ⟨htag, hfate, hflies, htime⟩ := hfresh f (Option.mem_toList.mp hf)
      rw [hfate] at hbody
      cases hbody
      exact ⟨hflies, by rw [htime, htag]; rfl⟩
  flown k id step op r hk := by
    rw [hawaits] at hk
    split at hk
    · rename_i hki
      cases hk
      obtain rfl : op = s.nextOp := Option.some.inj hnumber
      obtain ⟨f, hf⟩ := Option.isSome_iff_exists.mp (hoperation _ r rfl)
      obtain ⟨htag, hfate, -, -⟩ := hfresh f hf
      refine ⟨f, List.mem_append_right _ (Option.mem_toList.mpr hf), by rw [htag, hki], ?_⟩
      simp [Flight.isPending, Flight.body?, hfate]
    · obtain ⟨f, hf, htag, hpending⟩ := h.flown k id step op r hk
      exact ⟨f, List.mem_append_left _ hf, by rw [tag_congr hslot hgeneration]; exact htag,
        hpending⟩
  alarms k a' hk := by
    rw [hawaits] at hk
    split at hk
    · rename_i hki
      cases hk
      exact ⟨timer, List.mem_append_right _ (List.mem_singleton.mpr rfl), hki ▸ halarm⟩
    · obtain ⟨timer', htimer', halarm'⟩ := h.alarms k a' hk
      exact ⟨timer', List.mem_append_left _ htimer', halarm'.congr hslot hgeneration fun _ _ => rfl⟩
  flightOps := by
    cases fresh with
    | none => simpa using h.flightOps
    | some f =>
      refine nodup_concat_of_lt h.flightOps fun f' hf' => ?_
      rw [(hfresh f rfl).1]
      exact (h.flightsKnown f' hf').2
  timerOps := by
    refine nodup_concat_of_lt h.timerOps fun timer' htimer' => ?_
    rw [halarm.tag_eq hnumber]
    exact (h.timersKnown timer' htimer').2
  flightsKnown f hf := by
    rcases List.mem_append.mp hf with hf | hf
    · exact (h.flightsKnown f hf).mono hgeneration.ge (by omega)
    · rw [(hfresh f (Option.mem_toList.mp hf)).1]
      exact ⟨Nat.le_refl _, by simp only [tag]; omega⟩
  timersKnown timer' htimer' := by
    rcases List.mem_append.mp htimer' with htimer' | htimer'
    · exact (h.timersKnown timer' htimer').mono hgeneration.ge (by omega)
    · rw [List.mem_singleton.mp htimer', halarm.tag_eq hnumber]
      exact ⟨Nat.le_refl _, by simp only [tag]; omega⟩

end Session

end LoadEngine
