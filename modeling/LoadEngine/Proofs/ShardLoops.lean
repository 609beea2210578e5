import LoadEngine.Shard.Basic
import Mathlib.Tactic.Lemma

/-! The loops of a shard. What holds of a turn, and goes on over one turn after the other, holds of
all the turns together in which a shard starts sessions, gives them up or fires timers. -/

namespace LoadEngine

namespace Shard

lemma launch_succ (now : Nanos) (index count : Nat) (w : Wave) :
    launch now index (count + 1) w =
      match w.shard.acquire index with
      | (none, _) => launch now index count { w with blocked := w.blocked + 1 }
      | (some slot, shard) =>
        let (shard, outputs, verdict) := shard.drive now index slot Turn.start
        let w := { w with shard, outputs := w.outputs ++ outputs, started := w.started + 1 }
        match verdict with
        | .alive => launch now index count w
        | .ended how => launch now index count { w with ends := w.ends ++ [how] }
        | .broken fault =>
          { w with outputs := w.outputs ++ [.notice (.fault shard.id fault)] } := rfl

lemma terminateSlots_cons (s : Shard) (now : Nanos) (index slot : Nat) (rest : List Nat) :
    terminateSlots now index s (slot :: rest) =
      ((terminateSlots now index (s.visit now index slot fun _ => Turn.terminate).1 rest).1,
        (s.visit now index slot fun _ => Turn.terminate).2 ++
          (terminateSlots now index (s.visit now index slot fun _ => Turn.terminate).1 rest).2) :=
  rfl

lemma terminatePhases_cons (s : Shard) (now : Nanos) (phase : Nat) (rest : List Nat) :
    terminatePhases now s (phase :: rest) =
      ((terminatePhases now (s.terminate now phase).1 rest).1,
        (s.terminate now phase).2 ++ (terminatePhases now (s.terminate now phase).1 rest).2) :=
  rfl

lemma fire_succ (now : Nanos) (fuel : Nat) (s : Shard) :
    fire now (fuel + 1) s =
      match s.timers.popDue? now with
      | none => (s, [])
      | some (timer, timers) =>
        let tag := timer.tag
        let (s, outputs) := { s with timers }.visit now tag.phase tag.slot fun stage =>
          Turn.onTimer stage tag timer.kind
        let (s, more) := fire now fuel s
        (s, outputs ++ more) := rfl

def blame (s : Shard) : Verdict → List Output
  | .broken fault => [.notice (.fault s.id fault)]
  | _ => []

/-- A relation of a shard with what it gives out and what becomes of it goes on from one shard to
the next. -/
structure GoesOn (R : Shard → List Output → Shard → Prop) : Prop where
  refl (s : Shard) : R s [] s
  trans {s s' s'' : Shard} {a b : List Output} (h : R s a s') (h' : R s' b s'') : R s (a ++ b) s''

structure Prevails (R : Shard → List Output → Shard → Prop) : Prop extends GoesOn R where
  ends (s : Shard) (now : Nanos) (phase slot : Nat) :
    R s (s.visit now phase slot fun _ => Turn.terminate).2
      (s.visit now phase slot fun _ => Turn.terminate).1
  fires {s : Shard} {now : Nanos} {due : Timer} {timers : Timers}
    (h : s.timers.popDue? now = some (due, timers)) :
    R s ({ s with timers }.visit now due.tag.phase due.tag.slot fun stage =>
        Turn.onTimer stage due.tag due.kind).2
      ({ s with timers }.visit now due.tag.phase due.tag.slot fun stage =>
        Turn.onTimer stage due.tag due.kind).1

variable {R : Shard → List Output → Shard → Prop}

lemma GoesOn.launch (h : GoesOn R) (now : Nanos) (phase : Nat)
    (hstart : ∀ {s s₁ : Shard} {slot : Nat}, s.acquire phase = (some slot, s₁) →
      R s ((s₁.drive now phase slot Turn.start).2.1 ++
          (s₁.drive now phase slot Turn.start).1.blame (s₁.drive now phase slot Turn.start).2.2)
        (s₁.drive now phase slot Turn.start).1) (count : Nat) (w : Wave) :
    ∃ outputs, (launch now phase count w).outputs = w.outputs ++ outputs ∧
      R w.shard outputs (launch now phase count w).shard := by
  induction count generalizing w with
  | zero => exact ⟨[], (List.append_nil _).symm, h.refl w.shard⟩
  | succ count ih =>
    rw [launch_succ]
    cases ha : w.shard.acquire phase with
    | mk slot? s₁ =>
      cases slot? with
      | none => exact ih { w with blocked := w.blocked + 1 }
      | some slot =>
        have hfirst := hstart ha
        simp only
        generalize s₁.drive now phase slot Turn.start = out at hfirst
        obtain ⟨s', outputs, verdict⟩ := out
        have hmore (w' : Wave) (hw : w'.shard = s') (ho : w'.outputs = w.outputs ++ outputs)
            (hgoes : s'.blame verdict = []) :
            ∃ outputs, (Shard.launch now phase count w').outputs = w.outputs ++ outputs ∧
              R w.shard outputs (Shard.launch now phase count w').shard := by
          obtain ⟨more, houtputs, hlater⟩ := ih w'
          rw [hgoes, List.append_nil] at hfirst
          rw [hw] at hlater
          exact ⟨outputs ++ more, by rw [houtputs, ho, List.append_assoc], h.trans hfirst hlater⟩
        cases verdict with
        | alive => exact hmore _ rfl rfl rfl
        | ended how => exact hmore _ rfl rfl rfl
        | broken fault => exact ⟨_, List.append_assoc .., hfirst⟩

lemma GoesOn.prevails (h : GoesOn R) (htimers : ∀ (s : Shard) (timers : Timers),
      R s [] { s with timers })
    (hvisit : ∀ (s : Shard) (now : Nanos) (phase slot : Nat) (act : Stage → Turn → Turn × Verdict),
      R s (s.visit now phase slot act).2 (s.visit now phase slot act).1) : Prevails R where
  toGoesOn := h
  ends s now phase slot := hvisit s now phase slot _
  fires {s now due timers} _ := by
    have hvisited := hvisit { s with timers } now due.tag.phase due.tag.slot fun stage =>
      Turn.onTimer stage due.tag due.kind
    have hboth := h.trans (htimers s timers) hvisited
    rwa [List.nil_append] at hboth

namespace Prevails

variable (h : Prevails R) (s : Shard) (now : Nanos)

include h

lemma terminateSlots (phase : Nat) (slots : List Nat) :
    R s (terminateSlots now phase s slots).2 (terminateSlots now phase s slots).1 := by
  induction slots generalizing s with
  | nil => exact h.refl s
  | cons slot rest ih =>
    rw [terminateSlots_cons]
    exact h.trans (h.ends s now phase slot) (ih _)

lemma terminate (phase : Nat) : R s (s.terminate now phase).2 (s.terminate now phase).1 := by
  unfold Shard.terminate
  cases s.lanes.get? phase with
  | none => exact h.refl s
  | some lane => exact h.terminateSlots s now phase lane.liveSlots

lemma terminateAll : R s (s.terminateAll now).2 (s.terminateAll now).1 := by
  unfold Shard.terminateAll
  generalize s.lanes.keys = phases
  induction phases generalizing s with
  | nil => exact h.refl s
  | cons phase rest ih =>
    rw [terminatePhases_cons]
    exact h.trans (h.terminate s now phase) (ih _)

lemma fire (fuel : Nat) : R s (fire now fuel s).2 (fire now fuel s).1 := by
  induction fuel generalizing s with
  | zero => exact h.refl s
  | succ fuel ih =>
    rw [fire_succ]
    cases hp : s.timers.popDue? now with
    | none => exact h.refl s
    | some popped => exact h.trans (h.fires hp) (ih _)

end Prevails

end Shard

end LoadEngine
