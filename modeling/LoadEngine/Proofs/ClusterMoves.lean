import LoadEngine.Simulation.Inquiry
import Mathlib.Logic.Relation
import Mathlib.Tactic.Lemma

/-! What the loops of a cluster are made of. A node does what is next for it, or the clock goes on
to the next instant; whatever these keep is kept until everything has settled. -/

namespace LoadEngine.Cluster

open Relation (ReflTransGen)

variable {c c' : Cluster} {i : Nat}

inductive Moves (i : Nat) (c c' : Cluster) : Prop
  | step (h : c.step? i = some c')
  | command (h : c.command? i = some c')

def Works (c c' : Cluster) : Prop := ∃ i, Moves i c c'

lemma Works.of_moves (h : ReflTransGen (Moves i) c c') : ReflTransGen Works c c' :=
  ReflTransGen.mono (fun _ _ hmoves => ⟨i, hmoves⟩) _ _ h

inductive Passes (c : Cluster) : Cluster → Prop
  | works {c' : Cluster} (h : Works c c') : Passes c c'
  | jumps (time : Nat) : Passes c (c.jump time)

lemma Passes.of_works (h : ReflTransGen Works c c') : ReflTransGen Passes c c' :=
  ReflTransGen.mono (fun _ _ => .works) _ _ h

lemma handleCommands_succ (i fuel : Nat) (c : Cluster) : handleCommands i (fuel + 1) c =
    match c.command? i with
    | some c => handleCommands i fuel c
    | none => c := rfl

lemma handleCommands_some (h : c.command? i = some c') (fuel : Nat) :
    handleCommands i (fuel + 1) c = handleCommands i fuel c' := by
  rw [handleCommands_succ, h]

lemma handleCommands_none (h : c.command? i = none) (fuel : Nat) :
    handleCommands i fuel c = c := by
  cases fuel with
  | zero => rfl
  | succ fuel => rw [handleCommands_succ, h]

lemma handleCommands_moves (i fuel : Nat) (c : Cluster) :
    ReflTransGen (Moves i) c (handleCommands i fuel c) := by
  induction fuel generalizing c with
  | zero => exact .refl
  | succ fuel ih =>
    cases h : c.command? i with
    | none => rw [handleCommands_none h]
    | some c₁ =>
      rw [handleCommands_some h]
      exact .head (.command h) (ih c₁)

lemma catchUp_moves (c : Cluster) (i : Nat) : ReflTransGen (Moves i) c (c.catchUp i) := by
  unfold catchUp
  cases c.hosts[i]? with
  | none => exact .refl
  | some h => exact handleCommands_moves i _ c

lemma settleHost_none (h : c.step? i = none) (fuel : Nat) : settleHost i fuel c = some c := by
  cases fuel <;> rw [settleHost, h]

lemma settleHost_moves {fuel : Nat} (h : settleHost i fuel c = some c') :
    ReflTransGen (Moves i) c c' := by
  induction fuel generalizing c with
  | zero =>
    cases hs : c.step? i with
    | none =>
      rw [settleHost_none hs] at h
      cases h
      exact .refl
    | some c₁ =>
      rw [settleHost, hs] at h
      cases h
  | succ fuel ih =>
    cases hs : c.step? i with
    | none =>
      rw [settleHost_none hs] at h
      cases h
      exact .refl
    | some c₁ =>
      rw [settleHost, hs] at h
      exact .head (.step hs) (ih h)

lemma settle_works (h : c.settle = some c') : ReflTransGen Works c c' := by
  unfold settle at h
  generalize List.range c.hosts.length = hosts at h
  induction hosts generalizing c with
  | nil =>
    cases h
    exact .refl
  | cons i rest ih =>
    obtain ⟨c₁, hfirst, h⟩ := Option.bind_eq_some_iff.mp h
    exact (Works.of_moves (settleHost_moves hfirst)).trans (ih h)

lemma waitNotice_passes {limit : Option Nat} {fuel : Nat} (h : waitNotice limit fuel c = some c') :
    ReflTransGen Passes c c' := by
  induction fuel generalizing c with
  | zero =>
    obtain ⟨c₁, hsettle, h⟩ := Option.bind_eq_some_iff.mp h
    split at h
    · cases h
    · cases h
      exact Passes.of_works (settle_works hsettle)
  | succ fuel ih =>
    obtain ⟨c₁, hsettle, h⟩ := Option.bind_eq_some_iff.mp h
    have hsettled := Passes.of_works (settle_works hsettle)
    split at h
    · obtain ⟨time, -, h⟩ := Option.bind_eq_some_iff.mp h
      have hjumped := hsettled.tail (.jumps time)
      split at h
      · cases h
      · split at h
        · cases h
          exact hjumped
        · exact hjumped.trans (ih h)
    · cases h
      exact hsettled

lemma passTo_passes {target fuel : Nat} (h : passTo target fuel c = some c') :
    ∃ c₁, ReflTransGen Passes c c₁ ∧ c' = { c₁ with now := target } := by
  induction fuel generalizing c with
  | zero =>
    obtain ⟨c₁, hsettle, h⟩ := Option.bind_eq_some_iff.mp h
    cases h
    exact ⟨c₁, Passes.of_works (settle_works hsettle), rfl⟩
  | succ fuel ih =>
    obtain ⟨c₁, hsettle, h⟩ := Option.bind_eq_some_iff.mp h
    have hsettled := Passes.of_works (settle_works hsettle)
    split at h
    · rename_i time _
      obtain ⟨c₂, hrest, hlast⟩ := ih h
      exact ⟨c₂, (hsettled.tail (.jumps time)).trans hrest, hlast⟩
    · cases h
      exact ⟨c₁, hsettled, rfl⟩

variable {α : Type} {ask : Cluster → Nat → Cluster × Option α}

inductive Asks (ask : Cluster → Nat → Cluster × Option α) (c : Cluster) : Cluster → Prop
  | works {c' : Cluster} (h : Works c c') : Asks ask c c'
  | asks (i : Nat) : Asks ask c (ask c i).1

lemma askAll_cons (ask : Cluster → Nat → Cluster × Option α) (c : Cluster) (i : Nat)
    (rest : List Nat) : askAll ask c (i :: rest) =
      (settleHost i patience (ask c i).1).bind fun c' =>
        (askAll ask c' rest).bind fun out => some (out.1, (ask c i).2 :: out.2) := rfl

lemma askAll_asks {hosts : List Nat} {answers : List (Option α)}
    (h : askAll ask c hosts = some (c', answers)) :
    ReflTransGen (Asks ask) c c' := by
  induction hosts generalizing c answers with
  | nil =>
    cases h
    exact .refl
  | cons i rest ih =>
    rw [askAll_cons] at h
    obtain ⟨c₁, hsettle, h⟩ := Option.bind_eq_some_iff.mp h
    obtain ⟨out, hrest, h⟩ := Option.bind_eq_some_iff.mp h
    cases h
    have hsettled : ReflTransGen (Asks ask) (ask c i).1 c₁ :=
      ReflTransGen.mono (fun _ _ => .works) _ _ (Works.of_moves (settleHost_moves hsettle))
    exact (hsettled.head (.asks i)).trans (ih hrest)

end LoadEngine.Cluster
