import LoadEngine.Simulation.Run
import Mathlib.Tactic.Lemma

/-! What is done in a simulation, as a relation between before and after. What is refused half-way
counts with what was done until then. -/

namespace LoadEngine.Sim

variable {α β : Type} {s s' s'' : Simulation}

def Yields (act : Sim α) (s : Simulation) (a : α) (s' : Simulation) : Prop :=
  s.perform act = some (.ok a, s')

lemma perform_bind_ok {act : Sim α} {f : α → Sim β} {a : α} (h : Yields act s a s') :
    s.perform (act >>= f) = s'.perform (f a) := by
  have hrun : (ExceptT.run act).run s = some (.ok a, s') := h
  simp only [Simulation.perform, ExceptT.run_bind, StateT.run_bind, hrun]
  rfl

lemma perform_bind_error {act : Sim α} {f : α → Sim β} {e : EngineError}
    (h : s.perform act = some (.error e, s')) :
    s.perform (act >>= f) = some (.error e, s') := by
  have hrun : (ExceptT.run act).run s = some (.error e, s') := h
  simp only [Simulation.perform, ExceptT.run_bind, StateT.run_bind, hrun]
  rfl

lemma perform_bind {act : Sim α} {f : α → Sim β} {r : Except EngineError β} :
    s.perform (act >>= f) = some (r, s'') ↔
      (∃ e, s.perform act = some (.error e, s'') ∧ r = .error e) ∨
        ∃ a s', Yields act s a s' ∧ s'.perform (f a) = some (r, s'') := by
  constructor
  · intro h
    cases hact : s.perform act with
    | none =>
      have hrun : (ExceptT.run act).run s = none := hact
      simp only [Simulation.perform, ExceptT.run_bind, StateT.run_bind, hrun] at h
      cases h
    | some out =>
      obtain ⟨r', s'⟩ := out
      cases r' with
      | error e =>
        rw [perform_bind_error hact] at h
        cases h
        exact .inl ⟨e, rfl, rfl⟩
      | ok a =>
        rw [perform_bind_ok hact] at h
        exact .inr ⟨a, s', hact, h⟩
  · rintro (⟨e, hact, rfl⟩ | ⟨a, s', hact, hrest⟩)
    · exact perform_bind_error hact
    · rw [perform_bind_ok hact, hrest]

lemma perform_get_bind {f : Simulation → Sim β} : s.perform (get >>= f) = s.perform (f s) :=
  perform_bind_ok rfl

lemma perform_attempt {act : Sim α} {r : Except EngineError (Except EngineError α)} :
    s.perform (attempt act) = some (r, s') ↔ ∃ r', r = .ok r' ∧ s.perform act = some (r', s') := by
  have hrun : s.perform (attempt act) =
      (s.perform act).bind fun out => some (.ok out.1, out.2) := rfl
  rw [hrun, Option.bind_eq_some_iff]
  constructor
  · rintro ⟨⟨r', s₁⟩, hact, he⟩
    cases he
    exact ⟨r', rfl, hact⟩
  · rintro ⟨r', rfl, hact⟩
    exact ⟨(r', s'), hact, rfl⟩

lemma perform_onCluster {f : Cluster → Option (Cluster × α)} {r : Except EngineError α}
    (h : s.perform (onCluster f) = some (r, s')) :
    ∃ cluster a, f s.cluster = some (cluster, a) ∧ r = .ok a ∧ s' = { s with cluster } := by
  rw [onCluster, perform_get_bind] at h
  cases hf : f s.cluster with
  | none =>
    rw [hf] at h
    cases h
  | some out =>
    rw [hf] at h
    cases h
    exact ⟨_, _, rfl, rfl, rfl⟩

lemma yields_pure {a b : α} : Yields (pure a) s b s' ↔ a = b ∧ s = s' := by
  simp [Yields, Simulation.perform]

lemma yields_bind {act : Sim α} {f : α → Sim β} {b : β} :
    Yields (act >>= f) s b s'' ↔ ∃ a s', Yields act s a s' ∧ Yields (f a) s' b s'' := by
  unfold Yields
  rw [perform_bind]
  constructor
  · rintro (⟨e, -, he⟩ | h)
    · cases he
    · exact h
  · exact .inr

lemma yields_get {a : Simulation} : Yields get s a s' ↔ s = a ∧ s = s' := by
  have hget : s.perform (get : Sim Simulation) = some (.ok s, s) := rfl
  simp [Yields, hget]

lemma not_yields_throw {e : EngineError} {a : α} : ¬ Yields (throw e : Sim α) s a s' := by
  have hthrow : s.perform (throw e : Sim α) = some (.error e, s) := rfl
  simp [Yields, hthrow]

lemma yields_modifyGet {f : Simulation → α × Simulation} {a : α} :
    Yields (modifyGet f) s a s' ↔ a = (f s).1 ∧ s' = (f s).2 := by
  have hmodify : s.perform (modifyGet f) = some (.ok (f s).1, (f s).2) := rfl
  rw [Yields, hmodify]
  simp [eq_comm]

lemma yields_control {f : Controller → Controller × α} {a : α} :
    Yields (control f) s a s' ↔
      a = (f s.controller).2 ∧ s' = { s with controller := (f s.controller).1 } :=
  yields_modifyGet

lemma yields_now {t : Nanos} : Yields now s t s' ↔ s.now = t ∧ s = s' := by
  have hnow : s.perform now = some (.ok s.now, s) := rfl
  simp [Yields, hnow]

def isBreach : EngineError → Bool
  | .contract _ => true
  | _ => false

lemma perform_index (s : Simulation) (name : String) : s.perform (index name) =
    some ((s.controller.position? name).elim (.error (.unknownPhase name)) .ok, s) := by
  rw [index, perform_get_bind]
  cases s.controller.position? name <;> rfl

lemma yields_index {name : String} {i : Nat} (h : Yields (index name) s i s') :
    s' = s ∧ s.controller.position? name = some i := by
  rw [Yields, perform_index] at h
  cases hposition : s.controller.position? name <;> rw [hposition] at h <;> cases h
  exact ⟨rfl, rfl⟩

lemma yields_shards (h : s.shards.isEmpty = false) : Yields shards s s.shards s := by
  rw [Yields, shards, perform_get_bind, h]
  rfl

lemma shards_refused (h : s.shards.isEmpty = true) :
    s.perform shards = some (.error .notInitialized, s) := by
  rw [shards, perform_get_bind, h]
  rfl

lemma perform_send (s : Simulation) (shard : Nat) (command : Command) :
    s.perform (send shard command) =
      some ((s.shards[shard]? >>= fun host => s.cluster.send host command).elim
        (.error (.shardUnavailable shard), s) fun cluster => (.ok (), { s with cluster })) := by
  rw [send, perform_get_bind]
  cases s.shards[shard]? >>= fun host => s.cluster.send host command <;> rfl

lemma perform_askAll {ask : Cluster → Nat → Cluster × Option α}
    {r : Except EngineError (List α)} (h : s.perform (askAll ask) = some (r, s')) :
    ∃ cluster answers, s.cluster.askAll ask s.shards = some (cluster, answers) ∧
      s' = { s with cluster } ∧
      (answers.all Option.isSome = true ∧ r = .ok (answers.filterMap id) ∨
        none ∈ answers ∧ ∃ shard, r = .error (.shardUnavailable shard)) := by
  let check (a : Option α × Nat) : Sim PUnit :=
    if a.1.isNone then throw (.shardUnavailable a.2) else pure ()
  have hcheck (answers : List (Option α)) (k : Nat) (s : Simulation) :
      (answers.all Option.isSome = true ∧
          s.perform ((answers.zipIdx k).forM check) = some (.ok (), s)) ∨
        none ∈ answers ∧ ∃ shard, s.perform ((answers.zipIdx k).forM check) =
          some (.error (.shardUnavailable shard), s) := by
    induction answers generalizing k with
    | nil => exact .inl ⟨rfl, rfl⟩
    | cons answer rest ih =>
      cases answer with
      | none => exact .inr ⟨List.mem_cons_self, k, rfl⟩
      | some a =>
        obtain ⟨hall, hrest⟩ | ⟨hnone, shard, hrest⟩ := ih (k + 1)
        · exact .inl ⟨hall, hrest⟩
        · exact .inr ⟨List.mem_cons_of_mem _ hnone, shard, hrest⟩
  rw [askAll, perform_get_bind] at h
  rcases perform_bind.mp h with ⟨e, hcluster, -⟩ | ⟨answers, s₁, hcluster, h⟩
  · obtain ⟨_, _, _, hr, -⟩ := perform_onCluster hcluster
    cases hr
  · obtain ⟨cluster, answers', hask, hr, rfl⟩ := perform_onCluster hcluster
    cases hr
    have hchecks : { s with cluster : Simulation }.perform
        (answers.zipIdx.forM check >>= fun _ => pure (answers.filterMap id)) = some (r, s') := h
    refine ⟨cluster, answers, hask, ?_⟩
    obtain ⟨hall, hchecked⟩ | ⟨hnone, shard, hchecked⟩ := hcheck answers 0 { s with cluster }
    · rw [perform_bind_ok hchecked] at hchecks
      cases hchecks
      exact ⟨rfl, .inl ⟨hall, rfl⟩⟩
    · rw [perform_bind_error hchecked] at hchecks
      cases hchecks
      exact ⟨rfl, .inr ⟨hnone, shard, rfl⟩⟩

def breaks : Except EngineError α → Bool
  | .ok _ => false
  | .error e => isBreach e

/-- What is done keeps to a relation between before and after, which may be a wider one where a
broken contract ends it. -/
def Obeys (R : Bool → Simulation → Simulation → Prop) (act : Sim α) (s : Simulation) : Prop :=
  ∀ r s', s.perform act = some (r, s') → R (breaks r) s s'

structure Lasting (R : Bool → Simulation → Simulation → Prop) : Prop where
  refl (s : Simulation) : R false s s
  trans {broken : Bool} {s s' s'' : Simulation} : R false s s' → R broken s' s'' → R broken s s''
  widen {s s' : Simulation} : R false s s' → R true s s'

variable {R : Bool → Simulation → Simulation → Prop}

lemma Lasting.any (hR : Lasting R) (broken : Bool) (h : R false s s') : R broken s s' := by
  cases broken with
  | false => exact h
  | true => exact hR.widen h

namespace Obeys

lemma stall : Obeys R (stall : Sim α) s := by
  intro r s' h
  cases h

lemma attempt {Q : Simulation → Simulation → Prop} {act : Sim α} (h : Obeys (fun _ => Q) act s) :
    Obeys (fun _ => Q) (attempt act) s := by
  intro r s' hact
  obtain ⟨r', -, hact⟩ := perform_attempt.mp hact
  exact h _ _ hact

lemma get_bind {f : Simulation → Sim β} (h : Obeys R (f s) s) : Obeys R (get >>= f) s := by
  intro r s' hact
  rw [perform_get_bind] at hact
  exact h r s' hact

lemma modifyGet {f : Simulation → α × Simulation} (h : R false s (f s).2) :
    Obeys R (modifyGet f) s := by
  intro r s' hact
  cases hact
  exact h

lemma control {f : Controller → Controller × α}
    (h : R false s { s with controller := (f s.controller).1 }) : Obeys R (control f) s :=
  modifyGet h

lemma onCluster {f : Cluster → Option (Cluster × α)}
    (h : ∀ cluster a, f s.cluster = some (cluster, a) → R false s { s with cluster }) :
    Obeys R (onCluster f) s := by
  intro r s' hact
  obtain ⟨cluster, a, hf, rfl, rfl⟩ := perform_onCluster hact
  exact h cluster a hf

variable (hR : Lasting R)

include hR

lemma calm {act : Sim α} (h : Obeys (fun _ => R false) act s) : Obeys R act s :=
  fun r s' hact => hR.any _ (h r s' hact)

lemma pure (a : α) : Obeys R (pure a : Sim α) s := by
  intro r s' h
  cases h
  exact hR.refl s

lemma throw (e : EngineError) : Obeys R (throw e : Sim α) s := by
  intro r s' h
  cases h
  exact hR.any _ (hR.refl s)

lemma bind {act : Sim α} {f : α → Sim β} (h : Obeys R act s)
    (hf : ∀ a s', Yields act s a s' → Obeys R (f a) s') : Obeys R (act >>= f) s := by
  intro r s'' hb
  rcases perform_bind.mp hb with ⟨e, hact, rfl⟩ | ⟨a, s', hact, hrest⟩
  · exact h _ _ hact
  · exact hR.trans (h _ _ hact) (hf a s' hact _ _ hrest)

lemma forM {f : α → Sim PUnit} (hf : ∀ a s, Obeys R (f a) s) (l : List α) :
    Obeys R (l.forM f) s := by
  induction l generalizing s with
  | nil => exact .pure hR _
  | cons a rest ih => exact .bind hR (hf a s) fun _ _ _ => ih

lemma now : Obeys R now s := get_bind (.pure hR _)

lemma orThrow (r : Except EngineError α) : Obeys R (orThrow r) s := by
  cases r with
  | ok a => exact .pure hR a
  | error e => exact .throw hR e

lemma shards : Obeys R shards s := by
  refine get_bind ?_
  split
  · exact .throw hR _
  · exact .pure hR _

lemma index (name : String) : Obeys R (index name) s := by
  refine get_bind ?_
  split
  · exact .pure hR _
  · exact .throw hR _

end Obeys

def Keeps {γ : Type} (look : Simulation → γ) (act : Sim α) : Prop :=
  ∀ s, Obeys (fun _ s s' => look s' = look s) act s

lemma lasting_keeps {γ : Type} (look : Simulation → γ) :
    Lasting fun _ s s' => look s' = look s where
  refl _ := rfl
  trans h h' := h'.trans h
  widen := id

end LoadEngine.Sim
