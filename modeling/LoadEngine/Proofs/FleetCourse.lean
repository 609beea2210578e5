import LoadEngine.Proofs.ConcurrencyCeiling
import LoadEngine.Proofs.FleetAudit

/-! Courses of a fleet, with everything that can happen to it. Nodes that went down stay down, and a
fault that was told of stays known; so a fleet that is intact in the end has only made harmless
moves. -/

namespace LoadEngine

namespace Controller

variable {c : Controller} {index : Nat} {now : Nanos}

lemma start_fault (c : Controller) (index : Nat) (now : Nanos) :
    (c.start index now).1.fault = c.fault := by
  have hphases : (c.begin now).phases = c.phases := rfl
  unfold start
  cases hp : c.phases[index]? with
  | none =>
    simp only [hphases, hp]
    rfl
  | some p =>
    simp only [hphases, hp]
    cases p.start now <;> rfl

lemma startOnDemand_fault (c : Controller) (index : Nat) (now : Nanos) :
    (c.startOnDemand index now).1.fault = c.fault := by
  unfold startOnDemand
  cases c.phases[index]? with
  | none => rfl
  | some p =>
    simp only
    split
    · exact c.start_fault index now
    · rfl

lemma advance_fault (c : Controller) (index : Nat) (now : Nanos) :
    (c.advance index now).1.fault = c.fault := by
  unfold advance
  cases c.phases[index]? with
  | none => rfl
  | some p =>
    cases hs : p.status with
    | notStarted =>
      simp only [hs]
      split
      · exact c.start_fault index now
      · rfl
    | running =>
      simp only [hs]
      rfl
    | finished | terminating | terminated => simp only [hs]

lemma finish_fault (c : Controller) (index : Nat) (now : Nanos) :
    (c.finish index now).1.fault = c.fault := by
  unfold finish
  cases c.phases[index]? with
  | none => rfl
  | some p =>
    simp only
    cases p.finish now <;> rfl

lemma terminate_fault (c : Controller) (index : Nat) (now : Nanos) :
    (c.terminate index now).1.fault = c.fault := by
  unfold terminate
  cases c.phases[index]? <;> rfl

lemma complete_fault (c : Controller) (index : Nat) (snapshot : PhaseSnapshot) :
    (c.complete index snapshot).fault = c.fault := by
  unfold complete
  cases c.phases[index]? <;> rfl

lemma onNotice_fault {notice : Notice} (h : (c.onNotice now notice).1.fault = none) :
    c.fault = none ∧ (Output.notice notice).isHarmless = true := by
  cases notice with
  | fault shard cause => cases h
  | started index shard started blocked =>
    refine ⟨?_, rfl⟩
    unfold onNotice at h
    cases hp : c.phases[index]? <;> simp only [hp] at h <;> exact h
  | ended index shard how =>
    refine ⟨?_, rfl⟩
    unfold onNotice at h
    cases hp : c.phases[index]? <;> simp only [hp] at h <;> exact h

end Controller

namespace Fleet

variable {f f' f'' : Fleet} {broken broken' : Bool} {outputs : List Output} {m : Move}
  {deed : Option (Nat × Nanos × Deed)}

/-- What happens to a fleet, one thing after the other. Sums are refused only in a course that is
broken. -/
inductive Course (broken : Bool) (f : Fleet) : Fleet → Prop
  | refl : Course broken f f
  | happens {f' f'' : Fleet} {deed : Option (Nat × Nanos × Deed)} {refused : Option Inquiry}
      (h : Course broken f f') (hf : f'.Happens deed refused f'')
      (hrefused : refused.isSome = true → broken = true) : Course broken f f''

lemma Course.trans (h : f.Course broken f') (h' : f'.Course broken f'') : f.Course broken f'' := by
  induction h' with
  | refl => exact h
  | happens _ hf hrefused ih => exact ih.happens hf hrefused

lemma Course.mono (himp : broken = true → broken' = true) (h : f.Course broken f') :
    f.Course broken' f' := by
  induction h with
  | refl => exact .refl
  | happens _ hf hrefused ih => exact ih.happens hf (himp ∘ hrefused)

lemma Course.widen (h : f.Course false f') : f.Course broken f' :=
  h.mono Bool.noConfusion

lemma Course.step (h : f.Course broken f') (hf : f'.Happens deed none f'') :
    f.Course broken f'' := h.happens hf Bool.noConfusion

lemma Course.move (hm : f.move m = some (f', [])) : f.Course broken f' :=
  .step .refl (.move hm List.not_mem_nil)

lemma Course.chronicle {index : Nat} {log : List Moment} (h : f.Course broken f')
    (hlog : Chronicle index f log) :
    ∃ more, Chronicle index f' (log ++ more) ∧ (broken = false → Lossless more) := by
  induction h with
  | refl => exact ⟨[], by rwa [List.append_nil], fun _ => nofun⟩
  | @happens f' f'' deed refused _ hf hrefused ih =>
    obtain ⟨more, hmore, hlossless⟩ := ih
    have hnext := hmore.happens hf
    rw [List.append_assoc, List.append_assoc] at hnext
    refine ⟨_, hnext, fun hsound => ?_⟩
    have hloses : loses index refused = false := by
      cases refused with
      | none => rfl
      | some q =>
        rw [hrefused rfl] at hsound
        cases hsound
    refine List.forall_mem_append.mpr ⟨hlossless hsound, List.forall_mem_append.mpr ⟨?_, ?_⟩⟩
    · exact moments_lossless f' index deed
    · exact List.forall_mem_singleton.mpr hloses

/-- All nodes are up, and no fault is known or told of. -/
structure Intact (f : Fleet) : Prop where
  up : ∀ node ∈ f.nodes, node.running = true
  sound : f.controller.fault = none
  quiet : ∀ n ∈ f.notices, (Output.notice n).isHarmless = true

lemma Passes.up (h : f.Passes deed f' outputs) (hup : ∀ node ∈ f'.nodes, node.running = true) :
    ∀ node ∈ f.nodes, node.running = true := by
  intro node hnode
  obtain ⟨i, hi⟩ := List.mem_iff_getElem?.mp hnode
  have hafter {node' : Node} (hnode' : f'.nodes[i]? = some node') : node'.running = true :=
    hup node' (List.mem_of_getElem? hnode')
  cases h with
  | @governs c heard rest sent =>
    obtain ⟨extra, -, -, hnode'⟩ :=
      dispatch_node (f := { f with controller := c, notices := rest }) hi sent
    have hrunning := hafter hnode'
    exact hrunning
  | @asks index reset =>
    have hnode' := f.ask_node index reset i
    rw [hi, Option.map_some] at hnode'
    have hrunning := hafter hnode'
    exact hrunning
  | concludes => exact hafter hi
  | @serves shard now deed old node' outputs hold hacts =>
    by_cases hs : shard = i
    · subst hs
      rw [hold, Option.some.injEq] at hi
      exact hi ▸ hacts.running
    · exact hafter ((List.getElem?_set_ne hs).trans hi)
  | delivers shard events =>
    have hframe (node : Node) : (node.deliver events).running = node.running :=
      (deliver_frame node events).2.2
    have hsame := deliver_map (g := Node.running) hframe f.nodes shard i
    rw [hi, Option.map_some, Option.map_eq_some_iff] at hsame
    obtain ⟨node', hnode', hrunning⟩ := hsame
    exact hrunning ▸ hafter hnode'

def Calm (f : Fleet) : Prop :=
  f.controller.fault = none ∧ ∀ n ∈ f.notices, (Output.notice n).isHarmless = true

lemma calm_of_serve {shard : Nat} {step : Node → Option (Node × List Output)}
    (he : f.serve shard step = some (f', outputs)) (h : f'.Calm) :
    f.Calm ∧ ∀ n ∈ noticesOf outputs, (Output.notice n).isHarmless = true := by
  obtain ⟨node, node', -, -, rfl⟩ := serve_eq_some he
  obtain ⟨hkept, htold⟩ := List.forall_mem_append.mp h.2
  exact ⟨⟨h.1, hkept⟩, htold⟩

lemma calm_of_dispatch {sent : List Dispatch} (h : (f.dispatch sent).Calm) : f.Calm := by
  obtain ⟨hcontroller, hnotices, -⟩ := f.dispatch_frame sent
  rw [Calm, hcontroller, hnotices] at h
  exact h

lemma calm_of_follow {r : Controller × Except EngineError (List Dispatch)}
    (h : (f.follow r).Calm) : Calm { f with controller := r.1 } := by
  rw [follow_eq] at h
  exact calm_of_dispatch h

lemma Calm.of_fault {c : Controller} (h : Calm { f with controller := c })
    (hfault : c.fault = f.controller.fault) : f.Calm := ⟨hfault.symm.trans h.1, h.2⟩

lemma calm_of_move (hm : f.move m = some (f', outputs)) (h : f'.Calm) :
    f.Calm ∧ ∀ n ∈ noticesOf outputs, (Output.notice n).isHarmless = true := by
  have hnothing : ∀ n ∈ noticesOf [], (Output.notice n).isHarmless = true := List.forall_mem_nil _
  cases m with
  | begin now =>
    obtain ⟨-, rfl, rfl⟩ := unlessAsking_eq_some hm
    exact ⟨h, hnothing⟩
  | start index now =>
    obtain ⟨-, rfl, rfl⟩ := unlessAsking_eq_some hm
    exact ⟨(calm_of_follow h).of_fault (f.controller.startOnDemand_fault index now), hnothing⟩
  | advance index now =>
    obtain ⟨-, rfl, rfl⟩ := unlessAsking_eq_some hm
    exact ⟨(calm_of_follow h).of_fault (f.controller.advance_fault index now), hnothing⟩
  | finish index now =>
    obtain ⟨-, rfl, rfl⟩ := unlessAsking_eq_some hm
    exact ⟨.of_fault h (f.controller.finish_fault index now), hnothing⟩
  | terminate index now =>
    simp only [Fleet.move] at hm
    obtain ⟨-, rfl, rfl⟩ := unlessAsking_eq_some hm
    have hcalm : Calm { f with controller := (f.controller.terminate index now).1 } := by
      split at h
      · exact calm_of_dispatch h
      · exact h
    exact ⟨hcalm.of_fault (f.controller.terminate_fault index now), hnothing⟩
  | notice now =>
    simp only [Fleet.move] at hm
    split at hm
    · cases hm
    · rename_i n rest hn
      obtain ⟨-, rfl, rfl⟩ := unlessAsking_eq_some hm
      obtain ⟨hfault, hkept⟩ := calm_of_follow h
      obtain ⟨hbefore, hharmless⟩ := Controller.onNotice_fault hfault
      refine ⟨⟨hbefore, ?_⟩, hnothing⟩
      rw [hn]
      exact List.forall_mem_cons.mpr ⟨hharmless, hkept⟩
  | ask index reset =>
    simp only [Fleet.move] at hm
    split at hm
    · cases hm
    · obtain ⟨-, rfl, rfl⟩ := unlessAsking_eq_some hm
      exact ⟨h, hnothing⟩
  | conclude =>
    obtain ⟨q, -, hm⟩ := Option.bind_eq_some_iff.mp hm
    obtain ⟨sum, -, hm⟩ := Option.bind_eq_some_iff.mp hm
    cases sum with
    | error fault => cases hm
    | ok sum =>
      cases hm
      refine ⟨⟨?_, h.2⟩, hnothing⟩
      have hfault := h.1
      simp only at hfault
      split at hfault
      · exact (f.controller.complete_fault q.index sum).symm.trans hfault
      · exact hfault
  | command shard now | event shard now | timers shard now => exact calm_of_serve hm h
  | deliver shard events =>
    cases hm
    exact ⟨h, hnothing⟩

lemma harmless_of_notices (hup : .crash ∉ outputs)
    (h : ∀ n ∈ noticesOf outputs, (Output.notice n).isHarmless = true) : Harmless outputs := by
  intro o ho
  cases o with
  | notice n => exact h n (List.mem_filterMap.mpr ⟨_, ho, rfl⟩)
  | crash => exact absurd ho hup
  | _ => rfl

lemma Happens.intact (h : f.Happens deed none f') (h' : f'.Intact) :
    f.Intact ∧ ∃ m outputs, f.move m = some (f', outputs) ∧ Harmless outputs := by
  generalize hrefused : (none : Option Inquiry) = refused at h
  cases h with
  | @move _ m outputs hm hup =>
    obtain ⟨⟨hsound, hquiet⟩, hout⟩ := calm_of_move hm ⟨h'.sound, h'.quiet⟩
    exact ⟨⟨(move_passes hm).up h'.up, hsound, hquiet⟩, m, outputs, hm,
      harmless_of_notices hup hout⟩
  | @fall g _ m before after shard now deed hm hdeed hf =>
    subst hf
    have hpasses := move_passes hm
    rw [hdeed] at hpasses
    generalize before ++ after = outputs at hpasses
    cases hpasses with
    | @serves _ _ _ node node' _ hnode =>
      have hlt := (List.getElem?_eq_some_iff.mp hnode).1
      have hstopped : ((f.nodes.set shard node').modify shard Node.stop)[shard]? =
          some node'.stop := by
        rw [List.getElem?_modify, List.getElem?_set_self hlt]
        simp
      -- Nodes stay down, so the fleet could not be intact afterwards.
      cases h'.up _ (List.mem_of_getElem? hstopped)
  | giveUp hq hnode hdown =>
    rw [h'.up _ (List.mem_of_getElem? hnode)] at hdown
    cases hdown
  | refuse => cases hrefused
  | windUp _ hfault =>
    rw [show f.controller.fault = none from h'.sound] at hfault
    cases hfault

theorem Course.later (h : f.Course false f') (hintact : f'.Intact) : f.Later f' := by
  induction h with
  | refl => exact .refl
  | @happens f' f'' deed refused _ hf hrefused ih =>
    cases refused with
    | some q => cases hrefused rfl
    | none =>
      obtain ⟨hbefore, m, outputs, hm, hout⟩ := hf.intact hintact
      exact (ih hbefore).move hm hout

end Fleet

end LoadEngine
