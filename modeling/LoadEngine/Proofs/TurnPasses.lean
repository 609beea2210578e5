import LoadEngine.Proofs.TurnCauses

/-! What a session passes through in its turn. A cause either makes it run, from a turn that can be
told beforehand, or does not take it past any step; and while it runs the branches are in order at
every step. -/

namespace LoadEngine

namespace Turn

def settled? (stage : Stage) (t : Turn) (op : Nat) (p : Pending) (outcome : Outcome) :
    Option Turn :=
  match (t.requests.get? p.request).filter (owns t.session op) with
  | none => none
  | some record =>
    match t.requests.release (fun _ => Request.blank) p.request with
    | .error _ => none
    | .ok requests =>
      let latency := match record.issuedAt with
        | some issued => stage.now - issued
        | none => 0
      let recorder := t.recorder.record p.operation.metric (.new outcome latency)
      if outcome.isSuccess || !p.operation.fatal then
        some ({ t with requests, recorder }.onBranch p.branch .proceed)
      else none

end Turn

def Cause.begun? (stage : Stage) (t : Turn) : Cause → Option Turn
  | start => some (t.onSession fun s => { s with
      branches := s.branches ++ stage.scenario.initial.map fun sequence => .new sequence none })
  | complete tag completion =>
    match t.session.pending? stage.scenario tag with
    | .ok (some p) => Turn.settled? stage
        (t.onSession fun s => s.onCursors stage.scenario p.operation.validators p.branch
          fun _ _ => .start) tag.op p (Turn.judge stage t.session p completion.outcome)
    | _ => none
  | timer ⟨_, tag, .deadline⟩ =>
    match t.session.pending? stage.scenario tag with
    | .ok (some p) => Turn.settled? stage t tag.op p .timeout
    | _ => none
  | timer ⟨_, tag, .wake⟩ =>
    match t.session.isCurrent tag with
    | .ok true =>
      if t.session.branches[tag.branch]?.map Branch.wait = some (.delay tag.op) then
        some (t.onBranch tag.branch .proceed)
      else none
    | _ => none
  | data _ _ | terminate => none

namespace Turn

/-- The turns that a session comes to while it runs. -/
inductive Passes (stage : Stage) (t : Turn) : Turn → Prop
  | here : Passes stage t t
  | step {t₁ t₂ : Turn} {i : Nat} (h : Passes stage t t₁)
      (hfirst : t₁.session.firstRunnable? = some i) (hstep : t₁.step stage i = (t₂, .alive)) :
      Passes stage t t₂

def running (t : Turn) : Turn := t.onSession fun s => { s with state := .running }

variable {stage : Stage} {reached : Nat → Prop} {weight : Nat → Nat} {cause : Cause} {t t₁ : Turn}

def Still (t t' : Turn) : Prop :=
  t'.session.branches.map Branch.step = t.session.branches.map Branch.step

lemma abandon_steps (requests : Pool Request) (l : List Branch) :
    (abandon requests l).1.map Branch.step = l.map Branch.step := by
  induction l generalizing requests with
  | nil => rfl
  | cons b rest ih =>
    unfold abandon
    simp only
    split
    · rfl
    · rename_i requests' _
      simp only [List.map_cons, ih requests']

lemma close_still (t : Turn) (how : SessionEnd) : Still t (t.close how).1 := by
  have habandon := abandon_steps t.requests t.session.branches
  unfold close
  generalize abandon t.requests t.session.branches = out at habandon
  obtain ⟨branches, requests, fault⟩ := out
  cases fault with
  | none => exact habandon
  | some fault => exact habandon

/-- The session runs, from the turn that was told, or no branch takes a step. -/
inductive Sets (stage : Stage) (t : Turn) : Option Turn → Turn × Verdict → Prop
  | runs (t₁ : Turn) : Sets stage t (some t₁) (t₁.run stage)
  | still {out : Turn × Verdict} (h : Still t out.1) : Sets stage t none out

lemma Sets.congr {t' : Turn} {begun : Option Turn} {out : Turn × Verdict}
    (h : Sets stage t begun out)
    (hsame : t'.session.branches = t.session.branches) : Sets stage t' begun out := by
  cases h with
  | runs t₁ => exact .runs t₁
  | still h =>
    refine .still ?_
    unfold Still at h ⊢
    rw [hsame]
    exact h

lemma finishOperation_sets (stage : Stage) (t : Turn) (op : Nat) (p : Pending) (outcome : Outcome) :
    Sets stage t (settled? stage t op p outcome) (finishOperation stage t op p outcome) := by
  unfold settled? finishOperation
  simp only
  cases hrecord : (t.requests.get? p.request).filter (owns t.session op) with
  | none => exact .still rfl
  | some record =>
    simp only
    cases hr : t.requests.release (fun _ => Request.blank) p.request with
    | error fault => exact .still rfl
    | ok requests =>
      simp only
      split
      · exact .runs _
      · refine .still ((close_still _ .failed).trans ?_)
        simp only [onBranch, onSession, Session.onBranch]
        refine List.ext_getElem? fun k => ?_
        rw [List.getElem?_map, List.getElem?_modify, List.getElem?_map]
        cases t.session.branches[k]? with
        | none => rfl
        | some b =>
          simp only [Option.map_some]
          split <;> rfl

theorem act_sets (stage : Stage) (t : Turn) (cause : Cause) :
    Sets stage t (cause.begun? stage t) (cause.act stage t) := by
  cases cause with
  | start => exact .runs _
  | data tag fragment =>
    refine .still ?_
    simp only [Cause.act, onData]
    cases t.session.pending? stage.scenario tag with
    | error fault => rfl
    | ok found =>
      cases found with
      | none => rfl
      | some p =>
        have hframe := Session.onCursors_frame stage.scenario t.session p.operation.validators
          p.branch fun v c => v.feed c fragment
        simp only [onSession]
        rw [hframe]
        rfl
  | complete tag completion =>
    simp only [Cause.begun?, Cause.act, onCompletion]
    cases t.session.pending? stage.scenario tag with
    | error fault => exact .still rfl
    | ok found =>
      cases found with
      | none => exact .still rfl
      | some p =>
        have hframe := Session.onCursors_frame stage.scenario t.session p.operation.validators
          p.branch fun _ _ => .start
        refine (finishOperation_sets stage _ tag.op p _).congr ?_
        simp only [onSession]
        rw [hframe]
  | timer due =>
    obtain ⟨time, tag, kind⟩ := due
    cases kind with
    | deadline =>
      simp only [Cause.begun?, Cause.act, onTimer, onDeadline]
      cases t.session.pending? stage.scenario tag with
      | error fault => exact .still rfl
      | ok found =>
        cases found with
        | none => exact .still rfl
        | some p => exact finishOperation_sets stage t tag.op p .timeout
    | wake =>
      simp only [Cause.begun?, Cause.act, onTimer, onWake]
      cases t.session.isCurrent tag with
      | error fault => exact .still rfl
      | ok current =>
        cases current with
        | false => exact .still rfl
        | true =>
          simp only
          split
          · exact .runs _
          · exact .still rfl
  | terminate =>
    refine .still ?_
    simp only [Cause.act, terminate]
    split
    · exact close_still t .terminated
    · rfl

lemma settled?_eq_some {tag : Tag} {p : Pending}
    (hp : t.session.pending? stage.scenario tag = .ok (some p)) {arena : List Resource} {op : Nat}
    {outcome : Outcome}
    (hs : settled? stage { t with session := { t.session with arena } } op p outcome = some t₁) :
    ∃ b requests recorder, t.session.branches[tag.branch]? = some b ∧
      b.wait = .operation tag.op p.request ∧
      t.requests.release (fun _ => Request.blank) p.request = .ok requests ∧
      t₁ = ⟨{ t.session with branches := t.session.branches.set tag.branch b.proceed, arena },
        requests, recorder, t.effects⟩ := by
  obtain ⟨-, -, -, hbranch, b, hb, hw, -⟩ := Session.pending?_some hp
  unfold settled? at hs
  simp only at hs
  split at hs
  · cases hs
  · split at hs
    · cases hs
    · rename_i requests hr
      split at hs
      · cases hs
        rw [hbranch, onBranch_eq (by exact hb)]
        exact ⟨b, requests, _, hb, hw, hr, rfl⟩
      · cases hs

inductive Begins (stage : Stage) (t : Turn) : Cause → Turn → Prop
  | start : Begins stage t .start (t.onSession fun s => { s with
      branches := s.branches ++ stage.scenario.initial.map fun sequence => .new sequence none })
  | settles {cause : Cause} {tag : Tag} {b : Branch} {r : Nat} {arena : List Resource}
      {requests : Pool Request} {recorder : Recorder}
      (hb : t.session.branches[tag.branch]? = some b) (hw : b.wait = .operation tag.op r)
      (hr : t.requests.release (fun _ => Request.blank) r = .ok requests)
      (harena : Typed stage.scenario t.session.arena → Typed stage.scenario arena) :
      Begins stage t cause ⟨{ t.session with
        branches := t.session.branches.set tag.branch b.proceed, arena }, requests, recorder,
          t.effects⟩
  | wakes {cause : Cause} {tag : Tag} {b : Branch}
      (hb : t.session.branches[tag.branch]? = some b) (hw : b.wait = .delay tag.op) :
      Begins stage t cause { t with session := { t.session with
        branches := t.session.branches.set tag.branch b.proceed } }

lemma begun?_begins (hb : cause.begun? stage t = some t₁) : Begins stage t cause t₁ := by
  cases cause with
  | start =>
    cases hb
    exact .start
  | data tag fragment => cases hb
  | complete tag completion =>
    simp only [Cause.begun?] at hb
    split at hb
    · rename_i p hp
      have hframe := Session.onCursors_frame stage.scenario t.session p.operation.validators
        p.branch fun _ _ => .start
      rw [onSession, hframe] at hb
      obtain ⟨b, requests, recorder, hbranch, hw, hr, rfl⟩ := settled?_eq_some hp hb
      exact .settles hbranch hw hr fun htyped => Session.typed_onCursors htyped _ _ _
    · cases hb
  | timer due =>
    obtain ⟨time, tag, kind⟩ := due
    cases kind with
    | deadline =>
      simp only [Cause.begun?] at hb
      split at hb
      · rename_i p hp
        obtain ⟨b, requests, recorder, hbranch, hw, hr, rfl⟩ := settled?_eq_some hp hb
        exact .settles hbranch hw hr id
      · cases hb
    | wake =>
      simp only [Cause.begun?] at hb
      split at hb
      · split at hb
        · rename_i hwait
          cases hb
          obtain ⟨b, hb, hw⟩ := Option.map_eq_some_iff.mp hwait
          rw [onBranch_eq hb]
          exact .wakes hb hw
        · cases hb
      · cases hb
  | terminate => cases hb

lemma Coherent.begun (hsc : stage.scenario.Sound reached weight)
    (h : t.Coherent stage.scenario reached weight)
    (hvacant : cause = .start → t.session.branches = [])
    (hbegun : cause.begun? stage t = some t₁) :
    t₁.running.Coherent stage.scenario reached weight := by
  cases begun?_begins hbegun with
  | start => exact h.opened hsc (hvacant rfl)
  | @settles _ tag b r arena requests recorder hb hw hr harena =>
    have hawait := awaits_of_request hb hw
    have hnone : b.proceed.await? = none := await?_of_runnable rfl
    obtain ⟨htree, hgrowth, htyped, hbelow, hdistinct⟩ := h.sound.proceed hb
      (by rw [← awaits_of_getElem? hb]; exact hawait) (harena h.sound.typed)
    exact ⟨⟨htree, hgrowth, htyped, hbelow, hdistinct⟩, Pool.release_sound hr h.pool,
      h.keeps.drop (.of_set hb hnone .running arena) hawait h.sound.distinct
        fun r => Pool.release_get? hr r⟩
  | @wakes _ tag b hb hw =>
    have hawait := awaits_of_delay hb hw
    have hnone : b.proceed.await? = none := await?_of_runnable rfl
    obtain ⟨htree, hgrowth, htyped, hbelow, hdistinct⟩ := h.sound.proceed hb
      (by rw [← awaits_of_getElem? hb]; exact hawait) h.sound.typed
    exact ⟨⟨htree, hgrowth, htyped, hbelow, hdistinct⟩, h.pool,
      h.keeps.drop_delay (.of_set hb hnone .running t.session.arena) hawait⟩

theorem Coherent.passes (hsc : stage.scenario.Sound reached weight)
    (h : t.Coherent stage.scenario reached weight) (hp : Passes stage t t₁) :
    t₁.Coherent stage.scenario reached weight := by
  induction hp with
  | here => exact h
  | @step t₁ t₂ i _ hfirst hstep ih =>
    obtain ⟨b, hb, hrun⟩ := firstRunnable?_some hfirst
    have hstepped := step_stepped (ih.ready hsc hb hrun)
    rw [hstep] at hstepped
    generalize hout : (t₂, Verdict.alive) = out at hstepped
    cases hstepped with
    | alive ht =>
      cases hout
      exact ih.takes hsc hb hrun ht
    | failed =>
      obtain ⟨t', hclose, -⟩ := ih.owns.close .failed
      rw [hclose] at hout
      cases hout
    | full hfull => cases hout

end Turn

end LoadEngine
