import LoadEngine.Proofs.ArenaWrites
import LoadEngine.Proofs.WholeScenario

/-! What is written to the arena of a session, whatever comes for it. The cursors of an operation
see what came for the operation; then each step writes its own places; and there is nothing else
that writes. So every place holds what it is for at any time. -/

namespace LoadEngine

/-- The arena of a session has a place for everything that the steps of the scenario use, in every
branch, and no place for two things; and the places hold what they are for. -/
structure Session.Housed (sc : Scenario) (s : Session) : Prop where
  length : s.arena.length = sc.sessionSlots.length + sc.branchSlots.length * sc.maxBranches
  room : s.branches.length ≤ sc.maxBranches
  inRange : ∀ step ∈ sc.steps, ∀ key ∈ step.keys, ∀ branch < sc.maxBranches,
    position sc key branch < s.arena.length
  apart : ∀ (i j : Nat) (item item' : ResourceKey × Purpose) (branch branch' : Nat),
    sc.items[i]? = some item → sc.items[j]? = some item' →
    position sc item.1 branch = position sc item'.1 branch' →
    i = j ∧ (item.1.scope = .branch → branch = branch')
  holds : Furnished sc s.arena

namespace Cause

/-- What is written where something comes, before the session runs: a fragment goes to the cursors
of the operation that waits for it, and its completion sets them back. -/
def writes (sc : Scenario) (s : Session) : Cause → List Write
  | data tag fragment =>
    match s.pending? sc tag with
    | .ok (some p) =>
      cursorWrites sc p.operation.validators p.branch fun v c => v.feed c fragment
    | _ => []
  | complete tag _ =>
    match s.pending? sc tag with
    | .ok (some p) => cursorWrites sc p.operation.validators p.branch fun _ _ => .start
    | _ => []
  | _ => []

def entry (stage : Stage) (t : Turn) (cause : Cause) : Turn :=
  (cause.begun? stage t).getD (cause.act stage t).1

end Cause

namespace Turn

def Runs (stage : Stage) (t : Turn) (cause : Cause) (t' : Turn) : Prop :=
  ∃ t₁, cause.begun? stage t = some t₁ ∧ Passes stage t₁.running t'

/-- All that is written to the arena because of a cause: what has come, and then what the steps
write. The arena has its places before, at every step, and after. -/
structure Confined (stage : Stage) (t : Turn) (cause : Cause) : Prop where
  before : t.session.Housed stage.scenario
  comes : Made (cause.writes stage.scenario t.session) t.session.arena
    (cause.entry stage t).session.arena
  during : ∀ t', Runs stage t cause t' → t'.session.Housed stage.scenario
  performs : ∀ t', Runs stage t cause t' → ∀ i, t'.session.firstRunnable? = some i →
    Performs stage t' i
  ends : ∃ t', (t' = cause.entry stage t ∨ Runs stage t cause t') ∧
    (cause.act stage t).1.session.arena = t'.session.arena
  after : (cause.act stage t).1.session.Housed stage.scenario

end Turn

lemma Made.length {writes : List Write} {arena arena' : List Resource}
    (h : Made writes arena arena') : arena'.length = arena.length := by
  have hends : ∀ j, arena'.length ≤ j ↔ arena.length ≤ j := by
    intro j
    rw [← List.getElem?_eq_none_iff, ← List.getElem?_eq_none_iff]
    by_cases hj : j ∈ writes.map Write.place
    · obtain ⟨w, hw, rfl⟩ := List.mem_map.mp hj
      obtain ⟨r, r', hr, -, hr'⟩ := h.made w hw
      rw [hr, hr']
      exact iff_of_false (by simp) (by simp)
    · rw [h.spared j hj]
  exact Nat.le_antisymm ((hends _).mpr le_rfl) ((hends _).mp le_rfl)

section Housed

variable {d : Draft} {sc : Scenario} {s s' : Session}

lemma Draft.Yields.housed (h : d.Yields sc)
    (hlength : s.arena.length = sc.sessionSlots.length + sc.branchSlots.length * sc.maxBranches)
    (hroom : s.branches.length ≤ sc.maxBranches) (hf : Furnished sc s.arena) : s.Housed sc where
  length := hlength
  room := hroom
  inRange := by
    intro step hstep key hkey branch hbranch
    obtain ⟨purpose, hitem⟩ := h.exists_item hstep hkey
    obtain ⟨r, hr, -⟩ := hf _ hitem branch hbranch
    exact (List.getElem?_eq_some_iff.mp hr).1
  apart i j item item' branch branch' := h.apart
  holds := hf

lemma Session.Housed.congr (h : s.Housed sc) (harena : s'.arena = s.arena)
    (hlength : s'.branches.length = s.branches.length) : s'.Housed sc := by
  obtain ⟨hall, hroom, hrange, hapart, hholds⟩ := h
  refine ⟨by rw [harena, hall], hlength ▸ hroom, ?_, hapart, ?_⟩
  · rwa [harena]
  · rwa [harena]

end Housed

namespace Turn

variable {d : Draft} {stage : Stage} {reached : Nat → Prop} {weight : Nat → Nat} {cause : Cause}
  {t t₀ t₁ : Turn}

lemma Coherent.housed (h : t.Coherent stage.scenario reached weight)
    (hy : d.Yields stage.scenario) (hf : Furnished stage.scenario t.session.arena) :
    t.session.Housed stage.scenario :=
  hy.housed h.sound.typed.length h.sound.length_le hf

lemma settle_alike (stage : Stage) (t : Turn) (op : Nat) (p : Pending) (outcome : Outcome) :
    t.Alike ((settled? stage t op p outcome).getD (finishOperation stage t op p outcome).1) := by
  unfold settled? finishOperation
  simp only
  cases hrecord : (t.requests.get? p.request).filter (owns t.session op) with
  | none => exact ⟨rfl, rfl⟩
  | some record =>
    simp only
    cases hr : t.requests.release (fun _ => Request.blank) p.request with
    | error fault => exact ⟨rfl, rfl⟩
    | ok requests =>
      simp only
      split
      · exact ⟨rfl, List.length_modify ..⟩
      · refine ⟨(close_alike _ .failed).arena, (close_alike _ .failed).length.trans ?_⟩
        exact List.length_modify ..

lemma Coherent.pending (h : t.Coherent stage.scenario reached weight)
    (hsc : stage.scenario.Sound reached weight) {tag : Tag} {p : Pending}
    (hp : t.session.pending? stage.scenario tag = .ok (some p)) :
    p.branch < stage.scenario.maxBranches ∧ .operation p.operation ∈ stage.scenario.steps ∧
      Session.Places stage.scenario p.operation.validators := by
  obtain ⟨-, -, -, hbranch, b, hb, -, hstep⟩ := Session.pending?_some hp
  exact ⟨hbranch ▸ h.room hb, Scenario.mem_steps_of_step? hstep,
    Session.places_of_step hsc hstep⟩

lemma Coherent.heard (h : t.Coherent stage.scenario reached weight)
    (hsc : stage.scenario.Sound reached weight) (hf : Furnished stage.scenario t.session.arena)
    {tag : Tag} {p : Pending} (hp : t.session.pending? stage.scenario tag = .ok (some p))
    (f : Search.Validator → Search.Cursor → Search.Cursor) :
    Made (cursorWrites stage.scenario p.operation.validators p.branch f) t.session.arena
      (t.session.onCursors stage.scenario p.operation.validators p.branch f).arena ∧
    ∀ w ∈ cursorWrites stage.scenario p.operation.validators p.branch f, w.Fits stage.scenario := by
  obtain ⟨hbranch, hmem, hplaces⟩ := h.pending hsc hp
  exact ⟨Session.onCursors_made hf hplaces (items_of_operation hmem) hbranch f,
    cursorWrites_fits (items_of_operation hmem) hbranch f⟩

lemma Coherent.entry_made (h : t.Coherent stage.scenario reached weight)
    (hsc : stage.scenario.Sound reached weight) (hf : Furnished stage.scenario t.session.arena)
    (cause : Cause) :
    Made (cause.writes stage.scenario t.session) t.session.arena
        (cause.entry stage t).session.arena ∧
      ∀ w ∈ cause.writes stage.scenario t.session, w.Fits stage.scenario := by
  have hquiet : ∀ {t' : Turn}, t'.session.arena = t.session.arena →
      Made [] t.session.arena t'.session.arena ∧
        ∀ w ∈ ([] : List Write), w.Fits stage.scenario := by
    intro t' harena
    rw [harena]
    exact ⟨.refl _, by simp⟩
  -- Before the session runs, only what a plugin says writes: to the cursors of its operation.
  cases cause with
  | start => exact hquiet rfl
  | data tag fragment =>
    simp only [Cause.writes, Cause.entry, Cause.begun?, Option.getD_none, Cause.act, onData]
    cases hp : t.session.pending? stage.scenario tag with
    | error fault => exact hquiet rfl
    | ok found =>
      cases found with
      | none => exact hquiet rfl
      | some p => exact h.heard hsc hf hp fun v c => v.feed c fragment
  | complete tag completion =>
    simp only [Cause.writes, Cause.entry, Cause.begun?, Cause.act, onCompletion]
    cases hp : t.session.pending? stage.scenario tag with
    | error fault => exact hquiet rfl
    | ok found =>
      cases found with
      | none => exact hquiet rfl
      | some p =>
        have halike := settle_alike stage (t.onSession fun s =>
          s.onCursors stage.scenario p.operation.validators p.branch fun _ _ => .start) tag.op p
          (judge stage t.session p completion.outcome)
        simp only
        rw [halike.arena]
        exact h.heard hsc hf hp fun _ _ => .start
  | timer due =>
    obtain ⟨time, tag, kind⟩ := due
    simp only [Cause.writes, Cause.entry]
    cases kind with
    | deadline =>
      simp only [Cause.begun?, Cause.act, onTimer, onDeadline]
      cases t.session.pending? stage.scenario tag with
      | error fault => exact hquiet rfl
      | ok found =>
        cases found with
        | none => exact hquiet rfl
        | some p => exact hquiet (settle_alike stage t tag.op p .timeout).arena
    | wake =>
      simp only [Cause.begun?, Cause.act, onTimer, onWake]
      cases t.session.isCurrent tag with
      | error fault => exact hquiet rfl
      | ok current =>
        cases current with
        | false => exact hquiet rfl
        | true =>
          simp only
          split <;> exact hquiet rfl
  | terminate =>
    simp only [Cause.writes, Cause.entry, Cause.begun?, Option.getD_none, Cause.act, terminate]
    split
    · exact hquiet (close_alike t .terminated).arena
    · exact hquiet rfl

lemma Coherent.passes_furnished (hsc : stage.scenario.Sound reached weight)
    (hy : d.Yields stage.scenario) (h : t₀.Coherent stage.scenario reached weight)
    (hf : Furnished stage.scenario t₀.session.arena) (hp : Passes stage t₀ t) :
    Furnished stage.scenario t.session.arena := by
  induction hp with
  | here => exact hf
  | @step t₁ t₂ i hp hfirst hstep ih =>
    have hcoherent := h.passes hsc hp
    obtain ⟨b, hb, -⟩ := firstRunnable?_some hfirst
    have hmade := (hcoherent.performs hsc hy ih hb).made
    rw [hstep] at hmade
    refine hy.furnished_made ih (hmade rfl) ?_
    cases hc : t₁.session.current? stage.scenario i with
    | none => simp
    | some step => exact hy.writes_fits (Session.mem_steps_of_current? hc) (hcoherent.room hb)

lemma rest_alike (t : Turn) : t.Alike t.rest.1 := by
  rw [rest]
  split
  · exact close_alike t .completed
  · exact ⟨rfl, rfl⟩

lemma steps_alike
    (hperforms : ∀ t', Passes stage t₀ t' → ∀ i, t'.session.firstRunnable? = some i →
      Performs stage t' i) (n : Nat) (hp : Passes stage t₀ t) :
    ∃ t', Passes stage t₀ t' ∧ t'.Alike (t.steps stage n).1 := by
  -- on the number of steps left, from any turn that the run has come to
  induction n generalizing t with
  | zero =>
    rw [steps]
    split
    · exact ⟨t, hp, rest_alike t⟩
    · exact ⟨t, hp, .refl t⟩
  | succ n ih =>
    rw [steps]
    split
    · exact ⟨t, hp, rest_alike t⟩
    · rename_i i hfirst
      have hkept := (hperforms t hp i hfirst).kept
      generalize hstep : t.step stage i = out at hkept
      obtain ⟨t', verdict⟩ := out
      cases verdict with
      | alive => exact ih (.step hp hfirst hstep)
      | ended how => exact ⟨t, hp, hkept (by simp)⟩
      | broken fault => exact ⟨t, hp, hkept (by simp)⟩

lemma Coherent.runs (hsc : stage.scenario.Sound reached weight) (hy : d.Yields stage.scenario)
    (h : t.Coherent stage.scenario reached weight)
    (hf : Furnished stage.scenario t.session.arena)
    (hvacant : cause = .start → t.session.branches = []) {t' : Turn} (hr : Runs stage t cause t') :
    t'.Coherent stage.scenario reached weight ∧ Furnished stage.scenario t'.session.arena := by
  obtain ⟨t₁, hbegun, hpasses⟩ := hr
  obtain ⟨hmade, hfits⟩ := h.entry_made hsc hf cause
  have hentry := hy.furnished_made hf hmade hfits
  have hbegins := h.begun hsc hvacant hbegun
  rw [Cause.entry, hbegun] at hentry
  exact ⟨hbegins.passes hsc hpasses, hbegins.passes_furnished hsc hy hentry hpasses⟩

theorem Coherent.confined (hsc : stage.scenario.Sound reached weight)
    (hy : d.Yields stage.scenario) (h : t.Coherent stage.scenario reached weight)
    (hf : Furnished stage.scenario t.session.arena)
    (hvacant : cause = .start → t.session.branches = []) : Confined stage t cause := by
  obtain ⟨hmade, hfits⟩ := h.entry_made hsc hf cause
  have hperforms : ∀ t', Runs stage t cause t' → ∀ i, t'.session.firstRunnable? = some i →
      Performs stage t' i := by
    intro t' hrun i hfirst
    obtain ⟨hcoherent, hfurnished⟩ := h.runs hsc hy hf hvacant hrun
    obtain ⟨b, hb, -⟩ := firstRunnable?_some hfirst
    exact hcoherent.performs hsc hy hfurnished hb
  have hduring : ∀ t', Runs stage t cause t' → t'.session.Housed stage.scenario := by
    intro t' hrun
    obtain ⟨hcoherent, hfurnished⟩ := h.runs hsc hy hf hvacant hrun
    exact hcoherent.housed hy hfurnished
  have hsets := act_sets stage t cause
  cases hbegun : cause.begun? stage t with
  | some t₁ =>
    rw [hbegun] at hsets
    obtain ⟨t', hpasses, halike⟩ := steps_alike (fun t' hp => hperforms t' ⟨t₁, hbegun, hp⟩)
      (t₁.running.session.effort stage.scenario) .here
    have hact : cause.act stage t = t₁.run stage := by
      generalize cause.act stage t = out at hsets
      cases hsets
      rfl
    rw [run] at hact
    have hrun : Runs stage t cause t' := ⟨t₁, hbegun, hpasses⟩
    refine ⟨h.housed hy hf, hmade, hduring, hperforms, ⟨t', .inr hrun, ?_⟩, ?_⟩
    · rw [hact]
      exact halike.arena
    · rw [hact]
      exact (hduring t' hrun).congr halike.arena halike.length
  | none =>
    have hact : cause.entry stage t = (cause.act stage t).1 := by
      rw [Cause.entry, hbegun, Option.getD_none]
    rw [hbegun] at hsets
    refine ⟨h.housed hy hf, hmade, hduring, hperforms, ⟨_, .inl rfl, by rw [hact]⟩, ?_⟩
    have hstill : Still t (cause.act stage t).1 := by
      generalize cause.act stage t = out at hsets
      cases hsets with
      | still hstill => exact hstill
    have hlength := congrArg List.length hstill
    rw [List.length_map, List.length_map] at hlength
    rw [hact] at hmade
    refine hy.housed (hmade.length.trans h.sound.typed.length) ?_
      (hy.furnished_made hf hmade hfits)
    rw [hlength]
    exact h.sound.length_le

end Turn

namespace Session

variable {scenario : Scenario} {phase : Nat} {d : Draft} {s : Session} {log : List Stride}
  {issued : List (Operation BoundValidator)}

lemma Story.furnished (hbuilt : d.build = .ok scenario) (h : Story scenario phase s log issued) :
    Furnished scenario s.arena := by
  have hy := Draft.build_yields hbuilt
  obtain ⟨reached, weight, hsc⟩ := d.build_sound hbuilt
  induction h with
  | new slot => exact hy.furnished_initial
  | @act s log issued cause now requests recorder t verdict h hmeets hact _ ih =>
    obtain ⟨hsound, -⟩ := h.logged hsc
    have hconfined : Turn.Confined ⟨scenario, phase, now⟩ ⟨s, requests, recorder, []⟩ cause :=
      Turn.Coherent.confined hsc hy ⟨hsound, hmeets.pool, hmeets.keeps⟩ ih hmeets.vacant
    have hafter := hconfined.after.holds
    rw [hact] at hafter
    exact hafter
  | recycle => exact hy.furnished_initial

/-- Whatever comes for a session of an accepted scenario, and whenever, its arena is written where
and as it should be, and nowhere else. -/
theorem Story.confinesWrites (hbuilt : d.build = .ok scenario)
    (h : Story scenario phase s log issued) {cause : Cause} {requests : Pool Request}
    (hmeets : s.Meets cause requests) (now : Nanos) (recorder : Recorder) :
    Turn.Confined ⟨scenario, phase, now⟩ ⟨s, requests, recorder, []⟩ cause := by
  obtain ⟨reached, weight, hsc⟩ := d.build_sound hbuilt
  obtain ⟨hsound, -⟩ := h.logged hsc
  exact Turn.Coherent.confined hsc (Draft.build_yields hbuilt)
    ⟨hsound, hmeets.pool, hmeets.keeps⟩ (h.furnished hbuilt) hmeets.vacant

end Session

def censusFresh : Turn := ⟨.new census 0, .new 2 fun _ => .blank, .empty .default, []⟩

def censusData : Cause := .data ⟨0, 0, 0, 0, 0⟩ [97, 98]

def censusAnswer : Cause := .complete ⟨0, 0, 0, 0, 0⟩ .success

def censusAsked : Turn := (Cause.start.act ⟨census, 0, 0⟩ censusFresh).1

def censusHeard : Turn := (censusData.act ⟨census, 0, 3⟩ { censusAsked with effects := [] }).1

theorem censusHeard_confinesWrites :
    Session.Story census 0 censusHeard.session
      ([] ++ Cause.start.strides ⟨census, 0, 0⟩ censusFresh ++
        censusData.strides ⟨census, 0, 3⟩ { censusAsked with effects := [] })
      ([] ++ (Rehearsal.issues censusAsked.effects).map Prod.fst ++
        (Rehearsal.issues censusHeard.effects).map Prod.fst) ∧
    censusHeard.session.Meets censusAnswer censusHeard.requests ∧
    Turn.Confined ⟨census, 0, 4⟩ { censusHeard with effects := [] } censusAnswer := by
  obtain ⟨reached, weight, hsc⟩ := censusDraft.build_sound census_built
  have hnew : Session.Story census 0 censusFresh.session [] [] := .new 0
  have hmeets : censusFresh.session.Meets .start censusFresh.requests :=
    ⟨Pool.new_sound _ _, ⟨nofun, fun r record hr => by simp [censusFresh, Pool.new_get?] at hr⟩,
      fun _ => rfl⟩
  have hasked : Cause.start.act ⟨census, 0, 0⟩ ⟨censusFresh.session, censusFresh.requests,
      censusFresh.recorder, []⟩ = (censusAsked, .alive) := Prod.ext rfl (by decide +kernel)
  have hheard : censusData.act ⟨census, 0, 3⟩ ⟨censusAsked.session, censusAsked.requests,
      censusAsked.recorder, []⟩ = (censusHeard, .alive) := Prod.ext rfl (by decide +kernel)
  have hdataMeets : censusAsked.session.Meets censusData censusAsked.requests :=
    hnew.meets hsc hmeets hasked nofun nofun
  have hstory := hnew.act hmeets hasked nofun
  have hanswerMeets : censusHeard.session.Meets censusAnswer censusHeard.requests :=
    hstory.meets hsc hdataMeets hheard nofun nofun
  have hstory := hstory.act hdataMeets hheard nofun
  exact ⟨hstory, hanswerMeets,
    Session.Story.confinesWrites census_built hstory hanswerMeets 4 censusHeard.recorder⟩

end LoadEngine
