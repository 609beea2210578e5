import LoadEngine.Proofs.TurnEvents

/-! What comes to a session while it goes on waiting: what nobody waits for any more, and the parts
of a response. -/

namespace LoadEngine

open Rehearsal (issues schedules)

lemma Tag.eq_of_parts {s : Session} {phase : Nat} {tag : Tag} (hphase : tag.phase = phase)
    (hslot : tag.slot = s.slot) (hgeneration : tag.generation = s.generation) :
    tag = s.tag phase tag.branch tag.op := by
  obtain ⟨p, slot, generation, branch, op⟩ := tag
  obtain rfl : p = phase := hphase
  obtain rfl : slot = s.slot := hslot
  obtain rfl : generation = s.generation := hgeneration
  rfl

lemma filterMap_eq_singleton {α β : Type} {l : List α} {g : α → Option β} {key : α → Nat}
    {a : α} {y : β}
    (hnodup : (l.map key).Nodup) (ha : a ∈ l) (hy : g a = some y)
    (hothers : ∀ x ∈ l, key x ≠ key a → g x = none) : l.filterMap g = [y] := by
  induction l with
  | nil => cases ha
  | cons x rest ih =>
    rw [List.map_cons, List.nodup_cons] at hnodup
    obtain ⟨hnot, hrest⟩ := hnodup
    rcases List.mem_cons.mp ha with rfl | ha
    · rw [List.filterMap_cons_some hy]
      congr 1
      rw [List.filterMap_eq_nil_iff]
      intro z hz
      refine hothers z (List.mem_cons_of_mem _ hz) fun heq => hnot ?_
      rw [← heq]
      exact List.mem_map_of_mem hz
    · have hne : key x ≠ key a := by
        intro heq
        apply hnot
        rw [heq]
        exact List.mem_map_of_mem ha
      rw [List.filterMap_cons_none (hothers x List.mem_cons_self hne)]
      exact ih hrest ha fun z hz => hothers z (List.mem_cons_of_mem _ hz)

lemma Flight.hear_data {now : Nanos} {tag : Tag} {fragment body : List UInt8} {f : Flight}
    (hbody : (f.hear now (.data tag fragment)).fate = .pending body) :
    ∃ before, f.fate = .pending before ∧
      body = (if f.tag = tag then before ++ fragment else before) ∧
      f.hear now (.data tag fragment) = { f with fate := .pending body } := by
  unfold Flight.hear at hbody ⊢
  cases hf : f.fate with
  | pending before =>
    simp only [hf, Flight.settles?, Flight.gathers, Fate.pending.injEq] at hbody ⊢
    exact ⟨before, rfl, hbody.symm, by rw [hbody]⟩
  | settled sample => simp only [hf] at hbody; cases hbody
  | abandoned how => simp only [hf] at hbody; cases hbody

lemma Session.Flies.cursor_fed {sc : Scenario} {reached : Nat → Prop} {weight : Nat → Nat}
    {phase : Nat} {s : Session} {requests : Pool Request} {f : Flight} {before : List UInt8}
    {tag : Tag} {p : Pending} {v : BoundValidator} (h : s.Flies sc phase requests f before)
    (hsc : sc.Sound reached weight) (hp : s.pending? sc tag = .ok (some p))
    (htag : tag = s.tag phase tag.branch tag.op) (fragment : List UInt8)
    (hv : v ∈ f.operation.validators) :
    (s.onCursors sc p.operation.validators p.branch fun v c => v.feed c fragment).cursor? sc v.key
        f.tag.branch =
      some (v.validator.feed .start (if f.tag = tag then before ++ fragment else before)) := by
  obtain ⟨-, -, -, hbranch, b, hb, hw, hstep⟩ := Session.pending?_some hp
  obtain ⟨id, step, r, hfwait, hfstep, -⟩ := h.wait
  have hwait := Turn.awaits_of_request hb hw
  have hplaces := Session.places_of_step hsc hstep
  by_cases heq : f.tag = tag
  · have hoperation : p.operation = f.operation := by
      rw [heq, hwait, Option.some.injEq, Await.mk.injEq] at hfwait
      rw [← hfwait.1, ← hfwait.2.1, hstep, Option.some.injEq, Step.operation.injEq] at hfstep
      exact hfstep
    have hcursor := h.cursors v hv
    rw [heq] at hcursor
    rw [if_pos heq, heq, ← hbranch,
      Session.cursor?_onCursors s p.branch hplaces _ (hoperation ▸ hv),
      hbranch, hcursor, Option.map_some, ← Search.Validator.feed_append]
  · -- Another operation is waited for by another branch, so its cursors are in other places.
    have hne : f.tag.branch ≠ p.branch := by
      intro hsame
      rw [hsame, hbranch, hwait, Option.some.injEq, Await.mk.injEq, Wait.operation.injEq] at hfwait
      apply heq
      rw [h.tag, htag, hsame, hbranch, hfwait.2.2.1]
    obtain ⟨hscope, hkind⟩ := (Session.places_of_step hsc hfstep).2 v hv
    rw [if_neg heq, ← h.cursors v hv]
    exact Session.cursor?_onCursors_ne hplaces _ hscope hkind (.inl hne)

namespace Turn

variable {stage : Stage} {reached : Nat → Prop} {weight : Nat → Nat} {cause : Cause}
  {flights : List Flight} {timers : List Timer} {since : Nat → Nanos} {t t₀ t₁ : Turn}

lemma Opens.unheard (h : Opens stage reached weight cause flights timers since t)
    (hstale : ∀ k id step op r,
      awaits t.session.branches k = some ⟨id, step, .operation op r⟩ →
        cause.tag? ≠ some (t.session.tag stage.phase k op)) :
    flights.map (Flight.hear stage.now cause) = flights ∧
      flights.filterMap (Flight.recording? stage.now cause) = [] := by
  have hsame : ∀ f ∈ flights, f.hear stage.now cause = f ∧ f.settles? stage.now cause = none := by
    intro f hf
    cases hpending : f.isPending with
    | false => exact ⟨Flight.hear_of_not_pending hpending, Flight.settles?_of_not_pending hpending⟩
    | true =>
      obtain ⟨body, hbody⟩ := Flight.isPending_iff.mp hpending
      obtain ⟨htag, ⟨id, step, r, hwait, -, -⟩, -⟩ := (h.booked.flies f hf body hbody).1
      have hne := hstale _ id step _ r hwait
      rw [← htag] at hne
      exact Flight.hear_of_ne hne
  constructor
  · rw [List.map_congr_left fun f hf => (hsame f hf).1]
    exact List.map_id' _
  · rw [List.filterMap_eq_nil_iff]
    intro f hf
    rw [Flight.recording?, (hsame f hf).2]
    rfl

lemma Opens.leads (h : Opens stage reached weight cause flights timers since t)
    (hrecorded : flights.filterMap (Flight.recording? stage.now cause) = [])
    (hslot : t₀.session.slot = t.session.slot)
    (hgeneration : t₀.session.generation = t.session.generation)
    (hnext : t₀.session.nextOp = t.session.nextOp) (hrequests : t₀.requests = t.requests)
    (hrecorder : t₀.recorder = t.recorder) (heffects : t₀.effects = t.effects) :
    Leads stage cause flights t t₀ := by
  refine ⟨hslot, hgeneration, hnext, by rw [hrequests], by rw [hrequests], ?_, ?_, ?_⟩
  · intro r record hne
    rw [hrequests]
  · rw [hrecorded, hrecorder]
    rfl
  · rw [heffects, h.effects]

lemma Opens.drop_timer (h : Opens stage reached weight cause flights timers since t)
    (hquiet : ∀ due, cause.timer? = some due → ∀ k a op, awaits t.session.branches k = some a →
      a.wait.number? = some op → t.session.tag stage.phase k op ≠ due.tag) :
    t.session.Booked stage.scenario stage.phase t.requests flights timers since := by
  have hsub : timers.Sublist (cause.timer?.toList ++ timers) := List.sublist_append_right _ _
  refine ⟨h.booked.flies, h.booked.flown, ?_, h.booked.flightOps,
    (hsub.map _).nodup h.booked.timerOps, h.booked.flightsKnown, fun timer htimer =>
      h.booked.timersKnown timer (hsub.subset htimer)⟩
  intro k a ha
  obtain ⟨timer, htimer, halarm⟩ := h.booked.alarms k a ha
  rcases List.mem_append.mp htimer with htimer | htimer
  · obtain ⟨op, hop, htag⟩ := halarm.number
    exact absurd htag.symm (hquiet timer (Option.mem_toList.mp htimer) k a op ha hop)
  · exact ⟨timer, htimer, halarm⟩

lemma Opens.idle (h : Opens stage reached weight cause flights timers since t)
    (hcause : cause ≠ .start) (hstale : ∀ k id step op r,
      awaits t.session.branches k = some ⟨id, step, .operation op r⟩ →
        cause.tag? ≠ some (t.session.tag stage.phase k op))
    (hquiet : ∀ due, cause.timer? = some due → ∀ k a op, awaits t.session.branches k = some a →
      a.wait.number? = some op → t.session.tag stage.phase k op ≠ due.tag)
    {verdict : Verdict} (hended : verdict.isEnded = false)
    (hbroken : cause.Known t.session → ∀ fault, verdict ≠ .broken fault) :
    Serves stage reached weight cause flights timers since t t verdict := by
  obtain ⟨hmap, hnone⟩ := h.unheard hstale
  have hleads : Leads stage cause flights t t := h.leads hnone rfl rfl rfl rfl rfl rfl
  have hfresh : fresh stage.now t.effects = [] := by
    rw [h.effects]
    rfl
  have hschedules : schedules t.effects = [] := by
    rw [h.effects]
    rfl
  have hleaves : verdict.leaves stage.scenario t.session = t.session := by
    cases verdict with
    | ended how => cases hended
    | _ => rfl
  have hcloses : verdict.closes = id := by
    cases verdict with
    | ended how => cases hended
    | _ => rfl
  refine ⟨rfl, Nat.le_refl _, fun _ => h.live hcause, ?_, h.coherent.pool, ?_, ?_, rfl, rfl,
    fun _ _ _ => Iff.rfl, ?_, ?_, ?_, ?_,
    fun hknown fault hf => absurd hf (hbroken hknown fault), ?_⟩
  · rw [hleaves]
    exact h.coherent.sound
  · rw [hleaves]
    exact h.coherent.keeps
  · rw [hleaves, hcloses, List.map_id, hmap, hfresh, hschedules, List.append_nil, List.append_nil]
    exact h.drop_timer hquiet
  · exact recorder_of_leads hleads (.refl stage h.effects)
  · intro x hx
    simp [h.effects] at hx
  · intro timer htimer
    simp [h.effects] at htimer
  · rintro (hstart | hresting) -
    · exact absurd hstart hcause
    · exact hresting
  · intro hcompleted
    rw [hcompleted] at hended
    cases hended

lemma Opens.stale (h : Opens stage reached weight cause flights timers since t)
    (hcause : cause ≠ .start) {tag : Tag} (htag : cause.tag? = some tag)
    (hnone : ∀ p, t.session.pending? stage.scenario tag ≠ .ok (some p)) (k id step op r : Nat)
    (hk : awaits t.session.branches k = some ⟨id, step, .operation op r⟩) :
    cause.tag? ≠ some (t.session.tag stage.phase k op) := by
  intro heq
  obtain rfl : tag = t.session.tag stage.phase k op := Option.some.inj (htag.symm.trans heq)
  obtain ⟨b, hb, -, -, hw⟩ := exists_of_awaits hk
  have hwaits := h.coherent.sound.tree.waits b (List.mem_of_getElem? hb)
  rw [Branch.Waits, hw] at hwaits
  obtain ⟨operation, hs⟩ := hwaits
  have hknows : t.session.Knows (t.session.tag stage.phase k op) :=
    ⟨Nat.le_refl _, h.coherent.sound.below k _ op hk rfl⟩
  exact hnone _ (Session.pending?_of_wait (h.live hcause) hknows rfl hb hw hs)

lemma Opens.alarm_of_timer (h : Opens stage reached weight cause flights timers since t)
    {due : Timer}
    (hdue : cause.timer? = some due) {k op : Nat} {a : Await}
    (hk : awaits t.session.branches k = some a) (hop : a.wait.number? = some op)
    (htag : t.session.tag stage.phase k op = due.tag) :
    t.session.Alarm stage.scenario stage.phase since k a due := by
  obtain ⟨timer, htimer, halarm⟩ := h.booked.alarms k a hk
  have hmem : due ∈ cause.timer?.toList ++ timers :=
    List.mem_append_left _ (Option.mem_toList.mpr hdue)
  have hsame : timer = due :=
    List.inj_on_of_nodup_map h.booked.timerOps htimer hmem (by rw [halarm.tag_eq hop, htag])
  exact hsame ▸ halarm

lemma Opens.gather (h : Opens stage reached weight cause flights timers since t)
    (hsc : stage.scenario.Sound reached weight) {tag : Tag} {fragment : List UInt8}
    (hcause : cause = .data tag fragment) {p : Pending}
    (hp : t.session.pending? stage.scenario tag = .ok (some p)) {s : Session}
    (hs : s = { t.session with arena := (t.session.onCursors stage.scenario p.operation.validators
      p.branch fun v c => v.feed c fragment).arena }) :
    s.Booked stage.scenario stage.phase t.requests
      (flights.map (Flight.hear stage.now cause)) timers
      since := by
  subst hcause hs
  obtain ⟨hphase, hslot⟩ := h.address tag rfl
  have htag := Tag.eq_of_parts hphase hslot (Session.pending?_some hp).2.1
  have hbooked := h.drop_timer fun due hdue => by cases hdue
  constructor
  case flies =>
    intro g hg body hbody
    obtain ⟨f, hf, rfl⟩ := List.mem_map.mp hg
    obtain ⟨before, hbefore, rfl, hsame⟩ := Flight.hear_data hbody
    rw [hsame]
    obtain ⟨hflies, htime⟩ := hbooked.flies f hf before hbefore
    exact ⟨⟨hflies.tag, hflies.wait, fun v hv => hflies.cursor_fed hsc hp htag fragment hv⟩, htime⟩
  case flown =>
    intro k id step op r hk
    obtain ⟨f, hf, hftag, hpending⟩ := hbooked.flown k id step op r hk
    refine ⟨f.hear stage.now (.data tag fragment), List.mem_map_of_mem hf, ?_, ?_⟩
    · rw [Flight.hear_tag]
      exact hftag
    · obtain ⟨body, hbody⟩ := Flight.isPending_iff.mp hpending
      rw [Flight.isPending_iff]
      simp only [Flight.hear, hbody, Flight.settles?]
      exact ⟨_, rfl⟩
  case alarms =>
    intro k a ha
    obtain ⟨timer, htimer, halarm⟩ := hbooked.alarms k a ha
    exact ⟨timer, htimer, halarm.congr rfl rfl fun _ _ => rfl⟩
  case flightOps =>
    rw [List.map_map]
    simpa [Function.comp_def] using hbooked.flightOps
  case timerOps => exact hbooked.timerOps
  case flightsKnown =>
    intro g hg
    obtain ⟨f, hf, rfl⟩ := List.mem_map.mp hg
    rw [Flight.hear_tag]
    exact hbooked.flightsKnown f hf
  case timersKnown => exact hbooked.timersKnown

lemma onData_serves (hsc : stage.scenario.Sound reached weight) {tag : Tag} {fragment : List UInt8}
    (h : Opens stage reached weight (.data tag fragment) flights timers since t) :
    Serves stage reached weight (.data tag fragment) flights timers since t
      (t.onData stage tag fragment).1 (t.onData stage tag fragment).2 := by
  have hstart : Cause.data tag fragment ≠ .start := by simp
  unfold onData
  cases hp : t.session.pending? stage.scenario tag with
  | error fault =>
    refine h.idle hstart (h.stale hstart rfl fun p => by rw [hp]; simp)
      (fun due hdue => by cases hdue) rfl ?_
    intro hknown
    exact absurd (hknown tag rfl) (Session.pending?_error hp)
  | ok found =>
    cases found with
    | none =>
      exact h.idle hstart (h.stale hstart rfl fun p => by rw [hp]; simp)
        (fun due hdue => by cases hdue) rfl fun _ fault hf => by cases hf
    | some p =>
      have hsession := Session.onCursors_frame stage.scenario t.session p.operation.validators
        p.branch fun v c => v.feed c fragment
      have hbooked := h.gather hsc rfl hp hsession
      have hnone : flights.filterMap (Flight.recording? stage.now (.data tag fragment)) = [] := by
        rw [List.filterMap_eq_nil_iff]
        intro f _
        rfl
      have hleads : Leads stage (.data tag fragment) flights t t :=
        h.leads hnone rfl rfl rfl rfl rfl rfl
      simp only [onSession]
      rw [hsession] at hbooked ⊢
      refine ⟨rfl, Nat.le_refl _, fun _ => h.live hstart, ?_, h.coherent.pool, ?_, ?_, rfl, rfl,
        fun _ _ _ => Iff.rfl, ?_, ?_, ?_, ?_, (fun _ fault hf => by cases hf),
        fun hf => by cases hf⟩
      · obtain ⟨htree, hgrowth, htyped, hbelow, hdistinct⟩ := h.coherent.sound
        exact ⟨htree, hgrowth, Session.typed_onCursors htyped _ _ _, hbelow, hdistinct⟩
      · exact h.coherent.keeps.congr rfl rfl fun _ _ _ _ _ => Iff.rfl
      · simp only [h.effects, fresh, issues_nil, schedules_nil, List.map_nil, List.append_nil,
          Verdict.closes, List.map_id]
        exact hbooked
      · have hrecorder := recorder_of_leads hleads (.refl stage h.effects)
        exact hrecorder
      · intro x hx
        simp [h.effects] at hx
      · intro timer htimer
        simp [h.effects] at htimer
      · rintro (hf | hresting) -
        · cases hf
        · exact ⟨hresting.state, hresting.still, hresting.waits⟩

end Turn

end LoadEngine
