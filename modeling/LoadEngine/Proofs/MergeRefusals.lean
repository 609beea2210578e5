import LoadEngine.Proofs.MergeLaws

/-! What is left behind when a set of snapshots cannot be added to another one. The metrics are
taken in their order, so those in front of the first that does not fit have been added by then and
nothing else has changed. Whoever tries once more is refused again and counts them twice. -/

namespace LoadEngine

namespace Snapshot

variable {s t : Snapshot} {reason : String}

def Recorded (s : Snapshot) : Prop :=
  ∃ (shape : Histogram.Shape) (l : List Recording),
    .reset ∉ l ∧ s = l.foldl Snapshot.enter (.empty shape)

lemma Recorded.add (hs : s.Recorded) (ht : t.Recorded) (hshape : s.shape = t.shape) :
    (s.add t).Recorded := by
  obtain ⟨shape, l, hl, rfl⟩ := hs
  obtain ⟨shape', l', hl', rfl⟩ := ht
  have hsame : (l.foldl Snapshot.enter (.empty shape)).shape = shape' := by
    rw [hshape, foldl_enter_shape]
    rfl
  refine ⟨shape, l ++ l', by simp [hl, hl'], ?_⟩
  rw [List.foldl_append, ← add_foldl hl' (l.foldl Snapshot.enter (.empty shape)), hsame]

lemma Recorded.add_eq_self_iff (ht : t.Recorded) : s.add t = s ↔ t.isEmpty = true := by
  rw [isEmpty, Bool.and_eq_true, beq_iff_eq, beq_iff_eq]
  constructor
  · intro h
    have hrequests : s.requests + t.requests = s.requests := congrArg Snapshot.requests h
    have hcompleted : (s.add t).completed = s.completed := congrArg Snapshot.completed h
    simp only [completed, failures, Snapshot.add] at hcompleted ⊢
    omega
  · rintro ⟨hrequests, hcompleted⟩
    obtain ⟨shape, l, hl, rfl⟩ := ht
    obtain ⟨hr, hc⟩ := foldl_enter_counts (.empty shape) hl
    have hnone : l = [] := by
      rw [List.eq_nil_iff_forall_not_mem]
      intro x hx
      have hrequest : 0 = l.countP fun x => x.request?.isSome := by
        rw [← hrequests, hr]
        exact Nat.zero_add _
      have hsample : 0 = l.countP fun x => x.sample?.isSome := by
        rw [← hcompleted, hc]
        exact Nat.zero_add _
      cases x with
      | request metric => exact List.countP_eq_zero.mp hrequest.symm _ hx rfl
      | sample metric sample => exact List.countP_eq_zero.mp hsample.symm _ hx rfl
      | reset => exact hl hx
    rw [hnone]
    exact s.add_empty shape

lemma merge_eq_error_iff (ht : t.histogram.Sound) : s.merge t = .error reason ↔
    s.shape ≠ t.shape ∧ reason = "histogram bounds " ++ s.bounds ++ " vs " ++ t.bounds ∨
      s.shape = t.shape ∧ t.histogram.max = Nanos.maxCount ∧
        reason = "OtherAddendValueExceedsRange" := by
  by_cases hshape : s.shape = t.shape
  · have hadd := ht.canAdd_iff (h := s.histogram) hshape
    rw [Ne, ← Histogram.max_eq_maxCount_iff] at hadd
    rw [merge_eq hshape]
    by_cases hmax : t.histogram.max = Nanos.maxCount
    · rw [if_neg fun h => hadd.mp h hmax, Except.error.injEq]
      simp [hshape, hmax, eq_comm]
    · rw [if_pos (hadd.mpr hmax)]
      simp [hshape, hmax]
  · rw [merge, if_pos hshape, Except.error.injEq]
    simp [hshape, eq_comm]

end Snapshot

namespace StatisticsSet

variable {s t u : StatisticsSet} {metric : String} {mine theirs : Snapshot} {reason : String}

lemma Made.recorded_of_get? (h : s.Made) {a : Snapshot} (ha : s.get? metric = some a) :
    a.Recorded := by
  induction h generalizing metric a with
  | @recorded shape l hshape hl =>
    rw [Recorder.get?_foldl_since, shown] at ha
    split at ha
    · cases ha
    · cases ha
      exact ⟨shape, _, Recording.reset_notMem_about metric _, rfl⟩
  | absorbed _ _ ihs iht =>
    refine absorbList_holds (fun b c hb hc haccepts => hb.add hc haccepts.1)
      (fun _ _ => ihs) (fun e he => iht (mem_toList.mp he)) metric a ha

structure Refuses (s t : StatisticsSet) (metric : String) (mine theirs : Snapshot) : Prop where
  held : s.get? metric = some mine
  added : t.get? metric = some theirs
  refused : ¬mine.Accepts theirs
  first : ∀ k < metric, ∀ a b, s.get? k = some a → t.get? k = some b → a.Accepts b

lemma absorbList_append (s : StatisticsSet) {before rest : List (String × Snapshot)}
    (h : s.absorbList before = (u, .ok ())) :
    s.absorbList (before ++ rest) = u.absorbList rest := by
  induction before generalizing s with
  | nil =>
    obtain rfl : s = u := congrArg Prod.fst h
    rfl
  | cons e before ih =>
    obtain ⟨metric, b⟩ := e
    rw [List.cons_append, absorbList]
    rw [absorbList] at h
    cases hadd : s.addMetric metric b with
    | error e =>
      rw [hadd] at h
      cases h
    | ok s' =>
      rw [hadd] at h
      exact ih s' h

lemma lookup_before {before rest : List (String × Snapshot)}
    (hsorted : (before ++ (metric, theirs) :: rest).Pairwise fun x y => x.1 < y.1) (k : String) :
    before.lookup k =
      if k < metric then (before ++ (metric, theirs) :: rest).lookup k else none := by
  obtain ⟨-, hrest, hcross⟩ := List.pairwise_append.mp hsorted
  split
  · rename_i hk
    rw [List.lookup_append, OrderedMap.lookup_of_lt hrest hk, Option.or_none]
  · rename_i hk
    refine OrderedMap.lookup_eq_none fun x hx => ?_
    rintro rfl
    exact hk (hcross x hx (metric, theirs) List.mem_cons_self)

lemma Refuses.absorb (h : s.Refuses t metric mine theirs) :
    ∃ u reason, s.absorb t = (u, .error (.incompatibleSnapshots metric reason)) ∧
      mine.merge theirs = .error reason ∧
      ∀ k, u.get? k = if k < metric then join (s.get? k) (t.get? k) else s.get? k := by
  obtain ⟨before, rest, hlist⟩ :=
    List.append_of_mem (mem_toList (e := (metric, theirs)).mpr h.added)
  have hsorted := t.byMetric.sorted
  change t.toList.Pairwise _ at hsorted
  rw [hlist] at hsorted
  obtain ⟨hbefore, -, hcross⟩ := List.pairwise_append.mp hsorted
  have haccepts : ∀ e ∈ before, ∀ a, s.get? e.1 = some a → a.Accepts e.2 := by
    intro e he a ha
    have hmem : e ∈ t.toList := by
      rw [hlist]
      exact List.mem_append_left _ he
    exact h.first e.1 (hcross e he _ List.mem_cons_self) a e.2 ha (mem_toList.mp hmem)
  obtain ⟨u, hu, hget⟩ := absorbList_of_accepts hbefore haccepts
  have hget' (k : String) :
      u.get? k = if k < metric then join (s.get? k) (t.get? k) else s.get? k := by
    have hwhole : t.get? k = (before ++ (metric, theirs) :: rest).lookup k := by
      rw [← hlist]
      rfl
    rw [hget, lookup_before hsorted, hwhole]
    split
    · rfl
    · cases s.get? k <;> rfl
  obtain ⟨reason, hreason⟩ := Snapshot.merge_of_not_accepts h.refused
  have hmine : u.get? metric = some mine := by
    rw [hget', if_neg (String.lt_irrefl metric), h.held]
  refine ⟨u, reason, ?_, hreason, hget'⟩
  unfold StatisticsSet.absorb
  rw [hlist, absorbList_append s hu]
  simp only [absorbList, addMetric, hmine, hreason]

lemma exists_refuses (h : ¬s.Accepts t) : ∃ metric mine theirs, s.Refuses t metric mine theirs := by
  classical
  let misfits (e : String × Snapshot) : Prop := ∃ a, s.get? e.1 = some a ∧ ¬a.Accepts e.2
  simp only [Accepts, not_forall] at h
  obtain ⟨metric, a, b, ha, hb, hab⟩ := h
  cases hfind : t.toList.find? (fun e => decide (misfits e)) with
  | none =>
    have hnone := List.find?_eq_none.mp hfind (metric, b) (mem_toList.mpr hb)
    exact absurd (decide_eq_true ⟨a, ha, hab⟩) hnone
  | some e =>
    obtain ⟨hmisfits, before, rest, hlist, hbefore⟩ := List.find?_eq_some_iff_append.mp hfind
    obtain ⟨mine, hmine, hrefused⟩ := of_decide_eq_true hmisfits
    have htheirs : t.get? e.1 = some e.2 := mem_toList.mp (List.mem_of_find?_eq_some hfind)
    refine ⟨e.1, mine, e.2, hmine, htheirs, hrefused, fun k hk a b ha hb => ?_⟩
    have hsorted := t.byMetric.sorted
    change t.toList.Pairwise _ at hsorted
    rw [hlist] at hsorted
    have hfront := lookup_before hsorted k
    rw [if_pos hk, ← hlist] at hfront
    have hmem : (k, b) ∈ before := OrderedMap.mem_of_lookup (hfront.trans hb)
    by_contra hab
    have hnot := hbefore (k, b) hmem
    rw [Bool.not_eq_true', decide_eq_false_iff_not] at hnot
    exact hnot ⟨a, ha, hab⟩

lemma Refuses.again (h : s.Refuses t metric mine theirs) (hu : u.get? metric = some mine) :
    ∃ metric' mine' theirs', u.Refuses t metric' mine' theirs' ∧ metric' ≤ metric := by
  have hnot : ¬u.Accepts t := fun haccepts => h.refused (haccepts metric mine theirs hu h.added)
  obtain ⟨metric', mine', theirs', hagain⟩ := exists_refuses hnot
  refine ⟨metric', mine', theirs', hagain, String.not_lt.mp fun hlt => h.refused ?_⟩
  exact hagain.first metric hlt mine theirs hu h.added

lemma join_eq_self_iff {x y : Option Snapshot} (hy : ∀ b, y = some b → b.Recorded) :
    join x y = x ↔ ∀ b, y = some b → x.isSome = true ∧ b.isEmpty = true := by
  cases y with
  | none => cases x <;> simp [join]
  | some b =>
    cases x with
    | none => simp [join]
    | some a => simpa [join] using (hy b rfl).add_eq_self_iff

/-- Adding a set that does not fit. The metric that is named is the first one in both whose bounds
differ or whose latency in the added set is the largest number that a counter can hold. What was
held changes unless those in front of it were there before and have nothing recorded in the added
set. Another try is refused as well, and what is in front of the metric that it names is counted
twice. -/
theorem absorb_refused {e : ContractViolation} (ht : t.Made)
    (hrefused : (s.absorb t).2 = .error e) :
    ∃ metric mine theirs reason, e = .incompatibleSnapshots metric reason ∧
      s.get? metric = some mine ∧ t.get? metric = some theirs ∧
      (mine.shape ≠ theirs.shape ∧
          reason = "histogram bounds " ++ mine.bounds ++ " vs " ++ theirs.bounds ∨
        mine.shape = theirs.shape ∧ theirs.histogram.max = Nanos.maxCount ∧
          reason = "OtherAddendValueExceedsRange") ∧
      (∀ k < metric, ∀ a b, s.get? k = some a → t.get? k = some b →
        a.shape = b.shape ∧ b.histogram.max ≠ Nanos.maxCount) ∧
      (∀ k, (s.absorb t).1.get? k =
        if k < metric then join (s.get? k) (t.get? k) else s.get? k) ∧
      ((s.absorb t).1 = s ↔ ∀ k < metric, ∀ b, t.get? k = some b →
        (s.get? k).isSome = true ∧ b.isEmpty = true) ∧
      ∃ metric' ≤ metric, ∃ reason',
        ((s.absorb t).1.absorb t).2 = .error (.incompatibleSnapshots metric' reason') ∧
        ∀ k < metric', ((s.absorb t).1.absorb t).1.get? k =
          join (join (s.get? k) (t.get? k)) (t.get? k) := by
  have hnot : ¬s.Accepts t := by
    intro haccepts
    obtain ⟨u, hu, -⟩ := merge_of_accepts haccepts
    unfold StatisticsSet.merge at hu
    split at hu
    · rename_i hok
      rw [hok] at hrefused
      cases hrefused
    · cases hu
  obtain ⟨metric, mine, theirs, hrefuses⟩ := exists_refuses hnot
  obtain ⟨u, reason, hu, hreason, hget⟩ := hrefuses.absorb
  have hbounds := (Snapshot.merge_eq_error_iff (ht.sound metric theirs hrefuses.added)).mp hreason
  have hmine : u.get? metric = some mine := by
    rw [hget, if_neg (String.lt_irrefl metric), hrefuses.held]
  -- A metric in front that was taken over the first time may be refused the second time.
  obtain ⟨metric', mine', theirs', hagain, hle⟩ := hrefuses.again hmine
  obtain ⟨u', reason', hu', -, hget'⟩ := hagain.absorb
  rw [hu] at hrefused ⊢
  obtain rfl : ContractViolation.incompatibleSnapshots metric reason = e :=
    Except.error.inj hrefused
  refine ⟨metric, mine, theirs, reason, rfl, hrefuses.held, hrefuses.added, hbounds, ?_, hget, ?_,
    metric', hle, reason', ?_, ?_⟩
  · intro k hk a b ha hb
    have haccepts := (Snapshot.accepts_iff (ht.sound k b hb)).mp (hrefuses.first k hk a b ha hb)
    rwa [Ne, ← Histogram.max_eq_maxCount_iff] at haccepts
  · have hkept : u = s ↔ ∀ k, u.get? k = s.get? k := ⟨fun h _ => h ▸ rfl, ext_get?⟩
    rw [hkept]
    refine forall_congr' fun k => ?_
    rw [hget]
    split
    · rename_i hk
      rw [join_eq_self_iff fun b hb => ht.recorded_of_get? hb]
      exact ⟨fun h _ => h, fun h => h hk⟩
    · rename_i hk
      exact iff_of_true rfl fun h => absurd h hk
  · rw [hu']
  · intro k hk
    rw [hu', hget', if_pos hk, hget, if_pos (Std.lt_of_lt_of_le hk hle)]

/-- What two recorders hold, of whom the first was told of two metrics and has the widest shape, and
the second of a third one and has a shape of its own. -/
def twoShapes (latency highest : Nat) : StatisticsSet :=
  (([.request "ask", .sample "get" ⟨.success, latency⟩].foldl Recorder.enter
    (.empty widest)).current.absorb
      ([.request "put"].foldl Recorder.enter (.empty ⟨highest, 2⟩)).current).1

lemma twoShapes_made {latency highest : Nat} (hlatency : latency ≤ Nanos.maxCount)
    (hhighest : highest ≤ Nanos.maxCount) : (twoShapes latency highest).Made := by
  refine .absorbed (.recorded (Nat.le_refl _) ?_) (.recorded hhighest ?_)
  · intro x hx
    rcases List.mem_pair.mp hx with rfl | rfl
    · exact nofun
    · rintro metric sample ⟨⟩
      exact hlatency
  · intro x hx
    obtain rfl := List.mem_singleton.mp hx
    exact nofun

theorem twoShapes_absorb_refused :
    let s := twoShapes 5 1000
    let t := twoShapes 7 2000
    let e := ContractViolation.incompatibleSnapshots "put" "histogram bounds 1000/2 vs 2000/2"
    t.Made ∧ (s.absorb t).2 = .error e ∧ (s.absorb t).1 ≠ s ∧
      (s.absorb t).1.get? "ask" = join (s.get? "ask") (t.get? "ask") ∧
      (s.absorb t).1.get? "put" = s.get? "put" := by
  intro s t e
  have ht : t.Made := twoShapes_made (by decide) (by decide)
  have hrefused : (s.absorb t).2 = .error e := by decide +kernel
  obtain ⟨metric, mine, theirs, reason, he, -, -, -, -, hget, hkept, -⟩ :=
    absorb_refused ht hrefused
  obtain ⟨rfl, -⟩ := ContractViolation.incompatibleSnapshots.inj he
  have hask : ∃ b, t.get? "ask" = some b ∧ b.isEmpty = false := by decide +kernel
  obtain ⟨b, hb, hsome⟩ := hask
  refine ⟨ht, hrefused, fun h => ?_, ?_, ?_⟩
  · have hempty := (hkept.mp h "ask" (by decide) b hb).2
    rw [hsome] at hempty
    cases hempty
  · rw [hget, if_pos (by decide)]
  · rw [hget, if_neg (by decide)]

/-- The second metric is refused for its latency, though the third is the first one with other
bounds; and the first has been added, which another try does once more. -/
theorem twoShapes_misnamed_and_changed :
    let s := twoShapes 5 1000
    let t := twoShapes Nanos.maxCount 2000
    s.Made ∧ t.Made ∧
      (s.absorb t).2 =
        .error (.incompatibleSnapshots "get" "OtherAddendValueExceedsRange") ∧
      (s.get? "get").map Snapshot.shape = (t.get? "get").map Snapshot.shape ∧
      (s.get? "put").map Snapshot.shape ≠ (t.get? "put").map Snapshot.shape ∧
      (s.absorb t).1 ≠ s ∧
      (s.get? "ask").map Snapshot.requests = some 1 ∧
      ((s.absorb t).1.get? "ask").map Snapshot.requests = some 2 ∧
      (((s.absorb t).1.absorb t).1.get? "ask").map Snapshot.requests = some 3 := by
  intro s t
  refine ⟨twoShapes_made (by decide) (by decide), twoShapes_made (Nat.le_refl _) (by decide), ?_⟩
  decide +kernel

end StatisticsSet

end LoadEngine
