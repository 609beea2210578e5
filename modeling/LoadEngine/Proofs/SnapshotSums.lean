import LoadEngine.Controller.Basic
import LoadEngine.Proofs.HistogramSlots
import LoadEngine.Proofs.Recordings

/-! Sums of snapshots. Snapshots that were recorded apart add up to the one that would have come of
all recordings together, and it does not matter in which order these were made. Snapshots of one
shape can always be added, unless a latency was recorded that is too large for any slot. -/

namespace LoadEngine

open Recording (about about_append about_since_eq_nil since since_of_notMem)

namespace Histogram

variable {h g : Histogram}

lemma get?_addCount (counts : OrderedMap Nat Nat) (slot n k : Nat) :
    (addCount counts slot n).get? k =
      if k = slot then some ((counts.get? slot).getD 0 + n) else counts.get? k :=
  OrderedMap.get?_update _ _ _ _

def plus : Option Nat → Option Nat → Option Nat
  | a, none => a
  | a, some n => some (a.getD 0 + n)

lemma get?_foldl_addCount {l : List (Nat × Nat)} (hl : l.Pairwise fun x y => x.1 < y.1)
    (counts : OrderedMap Nat Nat) (k : Nat) :
    (l.foldl (fun counts e => addCount counts e.1 e.2) counts).get? k =
      plus (counts.get? k) (l.lookup k) := by
  induction l generalizing counts with
  | nil => rfl
  | cons e rest ih =>
    obtain ⟨slot, n⟩ := e
    rw [List.pairwise_cons] at hl
    rw [List.foldl_cons, ih hl.2, get?_addCount, OrderedMap.lookup_cons_ite]
    split
    · rename_i heq
      have hnone : rest.lookup k = none :=
        OrderedMap.lookup_eq_none fun x hx => Nat.ne_of_gt (heq ▸ hl.1 x hx)
      rw [hnone, heq]
      rfl
    · rfl

lemma get?_add (h g : Histogram) (k : Nat) :
    (h.add g).counts.get? k = plus (h.counts.get? k) (g.counts.get? k) :=
  get?_foldl_addCount g.counts.sorted _ k

lemma get?_record (h : Histogram) (v k : Nat) : (h.record v).counts.get? k =
    if k = h.shape.slotOf (h.shape.clamp v) then some ((h.counts.get? k).getD 0 + 1)
    else h.counts.get? k := by
  rw [record, get?_addCount]
  split
  · rename_i heq
    rw [heq]
  · rfl

lemma ext_counts (hshape : h.shape = g.shape) (hcounts : ∀ k, h.counts.get? k = g.counts.get? k)
    (htotal : h.total = g.total) (hhigh : h.highestSeen = g.highestSeen)
    (hlow : h.lowestSeen = g.lowestSeen) : h = g := by
  obtain ⟨shape, counts, total, high, low⟩ := h
  obtain ⟨shape', counts', total', high', low'⟩ := g
  obtain rfl : counts = counts' := OrderedMap.ext_get? hcounts
  simp only [mk.injEq, true_and]
  exact ⟨hshape, htotal, hhigh, hlow⟩

lemma least_assoc (a b c : Option Nat) : least a (least b c) = least (least a b) c := by
  cases a <;> cases b <;> cases c <;> simp [least, Nat.min_assoc]

lemma least_comm (a b : Option Nat) : least a b = least b a := by
  cases a <;> cases b <;> simp [least, Nat.min_comm]

lemma add_empty (h : Histogram) (shape : Shape) : h.add (.empty shape) = h := by
  refine ext_counts rfl (fun _ => rfl) rfl (Nat.max_zero _) ?_
  change least h.lowestSeen none = h.lowestSeen
  cases h.lowestSeen <;> rfl

lemma add_record (hshape : h.shape = g.shape) (v : Nat) :
    h.add (g.record v) = (h.add g).record v := by
  have hsame : (h.add g).shape = g.shape := hshape
  refine ext_counts rfl (fun k => ?_) rfl ?_ ?_
  · rw [get?_add, get?_record, get?_record, get?_add, hsame]
    split
    · cases g.counts.get? k with
      | none => rfl
      | some n => exact congrArg some (Nat.add_assoc _ n 1).symm
    · rfl
  · change Nat.max _ (Nat.max _ _) = Nat.max (Nat.max _ _) _
    rw [hsame]
    exact (Nat.max_assoc _ _ _).symm
  · change least _ (least _ _) = least (least _ _) _
    rw [hsame, least_assoc]

lemma record_comm (h : Histogram) (v w : Nat) : (h.record v).record w = (h.record w).record v := by
  refine ext_counts rfl (fun k => ?_) rfl ?_ ?_
  · rw [get?_record, get?_record, get?_record, get?_record]
    change (if k = h.shape.slotOf (h.shape.clamp w) then _ else _) =
      if k = h.shape.slotOf (h.shape.clamp v) then _ else _
    split <;> split <;> rfl
  · exact Nat.max_right_comm _ _ _
  · change least (least _ _) _ = least (least _ _) _
    rw [← least_assoc, ← least_assoc, least_comm (nonZero _)]
    rfl

def Fits (h : Histogram) : Prop :=
  h.highestSeen = 0 ∨ h.shape.slotOf h.highestSeen < h.shape.slots ∧ h.highestSeen < Nanos.maxCount

lemma Fits.record (hf : h.Fits) {v : Nat} (hv : v < Nanos.maxCount) : (h.record v).Fits := by
  have hclamp : h.shape.slotOf (h.shape.clamp v) < h.shape.slots ∧
      h.shape.clamp v < Nanos.maxCount := ⟨h.shape.clamp_slot v, Shape.clamp_lt hv⟩
  change Nat.max _ _ = 0 ∨ h.shape.slotOf (Nat.max _ _) < h.shape.slots ∧ Nat.max _ _ < _
  rcases Nat.le_total h.highestSeen (h.shape.clamp v) with hle | hle
  · rw [show Nat.max h.highestSeen (h.shape.clamp v) = h.shape.clamp v from Nat.max_eq_right hle]
    exact .inr hclamp
  · rw [show Nat.max h.highestSeen (h.shape.clamp v) = h.highestSeen from Nat.max_eq_left hle]
    exact hf

lemma Fits.canAdd (hf : g.Fits) (hshape : h.shape = g.shape) : h.canAdd g = true := by
  refine decide_eq_true ?_
  rw [hshape, Histogram.max]
  split
  · exact Nat.zero_le _
  · rename_i hne
    obtain ⟨hslot, hlt⟩ := hf.resolve_left hne
    exact Shape.highestWith_le_top hslot hlt

end Histogram

namespace Snapshot

variable {s t u : Snapshot}

def add (s t : Snapshot) : Snapshot where
  histogram := s.histogram.add t.histogram
  requests := s.requests + t.requests
  responses := s.responses + t.responses
  successes := s.successes + t.successes
  invalid := s.invalid + t.invalid
  connectionErrors := s.connectionErrors + t.connectionErrors
  timeouts := s.timeouts + t.timeouts
  internalErrors := s.internalErrors + t.internalErrors

lemma merge_eq (hshape : s.shape = t.shape) : s.merge t =
    if s.histogram.canAdd t.histogram then .ok (s.add t)
    else .error "OtherAddendValueExceedsRange" := by
  rw [merge, if_neg (not_not_intro hshape)]
  cases s.histogram.canAdd t.histogram <;> rfl

def Accepts (s t : Snapshot) : Prop := s.shape = t.shape ∧ s.histogram.canAdd t.histogram = true

lemma merge_of_accepts (h : s.Accepts t) : s.merge t = .ok (s.add t) := by
  rw [merge_eq h.1, if_pos h.2]

lemma merge_of_not_accepts (h : ¬s.Accepts t) : ∃ reason, s.merge t = .error reason := by
  by_cases hshape : s.shape = t.shape
  · exact ⟨_, by rw [merge_eq hshape, if_neg fun hadd => h ⟨hshape, hadd⟩]⟩
  · exact ⟨_, by rw [merge, if_pos hshape]⟩

lemma add_empty (s : Snapshot) (shape : Histogram.Shape) : s.add (.empty shape) = s := by
  rw [add, show (empty shape).histogram = .empty shape from rfl, Histogram.add_empty]
  rfl

lemma add_enter {x : Recording} (hx : x ≠ .reset) (hshape : s.shape = t.shape) :
    s.add (t.enter x) = (s.add t).enter x := by
  cases x with
  | request metric => rfl
  | sample metric x =>
    obtain ⟨outcome, latency⟩ := x
    have hrecord := Histogram.add_record hshape latency
    cases outcome <;>
      simp only [enter, consume, recordLatency, Outcome.hasResponse, if_true, Bool.false_eq_true,
        if_false, count, add, hrecord, Nat.add_assoc]
  | reset => exact absurd rfl hx

lemma add_foldl {l : List Recording} (hl : .reset ∉ l) (s : Snapshot) :
    s.add (l.foldl Snapshot.enter (.empty s.shape)) = l.foldl Snapshot.enter s := by
  induction l using List.reverseRecOn with
  | nil => exact s.add_empty s.shape
  | append_singleton l x ih =>
    rw [List.mem_append, List.mem_singleton, not_or] at hl
    rw [List.foldl_append, List.foldl_append, List.foldl_cons, List.foldl_cons, List.foldl_nil,
      List.foldl_nil, add_enter (Ne.symm hl.2), ih hl.1]
    rw [foldl_enter_shape]
    rfl

lemma enter_comm {x y : Recording} (hx : x ≠ .reset) (hy : y ≠ .reset) (s : Snapshot) :
    (s.enter x).enter y = (s.enter y).enter x := by
  cases x with
  | reset => exact absurd rfl hx
  | request metric =>
    cases y with
    | reset => exact absurd rfl hy
    | request metric' => rfl
    | sample metric' b =>
      obtain ⟨outcome, latency⟩ := b
      cases outcome <;> rfl
  | sample metric a =>
    obtain ⟨outcome, latency⟩ := a
    cases y with
    | reset => exact absurd rfl hy
    | request metric' => cases outcome <;> rfl
    | sample metric' b =>
      obtain ⟨outcome', latency'⟩ := b
      have hrecord := s.histogram.record_comm latency latency'
      cases outcome <;> cases outcome' <;>
        simp only [enter, consume, recordLatency, Outcome.hasResponse, if_true, Bool.false_eq_true,
          if_false, count, hrecord]

end Snapshot

lemma Recording.reset_notMem_about (metric : String) (l : List Recording) :
    .reset ∉ about metric l := by
  intro h
  simpa [Recording.metric?] using (List.mem_filter.mp h).2

lemma tallied_congr (shape : Histogram.Shape) {a b : List Recording} {metric : String}
    (h : (about metric a).Perm (about metric b)) :
    tallied shape a metric = tallied shape b metric := by
  have hne : ∀ x ∈ about metric a, x ≠ .reset :=
    fun x hx he => Recording.reset_notMem_about metric a (he ▸ hx)
  unfold tallied shown
  rw [h.foldl_eq' fun x hx y hy s => Snapshot.enter_comm (hne x hx) (hne y hy) s]
  have hnil : about metric a = [] ↔ about metric b = [] :=
    ⟨fun ha => List.perm_nil.mp (ha ▸ h.symm), fun hb => List.perm_nil.mp (hb ▸ h)⟩
  simp only [hnil]

namespace StatisticsSet

variable {shape : Histogram.Shape} {s t u : StatisticsSet} {l : List (String × Snapshot)}

def Shaped (shape : Histogram.Shape) (s : StatisticsSet) : Prop :=
  ∀ metric a, s.get? metric = some a → a.shape = shape

def join : Option Snapshot → Option Snapshot → Option Snapshot
  | a, none => a
  | none, some b => some b
  | some a, some b => some (a.add b)

lemma get?_insert (s : StatisticsSet) (metric metric' : String) (a : Snapshot) :
    (StatisticsSet.mk (s.byMetric.insert metric a)).get? metric' =
      if metric' = metric then some a else s.get? metric' :=
  OrderedMap.get?_insert _ _ _ _

lemma addMetric_of_accepts {metric : String} {b : Snapshot}
    (h : ∀ a, s.get? metric = some a → a.Accepts b) :
    ∃ sum, s.addMetric metric b = .ok ⟨s.byMetric.insert metric sum⟩ ∧
      join (s.get? metric) (some b) = some sum := by
  unfold addMetric
  cases hget : s.get? metric with
  | none => exact ⟨b, rfl, rfl⟩
  | some a =>
    simp only [Snapshot.merge_of_accepts (h a hget)]
    exact ⟨a.add b, rfl, rfl⟩

lemma addMetric_of_not_accepts {metric : String} {a b : Snapshot} (ha : s.get? metric = some a)
    (h : ¬a.Accepts b) : ∃ e, s.addMetric metric b = .error e := by
  obtain ⟨reason, hreason⟩ := Snapshot.merge_of_not_accepts h
  simp only [addMetric, ha, hreason]
  exact ⟨_, rfl⟩

lemma addMetric_ok {metric : String} {b : Snapshot} (h : s.addMetric metric b = .ok u) :
    (∀ a, s.get? metric = some a → a.Accepts b) ∧
      ∀ metric', u.get? metric' =
        if metric' = metric then join (s.get? metric) (some b) else s.get? metric' := by
  by_cases hacc : ∀ a, s.get? metric = some a → a.Accepts b
  · obtain ⟨sum, hadd, hjoin⟩ := addMetric_of_accepts hacc
    rw [hadd] at h
    cases h
    refine ⟨hacc, fun metric' => ?_⟩
    rw [get?_insert, hjoin]
  · simp only [not_forall] at hacc
    obtain ⟨a, ha, hab⟩ := hacc
    obtain ⟨e, he⟩ := addMetric_of_not_accepts ha hab
    rw [he] at h
    cases h

lemma lookup_rest {metric : String} {b : Snapshot} {rest : List (String × Snapshot)}
    (hsorted : ((metric, b) :: rest).Pairwise fun x y => x.1 < y.1) :
    rest.lookup metric = none := by
  refine OrderedMap.lookup_eq_none fun x hx => ?_
  rintro rfl
  exact String.lt_irrefl _ ((List.pairwise_cons.mp hsorted).1 x hx)

lemma absorbList_of_accepts (hsorted : l.Pairwise fun x y => x.1 < y.1)
    (h : ∀ e ∈ l, ∀ a, s.get? e.1 = some a → a.Accepts e.2) :
    ∃ u, s.absorbList l = (u, .ok ()) ∧
      ∀ metric, u.get? metric = join (s.get? metric) (l.lookup metric) := by
  induction l generalizing s with
  | nil => exact ⟨s, rfl, fun _ => rfl⟩
  | cons x rest ih =>
    obtain ⟨metric, b⟩ := x
    obtain ⟨hb, hrest⟩ := List.forall_mem_cons.mp h
    obtain ⟨sum, hadd, hjoin⟩ := addMetric_of_accepts hb
    have hnone := lookup_rest hsorted
    rw [List.pairwise_cons] at hsorted
    have hlater : ∀ e ∈ rest, ∀ a,
        (StatisticsSet.mk (s.byMetric.insert metric sum)).get? e.1 = some a → a.Accepts e.2 := by
      intro e he a ha
      have hne : e.1 ≠ metric := by
        rintro rfl
        exact String.lt_irrefl _ (hsorted.1 e he)
      rw [get?_insert, if_neg hne] at ha
      exact hrest e he a ha
    obtain ⟨u, hu, hget⟩ := ih hsorted.2 hlater
    refine ⟨u, by simp only [absorbList, hadd, hu], fun metric' => ?_⟩
    rw [hget, get?_insert, OrderedMap.lookup_cons_ite]
    split
    · rename_i heq
      rw [heq, hnone, hjoin]
      rfl
    · rfl

lemma absorbList_of_not_accepts (hsorted : l.Pairwise fun x y => x.1 < y.1)
    {x : String × Snapshot} (hx : x ∈ l) {a : Snapshot} (ha : s.get? x.1 = some a)
    (h : ¬a.Accepts x.2) : ∃ u e, s.absorbList l = (u, .error e) := by
  induction l generalizing s with
  | nil => cases hx
  | cons y rest ih =>
    obtain ⟨metric, b⟩ := y
    rw [List.pairwise_cons] at hsorted
    cases hadd : s.addMetric metric b with
    | error e => exact ⟨s, e, by simp only [absorbList, hadd]⟩
    | ok s' =>
      rcases List.mem_cons.mp hx with rfl | hmem
      · obtain ⟨e, he⟩ := addMetric_of_not_accepts ha h
        rw [he] at hadd
        cases hadd
      · have hne : x.1 ≠ metric := by
          rintro rfl
          exact String.lt_irrefl _ (hsorted.1 x hmem)
        have hkept : s'.get? x.1 = some a := by
          rw [(addMetric_ok hadd).2, if_neg hne, ha]
        obtain ⟨u, e, hu⟩ := ih hsorted.2 hmem hkept
        exact ⟨u, e, by simp only [absorbList, hadd, hu]⟩

def Accepts (s t : StatisticsSet) : Prop :=
  ∀ metric a b, s.get? metric = some a → t.get? metric = some b → a.Accepts b

lemma mem_toList {e : String × Snapshot} : e ∈ t.toList ↔ t.get? e.1 = some e.2 :=
  OrderedMap.mem_iff_lookup t.byMetric.sorted

lemma merge_of_accepts (h : s.Accepts t) :
    ∃ u, s.merge t = .ok u ∧ ∀ metric, u.get? metric = join (s.get? metric) (t.get? metric) := by
  obtain ⟨u, hu, hget⟩ := absorbList_of_accepts (s := s) t.byMetric.sorted
    fun e he a ha => h e.1 a e.2 ha (mem_toList.mp he)
  refine ⟨u, ?_, hget⟩
  unfold merge absorb
  simp only [toList, hu]

lemma merge_of_not_accepts (h : ¬s.Accepts t) : ∃ e, s.merge t = .error e := by
  simp only [Accepts, not_forall] at h
  obtain ⟨metric, a, b, ha, hb, hab⟩ := h
  obtain ⟨u, e, hu⟩ := absorbList_of_not_accepts (x := (metric, b)) t.byMetric.sorted
    (mem_toList.mpr hb) ha hab
  refine ⟨e, ?_⟩
  unfold merge absorb
  simp only [toList, hu]

lemma ext_get? (h : ∀ metric, s.get? metric = t.get? metric) : s = t := by
  obtain ⟨byMetric⟩ := s
  obtain ⟨byMetric'⟩ := t
  exact congrArg StatisticsSet.mk (OrderedMap.ext_get? h)

theorem merge_eq_ok_iff : s.merge t = .ok u ↔
    s.Accepts t ∧ ∀ metric, u.get? metric = join (s.get? metric) (t.get? metric) := by
  by_cases h : s.Accepts t
  · obtain ⟨v, hv, hget⟩ := merge_of_accepts h
    rw [hv]
    constructor
    · intro heq
      cases heq
      exact ⟨h, hget⟩
    · rintro ⟨-, hu⟩
      exact congrArg Except.ok (ext_get? fun metric => (hget metric).trans (hu metric).symm)
  · obtain ⟨e, he⟩ := merge_of_not_accepts h
    rw [he]
    exact iff_of_false nofun fun hu => h hu.1

theorem merge_eq (hs : s.Shaped shape) (ht : t.Shaped shape) :
    (∃ u, s.merge t = .ok u ∧ ∀ metric, u.get? metric = join (s.get? metric) (t.get? metric)) ∨
    (∃ e, s.merge t = .error e ∧ ∃ metric b, t.get? metric = some b ∧ ¬b.histogram.Fits) := by
  by_cases h : s.Accepts t
  · exact .inl (merge_of_accepts h)
  · obtain ⟨e, he⟩ := merge_of_not_accepts h
    simp only [Accepts, not_forall] at h
    obtain ⟨metric, a, b, ha, hb, hab⟩ := h
    have hshape : a.shape = b.shape := (hs metric a ha).trans (ht metric b hb).symm
    exact .inr ⟨e, he, metric, b, hb, fun hfits => hab ⟨hshape, hfits.canAdd hshape⟩⟩

/-- What is known of all metrics comes from some recordings. -/
def Shows (shape : Histogram.Shape) (s : StatisticsSet) (all l : List Recording) : Prop :=
  (∀ metric, about metric all = [] → about metric l = []) ∧
    ∀ metric, s.get? metric = shown shape all l metric

variable {all all' l l' : List Recording}

lemma Shows.shaped (h : s.Shows shape all l) : s.Shaped shape := by
  intro metric a ha
  rw [h.2, shown] at ha
  split at ha
  · cases ha
  · cases ha
    exact Snapshot.foldl_enter_shape _ _

lemma join_shown (shape : Histogram.Shape) {metric : String}
    (hl : about metric all = [] → about metric l = [])
    (hl' : about metric all' = [] → about metric l' = []) :
    join (shown shape all l metric) (shown shape all' l' metric) =
      shown shape (all ++ all') (l ++ l') metric := by
  unfold shown
  rw [about_append, about_append, List.foldl_append]
  simp only [List.append_eq_nil_iff]
  by_cases ha : about metric all = []
  · by_cases hb : about metric all' = []
    · rw [if_pos ha, if_pos hb, if_pos ⟨ha, hb⟩]
      rfl
    · rw [if_pos ha, if_neg hb, if_neg fun h => hb h.2, hl ha]
      rfl
  · by_cases hb : about metric all' = []
    · rw [if_neg ha, if_pos hb, if_neg fun h => ha h.1, hl' hb]
      rfl
    · rw [if_neg ha, if_neg hb, if_neg fun h => ha h.1]
      have hadd := Snapshot.add_foldl (Recording.reset_notMem_about metric l')
        ((about metric l).foldl Snapshot.enter (.empty shape))
      rw [Snapshot.foldl_enter_shape] at hadd
      exact congrArg some hadd

lemma not_fits {l : List Recording} (h : ¬(l.foldl Snapshot.enter (.empty shape)).histogram.Fits) :
    ∃ metric x, .sample metric x ∈ l ∧ Nanos.maxCount ≤ x.latency := by
  by_contra hnone
  push Not at hnone
  refine h ?_
  induction l using List.reverseRecOn with
  | nil => exact .inl rfl
  | append_singleton l x ih =>
    rw [List.foldl_append, List.foldl_cons, List.foldl_nil]
    have hfits : (l.foldl Snapshot.enter (.empty shape)).histogram.Fits := by
      by_contra hf
      exact hf (ih hf fun metric x hx => hnone metric x (List.mem_append_left _ hx))
    generalize l.foldl Snapshot.enter (.empty shape) = s at hfits
    cases x with
    | request metric => exact hfits
    | reset => exact .inl rfl
    | sample metric x =>
      have hlatency := hnone metric x (List.mem_append_right _ List.mem_cons_self)
      obtain ⟨outcome, latency⟩ := x
      cases outcome with
      | success | invalid => exact hfits.record hlatency
      | _ => exact hfits

theorem Shows.merge (hs : s.Shows shape all l) (ht : t.Shows shape all' l') :
    (∃ u, s.merge t = .ok u ∧ u.Shows shape (all ++ all') (l ++ l')) ∨
    (∃ e, s.merge t = .error e ∧ ∃ metric x, .sample metric x ∈ l' ∧
      Nanos.maxCount ≤ x.latency) := by
  rcases merge_eq hs.shaped ht.shaped with ⟨u, hu, hget⟩ | ⟨e, he, metric, b, hb, hfits⟩
  · refine .inl ⟨u, hu, ?_, fun metric => ?_⟩
    · intro metric hnone
      rw [about_append, List.append_eq_nil_iff] at hnone ⊢
      exact ⟨hs.1 metric hnone.1, ht.1 metric hnone.2⟩
    · rw [hget, hs.2, ht.2, join_shown shape (hs.1 metric) (ht.1 metric)]
  · rw [ht.2, shown] at hb
    split at hb
    · cases hb
    · cases hb
      obtain ⟨metric', x, hx, hlatency⟩ := not_fits hfits
      exact .inr ⟨e, he, metric', x, (List.mem_filter.mp hx).1, hlatency⟩

lemma shows_empty (shape : Histogram.Shape) : (∅ : StatisticsSet).Shows shape [] [] :=
  ⟨fun _ _ => rfl, fun _ => rfl⟩

lemma shows_recorder (shape : Histogram.Shape) (l : List Recording) :
    (l.foldl Recorder.enter (.empty shape)).current.Shows shape l (since l) :=
  ⟨fun _ => about_since_eq_nil, Recorder.get?_foldl_since shape l⟩

lemma shows_recorded (shape : Histogram.Shape) {l : List Recording} (h : .reset ∉ l) :
    (l.foldl Recorder.enter (.empty shape)).current.Shows shape l l := by
  have hshows := shows_recorder shape l
  rwa [since_of_notMem h] at hshows

end StatisticsSet

namespace PhaseSnapshot

variable {shape : Histogram.Shape}

def mergeFrom (sum : PhaseSnapshot) (snapshots : List PhaseSnapshot) :
    Except ContractViolation PhaseSnapshot :=
  snapshots.foldlM (fun sum s => do
    pure ⟨← sum.statistics.merge s.statistics, sum.maxUsed + s.maxUsed⟩) sum

lemma mergeFrom_cons (sum s : PhaseSnapshot) (rest : List PhaseSnapshot) :
    sum.mergeFrom (s :: rest) = sum.statistics.merge s.statistics >>= fun statistics =>
      mergeFrom ⟨statistics, sum.maxUsed + s.maxUsed⟩ rest := by
  rw [mergeFrom, List.foldlM_cons]
  cases sum.statistics.merge s.statistics <;> rfl

variable {α : Type} {snapshots : List PhaseSnapshot} {told : List α}
  {all l : α → List Recording}

lemma mergeFrom_shows (sum : PhaseSnapshot) {a b : List Recording}
    (hsum : sum.statistics.Shows shape a b)
    (h : List.Forall₂ (fun s t => s.statistics.Shows shape (all t) (l t)) snapshots told) :
    (∃ sum', sum.mergeFrom snapshots = .ok sum' ∧
      sum'.statistics.Shows shape (a ++ told.flatMap all) (b ++ told.flatMap l)) ∨
    (∃ e, sum.mergeFrom snapshots = .error e ∧ ∃ metric x, .sample metric x ∈ told.flatMap l ∧
      Nanos.maxCount ≤ x.latency) := by
  induction h generalizing sum a b with
  | nil =>
    rw [List.flatMap_nil, List.flatMap_nil, List.append_nil, List.append_nil]
    exact .inl ⟨sum, rfl, hsum⟩
  | @cons s t snapshots told hs _ ih =>
    rw [mergeFrom_cons, List.flatMap_cons, List.flatMap_cons, ← List.append_assoc,
      ← List.append_assoc]
    rcases hsum.merge hs with ⟨u, hu, hshows⟩ | ⟨e, he, metric, x, hx, hlatency⟩
    · rw [hu]
      rcases @ih ⟨u, sum.maxUsed + s.maxUsed⟩ _ _ hshows with
        hsum' | ⟨e, he, metric, x, hx, hlatency⟩
      · exact .inl hsum'
      · exact .inr ⟨e, he, metric, x, List.mem_append_right _ hx, hlatency⟩
    · rw [he]
      exact .inr ⟨e, rfl, metric, x, List.mem_append_left _ hx, hlatency⟩

/-- The sum of all shards shows what they have recorded in all. -/
theorem merge_shows
    (h : List.Forall₂ (fun s t => s.statistics.Shows shape (all t) (l t)) snapshots told) :
    (∃ sum, merge snapshots = .ok sum ∧
      sum.statistics.Shows shape (told.flatMap all) (told.flatMap l)) ∨
    (∃ e, merge snapshots = .error e ∧ ∃ metric x, .sample metric x ∈ told.flatMap l ∧
      Nanos.maxCount ≤ x.latency) :=
  mergeFrom_shows .empty (StatisticsSet.shows_empty shape) h

end PhaseSnapshot

end LoadEngine
