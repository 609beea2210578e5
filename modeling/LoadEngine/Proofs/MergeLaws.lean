import LoadEngine.Proofs.SnapshotSums
import LoadEngine.Proofs.Validity

/-! The laws of adding sets of snapshots. Sums do not depend on how they are grouped; and as long as
no latency is the largest number that a counter can hold, which no slot bounds, they do not depend
on the order either and are what one recorder would have made of all recordings. -/

namespace LoadEngine

open Recording (about about_append)

namespace Histogram

variable {h g : Histogram}

structure Sound (h : Histogram) : Prop where
  shape : h.shape.highest ≤ Nanos.maxCount
  slots : ∀ slot n, h.counts.get? slot = some n → slot < h.shape.slots
  seen : h.highestSeen = 0 ∨ h.shape.slotOf h.highestSeen < h.shape.slots
  counter : h.highestSeen ≤ Nanos.maxCount

lemma Sound.empty {shape : Shape} (hshape : shape.highest ≤ Nanos.maxCount) :
    (Histogram.empty shape).Sound :=
  ⟨hshape, nofun, .inl rfl, Nat.zero_le _⟩

lemma slot_max {shape : Shape} {a b : Nat} (ha : a = 0 ∨ shape.slotOf a < shape.slots)
    (hb : b = 0 ∨ shape.slotOf b < shape.slots) :
    Nat.max a b = 0 ∨ shape.slotOf (Nat.max a b) < shape.slots := by
  rcases Nat.le_total a b with hle | hle
  · rwa [show Nat.max a b = b from Nat.max_eq_right hle]
  · rwa [show Nat.max a b = a from Nat.max_eq_left hle]

lemma Sound.record (hs : h.Sound) {v : Nat} (hv : v ≤ Nanos.maxCount) : (h.record v).Sound := by
  have hslot := h.shape.clamp_slot v
  have hclamp : h.shape.clamp v ≤ Nanos.maxCount :=
    Nat.le_of_lt_succ (Shape.clamp_lt (Nat.lt_succ_of_le hv))
  refine ⟨hs.shape, ?_, slot_max hs.seen (.inr hslot), Nat.max_le_of_le_of_le hs.counter hclamp⟩
  intro slot n hn
  rw [get?_record] at hn
  split at hn
  · rename_i heq
    rw [heq]
    exact hslot
  · exact hs.slots slot n hn

lemma Sound.add (hs : h.Sound) (hg : g.Sound) (hshape : h.shape = g.shape) : (h.add g).Sound := by
  have hseen := hg.seen
  rw [← hshape] at hseen
  refine ⟨hs.shape, ?_, slot_max hs.seen hseen, Nat.max_le_of_le_of_le hs.counter hg.counter⟩
  intro slot n hn
  rw [get?_add] at hn
  cases hget : g.counts.get? slot with
  | none =>
    rw [hget] at hn
    exact hs.slots slot n hn
  | some m =>
    have hslot := hg.slots slot m hget
    rwa [← hshape] at hslot

lemma Sound.canAdd_iff (hg : g.Sound) (hshape : h.shape = g.shape) :
    h.canAdd g = true ↔ g.highestSeen ≠ Nanos.maxCount := by
  constructor
  · intro hadd hmax
    have hpos : Nanos.maxCount ≠ 0 := by decide
    have hle := of_decide_eq_true hadd
    rw [Histogram.max, hmax, if_neg hpos, Shape.highestWith, if_pos rfl, Shape.top,
      Shape.highestOf] at hle
    omega
  · intro hne
    have hfits : g.Fits := hg.seen.imp_right fun hslot =>
      ⟨hslot, Nat.lt_of_le_of_ne hg.counter hne⟩
    exact hfits.canAdd hshape

lemma max_eq_maxCount_iff (g : Histogram) :
    g.max = Nanos.maxCount ↔ g.highestSeen = Nanos.maxCount := by
  have hpos : Nanos.maxCount ≠ 0 := by decide
  rw [Histogram.max]
  constructor
  · intro hmax
    by_contra hne
    split at hmax
    · exact hpos hmax.symm
    · rw [Shape.highestWith, if_neg hne, Shape.highestOf] at hmax
      omega
  · intro hseen
    rw [hseen, if_neg hpos, Shape.highestWith, if_pos rfl]

lemma add_assoc (h g f : Histogram) : (h.add g).add f = h.add (g.add f) := by
  refine ext_counts rfl (fun k => ?_) (Nat.add_assoc _ _ _) (Nat.max_assoc _ _ _)
    (least_assoc _ _ _).symm
  rw [get?_add, get?_add, get?_add, get?_add]
  cases g.counts.get? k with
  | none => cases f.counts.get? k <;> simp [plus]
  | some n => cases f.counts.get? k <;> simp [plus, Nat.add_assoc]

lemma add_comm (hshape : h.shape = g.shape) : h.add g = g.add h := by
  refine ext_counts hshape (fun k => ?_) (Nat.add_comm _ _) (Nat.max_comm _ _) (least_comm _ _)
  rw [get?_add, get?_add]
  cases h.counts.get? k <;> cases g.counts.get? k <;> simp [plus, Nat.add_comm]

lemma Sound.agrees_self (hs : h.Sound) : h.agrees h = true := by
  have hall : h.counts.toList.filter (fun e => e.1 < h.shape.slots) = h.counts.toList := by
    refine List.filter_eq_self.mpr fun e he => decide_eq_true ?_
    exact hs.slots e.1 e.2 ((OrderedMap.mem_iff_lookup h.counts.sorted).mp he)
  simp [agrees, hall]

end Histogram

def Recording.Countable (x : Recording) : Prop :=
  ∀ metric sample, x = .sample metric sample → sample.latency ≤ Nanos.maxCount

namespace Snapshot

variable {s t u : Snapshot}

lemma enter_sound (hs : s.histogram.Sound) {x : Recording} (hx : x.Countable) :
    (s.enter x).histogram.Sound := by
  cases x with
  | request metric => exact hs
  | reset => exact .empty hs.shape
  | sample metric sample =>
    have hlatency := hx metric sample rfl
    obtain ⟨outcome, latency⟩ := sample
    cases outcome with
    | success | invalid => exact hs.record hlatency
    | connectionError | timeout | internalError => exact hs

lemma foldl_enter_sound {l : List Recording} (hl : ∀ x ∈ l, x.Countable)
    (hs : s.histogram.Sound) : (l.foldl Snapshot.enter s).histogram.Sound := by
  induction l generalizing s with
  | nil => exact hs
  | cons x rest ih =>
    obtain ⟨hx, hrest⟩ := List.forall_mem_cons.mp hl
    exact ih hrest (enter_sound hs hx)

lemma accepts_iff (ht : t.histogram.Sound) :
    s.Accepts t ↔ s.shape = t.shape ∧ t.histogram.highestSeen ≠ Nanos.maxCount :=
  and_congr_right fun hshape => ht.canAdd_iff hshape

lemma add_assoc (s t u : Snapshot) : (s.add t).add u = s.add (t.add u) := by
  simp only [add, Histogram.add_assoc, Nat.add_assoc]

lemma add_comm (hshape : s.shape = t.shape) : s.add t = t.add s := by
  simp only [add, Histogram.add_comm hshape, Nat.add_comm]

lemma accepts_add_iff (ht : t.histogram.Sound) (hu : u.histogram.Sound) :
    s.Accepts t ∧ (s.add t).Accepts u ↔ t.Accepts u ∧ s.Accepts (t.add u) := by
  have hmax (hshape : t.shape = u.shape) : (t.add u).histogram.highestSeen ≠ Nanos.maxCount ↔
      t.histogram.highestSeen ≠ Nanos.maxCount ∧ u.histogram.highestSeen ≠ Nanos.maxCount := by
    have hle := ht.counter
    have hle' := hu.counter
    change max t.histogram.highestSeen u.histogram.highestSeen ≠ _ ↔ _
    omega
  have hsame : (s.add t).shape = s.shape := rfl
  have hsame' : (t.add u).shape = t.shape := rfl
  rw [accepts_iff ht, accepts_iff hu, accepts_iff hu, hsame]
  constructor
  · rintro ⟨⟨hst, hmt⟩, hsu, hmu⟩
    have htu := hst.symm.trans hsu
    refine ⟨⟨htu, hmu⟩, (accepts_iff (ht.add hu htu)).mpr ⟨hst, (hmax htu).mpr ⟨hmt, hmu⟩⟩⟩
  · rintro ⟨⟨htu, hmu⟩, hs⟩
    obtain ⟨hst, hm⟩ := (accepts_iff (ht.add hu htu)).mp hs
    exact ⟨⟨hst, ((hmax htu).mp hm).1⟩, hst.trans htu, hmu⟩

lemma agrees_self (hs : s.histogram.Sound) : s.agrees s = true := by
  simp [agrees, hs.agrees_self]

end Snapshot

namespace StatisticsSet

variable {shape : Histogram.Shape} {s t u v : StatisticsSet}

/-- What comes of recorders, and of adding such sets to each other, also in part. -/
inductive Made : StatisticsSet → Prop
  | recorded {shape : Histogram.Shape} {l : List Recording} :
    shape.highest ≤ Nanos.maxCount → (∀ x ∈ l, x.Countable) →
    Made (l.foldl Recorder.enter (.empty shape)).current
  | absorbed {s t : StatisticsSet} : Made s → Made t → Made (s.absorb t).1

def Sound (s : StatisticsSet) : Prop := ∀ metric a, s.get? metric = some a → a.histogram.Sound

lemma Sound.recorded (hshape : shape.highest ≤ Nanos.maxCount) {l : List Recording}
    (hl : ∀ x ∈ l, x.Countable) : (l.foldl Recorder.enter (.empty shape)).current.Sound := by
  intro metric a ha
  rw [Recorder.get?_foldl_since, shown] at ha
  split at ha
  · cases ha
  · cases ha
    refine Snapshot.foldl_enter_sound (fun x hx => hl x ?_) (.empty hshape)
    exact (List.rtakeWhile_suffix _ l).subset (List.mem_filter.mp hx).1

lemma join_holds {p : Snapshot → Prop} (hadd : ∀ b c, p b → p c → b.Accepts c → p (b.add c))
    {x y : Option Snapshot} {a : Snapshot} (hx : ∀ b, x = some b → p b)
    (hy : ∀ b, y = some b → p b) (hxy : ∀ b c, x = some b → y = some c → b.Accepts c)
    (ha : join x y = some a) : p a := by
  cases x with
  | none =>
    cases y with
    | none => cases ha
    | some c => exact hy a ha
  | some b =>
    cases y with
    | none => exact hx a ha
    | some c =>
      cases ha
      exact hadd b c (hx b rfl) (hy c rfl) (hxy b c rfl rfl)

lemma absorbList_holds {p : Snapshot → Prop} (hadd : ∀ b c, p b → p c → b.Accepts c → p (b.add c))
    {l : List (String × Snapshot)} (hs : ∀ metric a, s.get? metric = some a → p a)
    (hl : ∀ e ∈ l, p e.2) : ∀ metric a, (s.absorbList l).1.get? metric = some a → p a := by
  induction l generalizing s with
  | nil => exact hs
  | cons e rest ih =>
    obtain ⟨metric, b⟩ := e
    obtain ⟨hb, hrest⟩ := List.forall_mem_cons.mp hl
    rw [absorbList]
    cases hmetric : s.addMetric metric b with
    | error e => exact hs
    | ok s' =>
      obtain ⟨haccepts, hget⟩ := addMetric_ok hmetric
      refine ih (fun metric' a ha => ?_) hrest
      rw [hget] at ha
      split at ha
      · exact join_holds hadd (hs metric) (fun _ heq => Option.some.inj heq ▸ hb)
          (fun a b' hmine heq => Option.some.inj heq ▸ haccepts a hmine) ha
      · exact hs metric' a ha

lemma Made.sound (h : s.Made) : s.Sound := by
  induction h with
  | recorded hshape hl => exact .recorded hshape hl
  | @absorbed s t _ _ ihs iht =>
    refine absorbList_holds (fun b c hb hc haccepts => hb.add hc haccepts.1) ihs fun e he => ?_
    exact iht e.1 e.2 (mem_toList.mp he)

lemma Made.merge (hs : s.Made) (ht : t.Made) (h : s.merge t = .ok u) : u.Made := by
  have hmade := hs.absorbed ht
  unfold StatisticsSet.merge at h
  split at h
  · rename_i sum hsum
    cases h
    rwa [hsum] at hmade
  · cases h

lemma agrees_self (hs : s.Sound) : s.agrees s = true := by
  have hall : ∀ a ∈ s.byMetric.values, a.agrees a = true := by
    intro a ha
    obtain ⟨e, he, rfl⟩ := List.mem_map.mp ha
    exact Snapshot.agrees_self (hs e.1 e.2 (mem_toList.mp he))
  simp only [agrees, BEq.rfl, Bool.true_and, List.zip, List.zipWith_self, List.all_map]
  exact List.all_eq_true.mpr hall

lemma accepts_iff (ht : t.Sound) : s.Accepts t ↔
    ∀ metric a b, s.get? metric = some a → t.get? metric = some b →
      a.shape = b.shape ∧ b.histogram.max ≠ Nanos.maxCount := by
  refine forall_congr' fun metric => forall_congr' fun a => forall_congr' fun b =>
    forall_congr' fun _ => forall_congr' fun hb => ?_
  rw [Snapshot.accepts_iff (ht metric b hb), Ne, Ne, Histogram.max_eq_maxCount_iff]

lemma merge_comm (hu : s.merge t = .ok u) (hv : t.merge s = .ok v) : u = v := by
  obtain ⟨hst, hu⟩ := merge_eq_ok_iff.mp hu
  obtain ⟨-, hv⟩ := merge_eq_ok_iff.mp hv
  refine ext_get? fun metric => ?_
  rw [hu, hv]
  cases ha : s.get? metric with
  | none => cases t.get? metric <;> rfl
  | some a =>
    cases hb : t.get? metric with
    | none => rfl
    | some b => exact congrArg some (Snapshot.add_comm (hst metric a b ha hb).1)

def Addable (x y : Option Snapshot) : Prop := ∀ a b, x = some a → y = some b → a.Accepts b

lemma join_assoc (x y z : Option Snapshot) : join (join x y) z = join x (join y z) := by
  cases x <;> cases y <;> cases z <;> simp [join, Snapshot.add_assoc]

lemma addable_join_iff (x : Option Snapshot) {y z : Option Snapshot}
    (hy : ∀ b, y = some b → b.histogram.Sound) (hz : ∀ c, z = some c → c.histogram.Sound) :
    Addable x y ∧ Addable (join x y) z ↔ Addable y z ∧ Addable x (join y z) := by
  cases x with
  | none => cases y <;> cases z <;> simp [Addable, join]
  | some a =>
    cases y with
    | none => cases z <;> simp [Addable, join]
    | some b =>
      cases z with
      | none => simp [Addable, join]
      | some c => simpa [Addable, join] using Snapshot.accepts_add_iff (hy b rfl) (hz c rfl)

lemma exists_merge_iff {p : (String → Option Snapshot) → Prop} :
    (∃ sum, s.merge t = .ok sum ∧ p sum.get?) ↔
      s.Accepts t ∧ p fun metric => join (s.get? metric) (t.get? metric) := by
  constructor
  · rintro ⟨sum, hsum, hp⟩
    obtain ⟨haccepts, hget⟩ := merge_eq_ok_iff.mp hsum
    exact ⟨haccepts, (funext hget : sum.get? = _) ▸ hp⟩
  · rintro ⟨haccepts, hp⟩
    obtain ⟨sum, hsum, hget⟩ := merge_of_accepts haccepts
    exact ⟨sum, hsum, (funext hget : sum.get? = _) ▸ hp⟩

lemma merge_merge_left : (s.merge t >>= fun sum => sum.merge u) = .ok v ↔ s.Accepts t ∧
    (∀ metric, Addable (join (s.get? metric) (t.get? metric)) (u.get? metric)) ∧
    ∀ metric, v.get? metric = join (join (s.get? metric) (t.get? metric)) (u.get? metric) := by
  rw [bind_eq_ok]
  simp only [merge_eq_ok_iff (t := u)]
  exact exists_merge_iff (p := fun sum => (∀ metric, Addable (sum metric) (u.get? metric)) ∧
    ∀ metric, v.get? metric = join (sum metric) (u.get? metric))

lemma merge_merge_right : (t.merge u >>= fun sum => s.merge sum) = .ok v ↔ t.Accepts u ∧
    (∀ metric, Addable (s.get? metric) (join (t.get? metric) (u.get? metric))) ∧
    ∀ metric, v.get? metric = join (s.get? metric) (join (t.get? metric) (u.get? metric)) := by
  rw [bind_eq_ok]
  simp only [merge_eq_ok_iff (s := s)]
  exact exists_merge_iff (p := fun sum => (∀ metric, Addable (s.get? metric) (sum metric)) ∧
    ∀ metric, v.get? metric = join (s.get? metric) (sum metric))

lemma merge_assoc (s : StatisticsSet) (ht : t.Sound) (hu : u.Sound) :
    (s.merge t >>= fun sum => sum.merge u) = .ok v ↔
      (t.merge u >>= fun sum => s.merge sum) = .ok v := by
  have haddable := forall_congr' fun metric =>
    addable_join_iff (s.get? metric) (ht metric) (hu metric)
  rw [forall_and, forall_and] at haddable
  rw [merge_merge_left, merge_merge_right, ← and_assoc, ← and_assoc]
  simp only [join_assoc]
  exact and_congr_left fun _ => haddable

end StatisticsSet

/-- A response after a time that is kept as the largest number a counter can hold. -/
def Recording.Topmost (shape : Histogram.Shape) (x : Recording) : Prop :=
  ∃ metric sample, x = .sample metric sample ∧ sample.outcome.hasResponse = true ∧
    shape.clamp sample.latency = Nanos.maxCount

/-- Some recordings can be added behind others: where both are of a metric, those behind have no
time that is too long for it. -/
def Recording.Follows (shape : Histogram.Shape) (before behind : List Recording) : Prop :=
  ∀ metric, about metric before ≠ [] → ∀ x ∈ about metric behind, ¬x.Topmost shape

namespace Snapshot

variable {shape : Histogram.Shape} {s : Snapshot} {l : List Recording}

lemma highestSeen_enter_iff (hs : s.histogram.Sound) {x : Recording} (hreset : x ≠ .reset)
    (hx : x.Countable) : (s.enter x).histogram.highestSeen = Nanos.maxCount ↔
      s.histogram.highestSeen = Nanos.maxCount ∨ x.Topmost s.shape := by
  cases x with
  | reset => exact absurd rfl hreset
  | request metric => simp [enter, recordRequest, Recording.Topmost]
  | sample metric sample =>
    obtain ⟨outcome, latency⟩ := sample
    have htopmost : (Recording.sample metric ⟨outcome, latency⟩).Topmost s.shape ↔
        outcome.hasResponse = true ∧ s.shape.clamp latency = Nanos.maxCount := by
      simp [Recording.Topmost]
    have hclamp : s.shape.clamp latency ≤ Nanos.maxCount := Nat.le_of_lt_succ
      (Histogram.Shape.clamp_lt (Nat.lt_succ_of_le (hx metric _ rfl)))
    have hold := hs.counter
    rw [htopmost]
    cases outcome with
    | success | invalid =>
      change max s.histogram.highestSeen (s.shape.clamp latency) = _ ↔ _
      simp only [Outcome.hasResponse, true_and]
      omega
    | connectionError | timeout | internalError =>
      exact (or_iff_left fun h => Bool.false_ne_true h.1).symm

lemma highestSeen_foldl_iff (hshape : shape.highest ≤ Nanos.maxCount) (hreset : .reset ∉ l)
    (hl : ∀ x ∈ l, x.Countable) :
    (l.foldl Snapshot.enter (.empty shape)).histogram.highestSeen = Nanos.maxCount ↔
      ∃ x ∈ l, x.Topmost shape := by
  induction l using List.reverseRecOn with
  | nil => simp [empty, Histogram.empty, Nanos.maxCount]
  | append_singleton l x ih =>
    rw [List.mem_append, List.mem_singleton, not_or] at hreset
    have hbefore : ∀ y ∈ l, y.Countable := fun y hy => hl y (List.mem_append_left _ hy)
    have hsound : (l.foldl Snapshot.enter (.empty shape)).histogram.Sound :=
      foldl_enter_sound hbefore (.empty hshape)
    have hlast := highestSeen_enter_iff hsound (Ne.symm hreset.2) (hl x (by simp))
    rw [foldl_enter_shape] at hlast
    rw [List.foldl_append, List.foldl_cons, List.foldl_nil, hlast, ih hreset.1 hbefore]
    simp only [List.mem_append, List.mem_singleton, or_and_right, exists_or, exists_eq_left]
    rfl

end Snapshot

lemma StatisticsSet.Shows.accepts_iff {shape : Histogram.Shape} {s t : StatisticsSet}
    {before l all behind : List Recording} (hshape : shape.highest ≤ Nanos.maxCount)
    (hbehind : ∀ x ∈ behind, x.Countable) (hs : s.Shows shape before l)
    (ht : t.Shows shape all behind) :
    s.Accepts t ↔ Recording.Follows shape before behind := by
  refine forall_congr' fun metric => ?_
  have hcount : ∀ x ∈ about metric behind, x.Countable :=
    fun x hx => hbehind x (List.mem_filter.mp hx).1
  have hsound := Snapshot.foldl_enter_sound hcount (s := .empty shape) (.empty hshape)
  rw [hs.2, ht.2, shown, shown]
  split
  · rename_i hnone
    simp [hnone]
  · rename_i hsome
    split
    · rename_i hnone
      simp [ht.1 metric hnone]
    · have hpair : ((about metric l).foldl Snapshot.enter (.empty shape)).Accepts
          ((about metric behind).foldl Snapshot.enter (.empty shape)) ↔
            ∀ x ∈ about metric behind, ¬x.Topmost shape := by
        rw [Snapshot.accepts_iff hsound, Snapshot.foldl_enter_shape, Snapshot.foldl_enter_shape,
          Ne, Snapshot.highestSeen_foldl_iff hshape
            (Recording.reset_notMem_about metric behind) hcount]
        simp
      constructor
      · exact fun h _ => hpair.mp (h _ _ rfl rfl)
      · rintro h _ _ ⟨rfl⟩ ⟨rfl⟩
        exact hpair.mpr (h hsome)

lemma Recording.follows_flatten {shape : Histogram.Shape} (before behind : List (List Recording)) :
    Follows shape before.flatten behind.flatten ↔
      ∀ a ∈ before, ∀ b ∈ behind, Follows shape a b := by
  have hmem (metric : String) (l : List (List Recording)) (x : Recording) :
      x ∈ about metric l.flatten ↔ ∃ a ∈ l, x ∈ about metric a := by
    simp [about]
  have hnil (metric : String) (l : List (List Recording)) :
      about metric l.flatten ≠ [] ↔ ∃ a ∈ l, about metric a ≠ [] := by
    constructor
    · intro h
      obtain ⟨x, hx⟩ := List.exists_mem_of_ne_nil _ h
      obtain ⟨a, ha, hx⟩ := (hmem metric l x).mp hx
      exact ⟨a, ha, List.ne_nil_of_mem hx⟩
    · rintro ⟨a, ha, h⟩
      obtain ⟨x, hx⟩ := List.exists_mem_of_ne_nil _ h
      exact List.ne_nil_of_mem ((hmem metric l x).mpr ⟨a, ha, hx⟩)
  constructor
  · intro h a ha b hb metric hsome x hx
    exact h metric ((hnil metric before).mpr ⟨a, ha, hsome⟩) x
      ((hmem metric behind x).mpr ⟨b, hb, hx⟩)
  · intro h metric hsome x hx
    obtain ⟨a, ha, hsome⟩ := (hnil metric before).mp hsome
    obtain ⟨b, hb, hx⟩ := (hmem metric behind x).mp hx
    exact h a ha b hb metric hsome x hx

/-- A way to add up what recorders were told of: in which order, and what is added together
first. -/
inductive Grouping where
  | nothing
  | recorder (told : List Recording)
  | sum (first second : Grouping)

namespace Grouping

def merged (shape : Histogram.Shape) : Grouping → Except ContractViolation StatisticsSet
  | nothing => .ok ∅
  | recorder told => .ok (told.foldl Recorder.enter (.empty shape)).current
  | sum first second => do
    let s ← first.merged shape
    let t ← second.merged shape
    s.merge t

def recorders : Grouping → List (List Recording)
  | nothing => []
  | recorder told => [told]
  | sum first second => first.recorders ++ second.recorders

def told (g : Grouping) : List Recording := g.recorders.flatten

lemma told_sum (g h : Grouping) : (sum g h).told = g.told ++ h.told := List.flatten_append

variable {shape : Histogram.Shape} {g : Grouping} {u : StatisticsSet}

lemma merged_shows (hreset : .reset ∉ g.told) (hu : g.merged shape = .ok u) :
    u.Shows shape g.told g.told := by
  induction g generalizing u with
  | nothing =>
    cases hu
    exact StatisticsSet.shows_empty shape
  | recorder told =>
    cases hu
    have hsame : (recorder told).told = told := List.flatten_singleton
    rw [hsame] at hreset ⊢
    exact StatisticsSet.shows_recorded shape hreset
  | sum g h ihg ihh =>
    rw [told_sum, List.mem_append, not_or] at hreset
    obtain ⟨s, hs, hu⟩ := bind_eq_ok.mp hu
    obtain ⟨t, ht, hu⟩ := bind_eq_ok.mp hu
    obtain ⟨-, hget⟩ := StatisticsSet.merge_eq_ok_iff.mp hu
    have hs := ihg hreset.1 hs
    have ht := ihh hreset.2 ht
    rw [told_sum]
    refine ⟨fun _ hnone => hnone, fun metric => ?_⟩
    rw [hget, hs.2, ht.2, StatisticsSet.join_shown shape (hs.1 metric) (ht.1 metric)]

lemma exists_merged_iff (hshape : shape.highest ≤ Nanos.maxCount) (hreset : .reset ∉ g.told)
    (hcount : ∀ x ∈ g.told, x.Countable) :
    (∃ u, g.merged shape = .ok u) ↔ g.recorders.Pairwise (Recording.Follows shape) := by
  induction g with
  | nothing => exact iff_of_true ⟨∅, rfl⟩ .nil
  | recorder told => exact iff_of_true ⟨_, rfl⟩ (List.pairwise_singleton _ _)
  | sum g h ihg ihh =>
    rw [told_sum] at hreset hcount
    rw [List.mem_append, not_or] at hreset
    rw [List.forall_mem_append] at hcount
    rw [recorders, List.pairwise_append, ← ihg hreset.1 hcount.1, ← ihh hreset.2 hcount.2,
      ← Recording.follows_flatten]
    constructor
    · rintro ⟨u, hu⟩
      obtain ⟨s, hs, hu⟩ := bind_eq_ok.mp hu
      obtain ⟨t, ht, hu⟩ := bind_eq_ok.mp hu
      refine ⟨⟨s, hs⟩, ⟨t, ht⟩, ?_⟩
      exact ((merged_shows hreset.1 hs).accepts_iff hshape hcount.2 (merged_shows hreset.2 ht)).mp
        (StatisticsSet.merge_eq_ok_iff.mp hu).1
    · rintro ⟨⟨s, hs⟩, ⟨t, ht⟩, hfollows⟩
      have haccepts := ((merged_shows hreset.1 hs).accepts_iff hshape hcount.2
        (merged_shows hreset.2 ht)).mpr hfollows
      obtain ⟨u, hu, -⟩ := StatisticsSet.merge_of_accepts haccepts
      exact ⟨u, bind_eq_ok.mpr ⟨s, hs, bind_eq_ok.mpr ⟨t, ht, hu⟩⟩⟩

lemma merged_eq_recorder {l : List Recording} (hreset : .reset ∉ g.told) (hl : l.Perm g.told)
    (hu : g.merged shape = .ok u) : u = (l.foldl Recorder.enter (.empty shape)).current := by
  have hall : .reset ∉ l := fun hmem => hreset (hl.subset hmem)
  refine StatisticsSet.ext_get? fun metric => ?_
  rw [(merged_shows hreset hu).2, Recorder.get?_foldl_enter shape hall]
  exact (tallied_congr shape (hl.filter _)).symm

end Grouping

namespace StatisticsSet

/-- Adding up sets of snapshots. A sum exists if what both sets have of a metric is of one shape and
the second reports no latency that is the largest number a counter can hold. Both orders give the
same, if they give anything, and every grouping does; and what is shared out among recorders adds up
to what one of them would hold. -/
theorem merge_laws {a b c : StatisticsSet} (ha : a.Made) (hb : b.Made) (hc : c.Made) :
    ((∃ u, a.merge b = .ok u) ↔ ∀ metric x y, a.get? metric = some x → b.get? metric = some y →
      x.shape = y.shape ∧ y.histogram.max ≠ Nanos.maxCount) ∧
    (∀ u v, a.merge b = .ok u → b.merge a = .ok v → u = v ∧ u.agrees v = true) ∧
    (∀ u, (a.merge b >>= fun sum => sum.merge c) = .ok u ↔
      (b.merge c >>= fun sum => a.merge sum) = .ok u) ∧
    ∀ (shape : Histogram.Shape) (g : Grouping), shape.highest ≤ Nanos.maxCount →
      .reset ∉ g.told → (∀ x ∈ g.told, x.Countable) →
      ((∃ u, g.merged shape = .ok u) ↔ g.recorders.Pairwise (Recording.Follows shape)) ∧
      ∀ (l : List Recording) u, l.Perm g.told → g.merged shape = .ok u →
        u = (l.foldl Recorder.enter (.empty shape)).current ∧
          u.agrees (l.foldl Recorder.enter (.empty shape)).current = true := by
  refine ⟨?_, ?_, fun u => merge_assoc a hb.sound hc.sound, ?_⟩
  · rw [← accepts_iff hb.sound]
    constructor
    · rintro ⟨u, hu⟩
      exact (merge_eq_ok_iff.mp hu).1
    · intro h
      obtain ⟨u, hu, -⟩ := merge_of_accepts h
      exact ⟨u, hu⟩
  · intro u v hu hv
    obtain rfl := merge_comm hu hv
    exact ⟨rfl, agrees_self (ha.merge hb hu).sound⟩
  · intro shape g hshape hreset hcount
    refine ⟨Grouping.exists_merged_iff hshape hreset hcount, fun l u hl hu => ?_⟩
    obtain rfl := Grouping.merged_eq_recorder hreset hl hu
    exact ⟨rfl, agrees_self (.recorded hshape fun x hx => hcount x (hl.subset hx))⟩

def widest : Histogram.Shape := ⟨Nanos.maxCount, 1⟩

def answeredAfter (latency : Nat) : StatisticsSet :=
  ([.request "get", .sample "get" ⟨.success, latency⟩].foldl Recorder.enter (.empty widest)).current

lemma answeredAfter_made {latency : Nat} (h : latency ≤ Nanos.maxCount) :
    (answeredAfter latency).Made := by
  refine .recorded (Nat.le_refl _) fun x hx => ?_
  rcases List.mem_pair.mp hx with rfl | rfl
  · exact nofun
  · rintro metric sample ⟨⟩
    exact h

def sharedOut : Grouping :=
  .sum (.recorder [.request "get", .sample "get" ⟨.success, 7⟩])
    (.sum .nothing (.recorder [.sample "put" ⟨.timeout, 9⟩, .request "get"]))

def inOrder : List Recording :=
  [.request "get", .request "get", .sample "put" ⟨.timeout, 9⟩, .sample "get" ⟨.success, 7⟩]

theorem answers_merge_laws :
    (answeredAfter 5).Made ∧ (answeredAfter 7).Made ∧
      (answeredAfter 7).merge (answeredAfter 5) = (answeredAfter 5).merge (answeredAfter 7) ∧
      .reset ∉ sharedOut.told ∧ (∀ x ∈ sharedOut.told, x.Countable) ∧
      inOrder.Perm sharedOut.told ∧
      sharedOut.merged widest = .ok (inOrder.foldl Recorder.enter (.empty widest)).current := by
  have hfive : (answeredAfter 5).Made := answeredAfter_made (by decide)
  have hseven : (answeredAfter 7).Made := answeredAfter_made (by decide)
  have hreset : .reset ∉ sharedOut.told := by decide
  have hcount : ∀ x ∈ sharedOut.told, x.Countable := by
    rintro x hx metric sample rfl
    have htimes : metric = "get" ∧ sample = ⟨.success, 7⟩ ∨
        metric = "put" ∧ sample = ⟨.timeout, 9⟩ := by
      simpa [sharedOut, Grouping.told, Grouping.recorders] using hx
    rcases htimes with ⟨-, rfl⟩ | ⟨-, rfl⟩
    · decide
    · decide
  have hperm : inOrder.Perm sharedOut.told := by decide
  obtain ⟨-, hcomm, -, hshared⟩ := merge_laws hfive hseven hseven
  obtain ⟨hexists, hsame⟩ := hshared widest sharedOut (Nat.le_refl _) hreset hcount
  have hsum : (answeredAfter 5).merge (answeredAfter 7) =
      .ok ((answeredAfter 5).absorb (answeredAfter 7)).1 := by decide +kernel
  have hsum' : (answeredAfter 7).merge (answeredAfter 5) =
      .ok ((answeredAfter 7).absorb (answeredAfter 5)).1 := by decide +kernel
  have hpairwise : sharedOut.recorders.Pairwise (Recording.Follows widest) := by
    refine List.pairwise_pair.mpr ?_
    rintro metric - x hx ⟨metric', sample, rfl, hresponse, -⟩
    obtain ⟨-, rfl⟩ : metric' = "put" ∧ sample = ⟨.timeout, 9⟩ := by
      simpa using (List.mem_filter.mp hx).1
    cases hresponse
  obtain ⟨u, hu⟩ := hexists.mpr hpairwise
  rw [hsum, hsum', (hcomm _ _ hsum hsum').1]
  refine ⟨hfive, hseven, rfl, hreset, hcount, hperm, ?_⟩
  rw [hu, (hsame inOrder u hperm hu).1]

/-- The longest latency can be added to, but it cannot be added, though the bounds are the same. -/
theorem longest_latency_merges_one_way :
    (answeredAfter Nanos.maxCount).Made ∧ (answeredAfter (Nanos.maxCount - 1)).Made ∧
      ((answeredAfter Nanos.maxCount).get? "get").map Snapshot.shape = some widest ∧
      ((answeredAfter (Nanos.maxCount - 1)).get? "get").map Snapshot.shape = some widest ∧
      (answeredAfter (Nanos.maxCount - 1)).merge (answeredAfter Nanos.maxCount) =
        .error (.incompatibleSnapshots "get" "OtherAddendValueExceedsRange") ∧
      ∃ u, (answeredAfter Nanos.maxCount).merge (answeredAfter (Nanos.maxCount - 1)) = .ok u := by
  refine ⟨answeredAfter_made (Nat.le_refl _), answeredAfter_made (Nat.sub_le _ _), ?_, ?_, ?_, ?_⟩
  · decide +kernel
  · decide +kernel
  · decide +kernel
  · exact ⟨((answeredAfter Nanos.maxCount).absorb (answeredAfter (Nanos.maxCount - 1))).1,
      by decide +kernel⟩

end StatisticsSet

end LoadEngine
