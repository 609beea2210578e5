import LoadEngine.Proofs.MergeLaws

/-! Recorders that start over. What a recorder is told after a reset counts as if it had been told
nothing before, except that the metrics are still there. What it held before the reset adds up with
what it holds after it to what it would hold without the reset, unless it is told of the longest
latency that a counter can hold. -/

namespace LoadEngine

open Recording (about about_append since since_snoc since_snoc_reset)

lemma Recording.since_append_reset (xs : List Recording) {ys : List Recording}
    (hys : .reset ∉ ys) : since (xs ++ [.reset] ++ ys) = ys := by
  induction ys using List.reverseRecOn with
  | nil => rw [List.append_nil, since_snoc_reset]
  | append_singleton ys y ih =>
    rw [List.mem_append, List.mem_singleton, not_or] at hys
    rw [← List.append_assoc, since_snoc (Ne.symm hys.2), ih hys.1]

namespace Recorder

variable {shape : Histogram.Shape} {xs ys : List Recording}

lemma shows_after_reset (shape : Histogram.Shape) (xs : List Recording) (hys : .reset ∉ ys) :
    (ys.foldl enter (xs.foldl enter (.empty shape)).reset).current.Shows shape (xs ++ ys) ys := by
  have hfold : ys.foldl enter (xs.foldl enter (.empty shape)).reset =
      (xs ++ [Recording.reset] ++ ys).foldl enter (.empty shape) := by
    rw [List.foldl_append, List.foldl_append]
    rfl
  have habout (metric : String) :
      about metric (xs ++ [Recording.reset] ++ ys) = about metric (xs ++ ys) := by
    have hreset : about metric [Recording.reset] = [] := rfl
    rw [about_append, about_append, about_append, hreset, List.append_nil]
  have hshows := StatisticsSet.shows_recorder shape (xs ++ [Recording.reset] ++ ys)
  rw [← hfold, Recording.since_append_reset xs hys] at hshows
  refine ⟨fun metric hnone => ?_, fun metric => ?_⟩
  · exact hshows.1 metric ((habout metric).trans hnone)
  · rw [hshows.2, shown, shown, habout]

/-- After a reset every metric that is told of is as in a fresh recorder and every other one is
empty. What was held before the reset can be added to what is held now if, of the metrics in both,
no response is told of after it with the longest latency that a counter can hold; and the sum is
what one recorder holds that was told everything. -/
theorem reset_splits (hshape : shape.highest ≤ Nanos.maxCount) (hxs : .reset ∉ xs)
    (hys : .reset ∉ ys) (hcount : ∀ x ∈ xs ++ ys, x.Countable) :
    let before := (xs.foldl enter (.empty shape)).current
    let after := (ys.foldl enter (xs.foldl enter (.empty shape)).reset).current
    let fresh := (ys.foldl enter (.empty shape)).current
    let whole := ((xs ++ ys).foldl enter (.empty shape)).current
    (∀ metric, about metric ys ≠ [] → after.get? metric = fresh.get? metric) ∧
    (∀ metric s, after.get? metric = some s → about metric ys = [] →
      s = .empty shape ∧ s.isEmpty = true) ∧
    ((∃ u, before.merge after = .ok u) ↔ Recording.Follows shape xs ys) ∧
    ∀ u, before.merge after = .ok u → u = whole ∧ u.agrees whole = true := by
  intro before after fresh whole
  have hall : .reset ∉ xs ++ ys := by
    rw [List.mem_append]
    exact not_or.mpr ⟨hxs, hys⟩
  -- Each of the four shows, for the metrics ever told of, what was told since the last reset.
  have hbefore : before.Shows shape xs xs := StatisticsSet.shows_recorded shape hxs
  have hafter : after.Shows shape (xs ++ ys) ys := shows_after_reset shape xs hys
  have hfresh : fresh.Shows shape ys ys := StatisticsSet.shows_recorded shape hys
  have hwhole : whole.Shows shape (xs ++ ys) (xs ++ ys) := StatisticsSet.shows_recorded shape hall
  refine ⟨fun metric hsome => ?_, fun metric s hs hnone => ?_, ?_, fun u hu => ?_⟩
  · have hboth : about metric (xs ++ ys) ≠ [] := by
      rw [about_append]
      exact List.append_ne_nil_of_right_ne_nil _ hsome
    rw [hafter.2, hfresh.2, shown, shown, if_neg hboth, if_neg hsome]
  · rw [hafter.2, shown, hnone] at hs
    split at hs
    · cases hs
    · cases hs
      exact ⟨rfl, rfl⟩
  · have hlater : ∀ x ∈ ys, x.Countable := fun x hx => hcount x (List.mem_append_right _ hx)
    rw [← hbefore.accepts_iff hshape hlater hafter]
    constructor
    · rintro ⟨u, hu⟩
      exact (StatisticsSet.merge_eq_ok_iff.mp hu).1
    · intro haccepts
      obtain ⟨u, hu, -⟩ := StatisticsSet.merge_of_accepts haccepts
      exact ⟨u, hu⟩
  · obtain ⟨-, hget⟩ := StatisticsSet.merge_eq_ok_iff.mp hu
    have hsame : u = whole := by
      refine StatisticsSet.ext_get? fun metric => ?_
      rw [hget, hbefore.2, hafter.2, hwhole.2,
        StatisticsSet.join_shown shape (hbefore.1 metric) (hafter.1 metric), shown, shown]
      simp only [about_append, List.append_eq_nil_iff, ← and_assoc, and_self]
    rw [hsame]
    exact ⟨rfl, StatisticsSet.agrees_self (.recorded hshape hcount)⟩

def toldFirst : List Recording :=
  [.request "get", .sample "get" ⟨.success, 7⟩, .request "put", .sample "put" ⟨.timeout, 9⟩]

def toldThen : List Recording :=
  [.request "get", .sample "get" ⟨.invalid, 5⟩, .request "post"]

theorem answers_reset_splits :
    let before := (toldFirst.foldl enter (.empty StatisticsSet.widest)).current
    let after :=
      (toldThen.foldl enter (toldFirst.foldl enter (.empty StatisticsSet.widest)).reset).current
    .reset ∉ toldFirst ∧ .reset ∉ toldThen ∧ (∀ x ∈ toldFirst ++ toldThen, x.Countable) ∧
      after.get? "get" = (toldThen.foldl enter (.empty StatisticsSet.widest)).current.get? "get" ∧
      after.get? "put" = some (.empty StatisticsSet.widest) ∧
      before.merge after =
        .ok ((toldFirst ++ toldThen).foldl enter (.empty StatisticsSet.widest)).current := by
  intro before after
  have hshape : StatisticsSet.widest.highest ≤ Nanos.maxCount := Nat.le_refl _
  have hfirst : .reset ∉ toldFirst := by decide
  have hthen : .reset ∉ toldThen := by decide
  have hcount : ∀ x ∈ toldFirst ++ toldThen, x.Countable := by
    rintro x hx metric sample rfl
    have hlatency : ∀ y ∈ [7, 9, 5], y ≤ Nanos.maxCount := by decide
    apply hlatency
    simp only [toldFirst, toldThen, List.cons_append, List.nil_append, List.mem_cons,
      Recording.sample.injEq, reduceCtorEq, false_or] at hx
    rcases hx with ⟨-, rfl⟩ | ⟨-, rfl⟩ | ⟨-, rfl⟩ | hx
    · simp
    · simp
    · simp
    · simp at hx
  obtain ⟨hsame, hempty, hexists, hsum⟩ := reset_splits hshape hfirst hthen hcount
  have hfollows : Recording.Follows StatisticsSet.widest toldFirst toldThen := by
    rintro metric - x hx ⟨metric', sample, rfl, -, htop⟩
    obtain ⟨-, rfl⟩ : metric' = "get" ∧ sample = ⟨.invalid, 5⟩ := by
      simpa [toldThen] using (List.mem_filter.mp hx).1
    revert htop
    decide
  obtain ⟨u, hu⟩ := hexists.mpr hfollows
  obtain ⟨s, hs⟩ : ∃ s, after.get? "put" = some s := Option.isSome_iff_exists.mp (by decide +kernel)
  refine ⟨hfirst, hthen, hcount, hsame "get" (by decide), ?_, ?_⟩
  · rw [hs, (hempty "put" s hs (by decide)).1]
  · rw [← (hsum u hu).1]
    exact hu

/-- A request before the reset cannot be added up with its answer after it, if that took the longest
time that a counter can hold. A recorder that is not reset holds both. -/
theorem longest_latency_after_reset :
    let told : List Recording := [.request "get"]
    let answer : List Recording := [.sample "get" ⟨.success, Nanos.maxCount⟩]
    let before := (told.foldl enter (.empty StatisticsSet.widest)).current
    let after :=
      (answer.foldl enter (told.foldl enter (.empty StatisticsSet.widest)).reset).current
    before.merge after =
        .error (.incompatibleSnapshots "get" "OtherAddendValueExceedsRange") ∧
      (((told ++ answer).foldl enter (.empty StatisticsSet.widest)).current.get? "get").map
        Snapshot.counts = some [1, 1, 1, 0, 0, 0, 0] := by
  decide +kernel

end Recorder

end LoadEngine
