import LoadEngine.Proofs.Ledger
import LoadEngine.Proofs.OrderedMap
import Mathlib.Data.List.DropRight

/-! What a recorder makes of all that it was told. What it holds of a metric comes from the
recordings of that metric, one after the other, and it holds nothing of a metric that it was never
told of. -/

namespace LoadEngine

namespace Recording

def metric? : Recording → Option String
  | request metric | sample metric _ => some metric
  | reset => none

def request? : Recording → Option String
  | request metric => some metric
  | _ => none

def sample? : Recording → Option (String × Sample)
  | sample metric x => some (metric, x)
  | _ => none

def about (metric : String) (l : List Recording) : List Recording :=
  l.filter fun x => x.metric? == some metric

lemma about_append (metric : String) (a b : List Recording) :
    about metric (a ++ b) = about metric a ++ about metric b :=
  List.filter_append _ _

def since (l : List Recording) : List Recording := l.rtakeWhile (· ≠ .reset)

lemma since_snoc_reset (l : List Recording) : since (l ++ [.reset]) = [] := by
  rw [since, List.rtakeWhile_concat, if_neg (by simp)]

lemma since_snoc {x : Recording} (h : x ≠ .reset) (l : List Recording) :
    since (l ++ [x]) = since l ++ [x] := by
  rw [since, List.rtakeWhile_concat, if_pos (by simpa using h), since]

lemma since_of_notMem {l : List Recording} (h : .reset ∉ l) : since l = l :=
  List.rtakeWhile_eq_self_iff.mpr fun _ hx => decide_eq_true fun he => h (he ▸ hx)

lemma about_since_eq_nil {metric : String} {l : List Recording} (h : about metric l = []) :
    about metric (since l) = [] :=
  List.filter_eq_nil_iff.mpr fun x hx =>
    List.filter_eq_nil_iff.mp h x ((List.rtakeWhile_suffix _ l).subset hx)

end Recording

open Recording (about about_append about_since_eq_nil since since_of_notMem since_snoc
  since_snoc_reset)

def Snapshot.enter (s : Snapshot) : Recording → Snapshot
  | .request _ => s.recordRequest
  | .sample _ sample => s.consume sample
  | .reset => s.reset

namespace Snapshot

lemma enter_shape (s : Snapshot) (x : Recording) : (s.enter x).shape = s.shape := by
  cases x with
  | sample metric x =>
    simp only [enter, consume, recordLatency]
    split <;> cases x.outcome <;> rfl
  | _ => rfl

lemma foldl_enter_shape (s : Snapshot) (l : List Recording) :
    (l.foldl Snapshot.enter s).shape = s.shape := by
  induction l generalizing s with
  | nil => rfl
  | cons x rest ih => rw [List.foldl_cons, ih, enter_shape]

end Snapshot

/-- What is known of a metric that is among the recordings `all`, where only those of `l` count. -/
def shown (shape : Histogram.Shape) (all l : List Recording) (metric : String) : Option Snapshot :=
  if about metric all = [] then none
  else some ((about metric l).foldl Snapshot.enter (.empty shape))

def tallied (shape : Histogram.Shape) (l : List Recording) (metric : String) : Option Snapshot :=
  shown shape l l metric

namespace Recorder

lemma get?_onMetric (r : Recorder) (metric metric' : String) (f : Snapshot → Snapshot) :
    (r.onMetric metric f).current.get? metric' =
      if metric' = metric then some (f ((r.current.get? metric).getD (.empty r.shape)))
      else r.current.get? metric' :=
  OrderedMap.get?_update _ _ _ _

lemma enter_shape (r : Recorder) (x : Recording) : (r.enter x).shape = r.shape := by
  cases x <;> rfl

lemma foldl_enter_shape (r : Recorder) (l : List Recording) :
    (l.foldl Recorder.enter r).shape = r.shape := by
  induction l generalizing r with
  | nil => rfl
  | cons x rest ih => rw [List.foldl_cons, ih, enter_shape]

lemma get?_enter {r : Recorder} {x : Recording} {metric : String} (h : x.metric? = some metric)
    (metric' : String) : (r.enter x).current.get? metric' =
      if metric' = metric then some (((r.current.get? metric).getD (.empty r.shape)).enter x)
      else r.current.get? metric' := by
  cases x with
  | request m =>
    cases h
    exact r.get?_onMetric metric metric' _
  | sample m sample =>
    cases h
    exact r.get?_onMetric metric metric' _
  | reset => cases h

lemma get?_enter_reset (r : Recorder) (metric : String) :
    (r.enter .reset).current.get? metric = (r.current.get? metric).map Snapshot.reset :=
  OrderedMap.get?_map _ _ _

/-- What a recorder holds comes from the recordings of each metric since the last reset. -/
theorem get?_foldl_since (shape : Histogram.Shape) (l : List Recording) (metric : String) :
    (l.foldl Recorder.enter (.empty shape)).current.get? metric =
      shown shape l (since l) metric := by
  -- On the last recording: a reset empties what is held, and any other joins what came before it.
  induction l using List.reverseRecOn with
  | nil => rfl
  | append_singleton l x ih =>
    have hshape : (l.foldl Recorder.enter (.empty shape)).shape = shape := foldl_enter_shape _ l
    rw [List.foldl_append, List.foldl_cons, List.foldl_nil]
    cases hx : x.metric? with
    | none =>
      obtain rfl : x = .reset := by
        cases x with
        | reset => rfl
        | _ => cases hx
      rw [get?_enter_reset, ih, shown, shown, about_append, since_snoc_reset,
        show about metric [.reset] = [] from rfl, List.append_nil]
      split
      · rfl
      · rw [Option.map_some, Snapshot.reset, Snapshot.foldl_enter_shape]
        rfl
    | some metric' =>
      have hne : x ≠ .reset := by
        rintro rfl
        cases hx
      rw [get?_enter hx, hshape, shown, about_append, since_snoc hne, about_append]
      by_cases heq : metric = metric'
      · subst heq
        have habout : about metric [x] = [x] := by simp [about, hx]
        rw [if_pos rfl, habout, if_neg (by simp), List.foldl_append, ih, shown]
        split
        · rename_i hnone
          rw [about_since_eq_nil hnone]
          rfl
        · rfl
      · have habout : about metric [x] = [] := by simp [about, hx, Ne.symm heq]
        rw [if_neg heq, habout, List.append_nil, List.append_nil, ih, shown]

theorem get?_foldl_enter (shape : Histogram.Shape) {l : List Recording} (h : .reset ∉ l)
    (metric : String) :
    (l.foldl Recorder.enter (.empty shape)).current.get? metric = tallied shape l metric := by
  rw [get?_foldl_since, since_of_notMem h, tallied]

end Recorder

namespace Snapshot

lemma consume_requests (s : Snapshot) (sample : Sample) :
    (s.consume sample).requests = s.requests := by
  unfold consume recordLatency
  split <;> cases sample.outcome <;> rfl

lemma consume_completed (s : Snapshot) (sample : Sample) :
    (s.consume sample).completed = s.completed + 1 := by
  unfold consume recordLatency completed failures
  split <;> cases sample.outcome <;> simp only [count] <;> omega

lemma foldl_enter_counts (s : Snapshot) {l : List Recording} (h : .reset ∉ l) :
    (l.foldl Snapshot.enter s).requests = s.requests + l.countP (fun x => x.request?.isSome) ∧
      (l.foldl Snapshot.enter s).completed = s.completed + l.countP fun x => x.sample?.isSome := by
  induction l generalizing s with
  | nil => exact ⟨rfl, rfl⟩
  | cons x rest ih =>
    rw [List.mem_cons, not_or] at h
    obtain ⟨hrequests, hcompleted⟩ := ih (s.enter x) h.2
    rw [List.foldl_cons, hrequests, hcompleted, List.countP_cons, List.countP_cons]
    cases x with
    | request metric =>
      simp only [enter, recordRequest, completed, failures, Recording.request?, Recording.sample?,
        Option.isSome_some, Option.isSome_none, if_true, Bool.false_eq_true, if_false]
      omega
    | sample metric sample =>
      simp only [enter, consume_requests, consume_completed, Recording.request?,
        Recording.sample?, Option.isSome_some, Option.isSome_none, if_true, Bool.false_eq_true,
        if_false]
      omega
    | reset => exact absurd rfl h.1

end Snapshot

lemma tallied_counts (shape : Histogram.Shape) {l : List Recording} (h : .reset ∉ l)
    (metric : String) :
    ((tallied shape l metric).getD (.empty shape)).requests =
        (l.filterMap Recording.request?).countP (· == metric) ∧
      ((tallied shape l metric).getD (.empty shape)).completed =
        (l.filterMap Recording.sample?).countP fun x => x.1 == metric := by
  have hfold : (tallied shape l metric).getD (.empty shape) =
      (about metric l).foldl Snapshot.enter (.empty shape) := by
    unfold tallied shown
    split
    · rename_i hnone
      rw [hnone]
      rfl
    · rfl
  have hreset : .reset ∉ about metric l := fun hmem => h (List.mem_filter.mp hmem).1
  obtain ⟨hrequests, hcompleted⟩ := Snapshot.foldl_enter_counts (.empty shape) hreset
  rw [hfold, hrequests, hcompleted, about, List.countP_filter, List.countP_filter,
    List.countP_filterMap, List.countP_filterMap]
  constructor
  · refine (Nat.zero_add _).trans (List.countP_congr fun x _ => ?_)
    cases x <;> simp [Recording.request?, Recording.metric?]
  · refine (Nat.zero_add _).trans (List.countP_congr fun x _ => ?_)
    cases x <;> simp [Recording.sample?, Recording.metric?]

end LoadEngine
