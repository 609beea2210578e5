import LoadEngine.Proofs.Dismissal
import LoadEngine.Proofs.FleetBooks
import LoadEngine.Proofs.SnapshotSums

/-! What a shard says when it is asked what was recorded of a phase, and that it says so only then.
Where no session of the phase is live, nothing is recorded any more, whatever comes late. -/

namespace LoadEngine

open Recording (about since since_snoc_reset)

def Silent (outputs : List Output) : Prop := ∀ o ∈ outputs, o.snapshot? = none

lemma silent_append {a b : List Output} : Silent (a ++ b) ↔ Silent a ∧ Silent b :=
  List.forall_mem_append

namespace Shard

lemma carryOut_silent (s : Shard) (effects : List Effect) : Silent (s.carryOut effects).2 := by
  intro o ho
  obtain rfl | ⟨operation, tag, rfl⟩ := s.carryOut_outputs effects o ho <;> rfl

lemma drive_silent (s : Shard) (now : Nanos) (phase slot : Nat)
    (act : Stage → Turn → Turn × Verdict) : Silent (s.drive now phase slot act).2.1 := by
  unfold drive
  split
  · exact nofun
  · exact carryOut_silent _ _

lemma visit_silent (s : Shard) (now : Nanos) (phase slot : Nat)
    (act : Stage → Turn → Turn × Verdict) : Silent (s.visit now phase slot act).2 := by
  have hdrive := s.drive_silent now phase slot act
  unfold visit
  generalize s.drive now phase slot act = out at hdrive
  obtain ⟨s', outputs, verdict⟩ := out
  refine silent_append.mpr ⟨hdrive, ?_⟩
  cases verdict with
  | alive => exact nofun
  | ended | broken => exact List.forall_mem_singleton.mpr rfl

lemma silent_prevails : Prevails fun _ outputs _ => Silent outputs :=
  GoesOn.prevails ⟨fun _ => nofun, fun h h' => silent_append.mpr ⟨h, h'⟩⟩ (fun _ _ => nofun)
    visit_silent

lemma start_silent (s : Shard) (now : Nanos) (phase count : Nat) :
    Silent (s.start now phase count).2 := by
  have hstart (s s₁ : Shard) (slot : Nat) (_ : s.acquire phase = (some slot, s₁)) :
      Silent ((s₁.drive now phase slot Turn.start).2.1 ++
        (s₁.drive now phase slot Turn.start).1.blame (s₁.drive now phase slot Turn.start).2.2) := by
    refine silent_append.mpr ⟨s₁.drive_silent now phase slot Turn.start, ?_⟩
    cases (s₁.drive now phase slot Turn.start).2.2 with
    | alive | ended => exact nofun
    | broken => exact List.forall_mem_singleton.mpr rfl
  obtain ⟨outputs, houtputs, hsilent⟩ :=
    silent_prevails.launch now phase (hstart _ _ _) count ⟨s, [], 0, 0, []⟩
  simp only [start, houtputs, List.nil_append]
  refine silent_append.mpr ⟨hsilent, List.forall_mem_cons.mpr ⟨rfl, fun o ho => ?_⟩⟩
  obtain ⟨how, -, rfl⟩ := List.mem_map.mp ho
  rfl

variable {s s' : Shard} {l l' : Ledger} {now : Nanos} {deed : Deed} {visits : List Visit}
  {out : Shard × List Output} {phase : Nat}

theorem perform_silent (hdeed : ∀ phase reset, deed ≠ .command (.collect phase reset))
    (s : Shard) (now : Nanos) : Silent (s.perform now deed).2 := by
  cases deed with
  | command c =>
    cases c with
    | prepare phase name scenario capacity =>
      simp only [perform, handleCommand]
      split
      · exact List.forall_mem_nil _
      · exact List.forall_mem_singleton.mpr rfl
    | start phase count => exact s.start_silent now phase count
    | terminate phase => exact silent_prevails.terminate s now phase
    | collect phase reset => exact absurd rfl (hdeed phase reset)
    | shutdown => exact silent_prevails.terminateAll s now
  | event e =>
    cases e with
    | data | complete =>
      simp only [perform, handleEvent]
      exact s.visit_silent now _ _ _
  | timers => exact silent_prevails.fire s now _

end Shard

def Ledger.statistics (shape : Histogram.Shape) (l : Ledger) (phase : Nat) : StatisticsSet :=
  ((l.recorded phase).foldl Recorder.enter (.empty shape)).current

namespace Shard

variable {s s' : Shard} {l l' : Ledger} {now : Nanos} {deed : Deed} {visits : List Visit}
  {out : Shard × List Output} {phase : Nat}

theorem Run.collect_statistics (h : Run s l) {shape : Histogram.Shape}
    (htemplate : s.template = .empty shape) (phase : Nat) (reset : Bool) :
    (s.collect phase reset).2.statistics = l.statistics shape phase := by
  unfold collect Ledger.statistics
  cases hlane : s.lanes.get? phase with
  | none =>
    rw [h.books.unrecorded phase hlane]
    rfl
  | some lane =>
    rw [← htemplate, ← h.books.recorder phase lane hlane]
    rfl

lemma Course.template (h : Course s visits s') : s'.template = s.template := by
  induction h with
  | nil => rfl
  | @cons s s₁ s' now cause phase slot visits ha _ ih =>
    have hturn : (s₁.turn now phase slot cause).1.template = s₁.template := by
      unfold turn drive
      cases s₁.lanes.get? phase with
      | none => rfl
      | some lane => exact carryOut_template _ _
    rw [ih, hturn, ha.template]

lemma Logs.template (h : Logs s l deed out l') : out.1.template = s.template := by
  cases h with
  | prepare => rfl
  | reset hlane => rw [collect_reset hlane]
  | plays hplays _ => exact hplays.course.template

lemma visits_recorded (visits : List Visit) (l : Ledger) (phase : Nat) :
    ∃ extra, .reset ∉ extra ∧
      (visits.foldl Ledger.after l).recorded phase = l.recorded phase ++ extra := by
  induction visits generalizing l with
  | nil => exact ⟨[], by simp, (List.append_nil _).symm⟩
  | cons v rest ih =>
    obtain ⟨extra, hextra, hrest⟩ := ih (l.after v)
    rw [List.foldl_cons, hrest, Ledger.after_recorded_eq, List.append_assoc, List.append_assoc]
    refine ⟨_, ?_, rfl⟩
    simp only [List.mem_append, List.mem_filterMap, not_or]
    refine ⟨?_, ?_, hextra⟩
    · rintro ⟨f, -, hf⟩
      split at hf
      · unfold Flight.recording? at hf
        cases hsettles : f.settles? v.now v.cause <;> simp [hsettles] at hf
      · cases hf
    · rintro ⟨x, -, hx⟩
      split at hx <;> cases hx

lemma Logs.recorded (h : Logs s l deed out l') (hdeed : deed ≠ .command (.collect phase true)) :
    ∃ extra, .reset ∉ extra ∧ l'.recorded phase = l.recorded phase ++ extra := by
  cases h with
  | prepare => exact ⟨[], by simp, (List.append_nil _).symm⟩
  | @reset index lane hlane snapshot =>
    have hne : phase ≠ index := by
      rintro rfl
      exact hdeed rfl
    exact ⟨[], by simp, by rw [Ledger.reset, List.append_nil]; exact if_neg hne⟩
  | plays => exact visits_recorded _ l phase

lemma Run.recorded_reset (h : Run s l)
    (hlogs : Logs s l (.command (.collect phase true)) out l') :
    l'.recorded phase = l.recorded phase ++ [.reset] ∨
      l.recorded phase = [] ∧ l'.recorded phase = [] := by
  cases hlogs with
  | reset hlane snapshot => exact .inl (if_pos rfl)
  | plays hplays hkept =>
    have hphase := hkept phase rfl
    exact .inr ⟨h.books.unrecorded phase hphase,
      (h.course hplays.course).books.unrecorded phase (hplays.course.lanes_none.mpr hphase)⟩

end Shard

namespace Recorder

def weight (r : Recorder) (metric : String) : Nat :=
  let s := (r.current.get? metric).getD (.empty r.shape)
  s.requests + s.completed

lemma weight_enter {x : Recording} (hx : x ≠ .reset) (r : Recorder) (metric : String) :
    (r.enter x).weight metric = r.weight metric + (about metric [x]).length := by
  obtain ⟨metric', hmetric⟩ : ∃ metric', x.metric? = some metric' := by
    cases x with
    | reset => exact absurd rfl hx
    | _ => exact ⟨_, rfl⟩
  simp only [weight, get?_enter hmetric, enter_shape]
  by_cases heq : metric = metric'
  · subst heq
    have hlength : (about metric [x]).length = 1 := by simp [about, hmetric]
    rw [if_pos rfl, hlength, Option.getD_some]
    generalize (r.current.get? metric).getD (.empty r.shape) = s
    cases x with
    | request => exact Nat.add_right_comm _ 1 _
    | sample =>
      rw [Snapshot.enter, Snapshot.consume_requests, Snapshot.consume_completed, Nat.add_assoc]
    | reset => exact absurd rfl hx
  · have hlength : (about metric [x]).length = 0 := by simp [about, hmetric, Ne.symm heq]
    rw [if_neg heq, hlength, Nat.add_zero]

lemma weight_foldl {l : List Recording} (hl : .reset ∉ l) (r : Recorder) (metric : String) :
    (l.foldl Recorder.enter r).weight metric = r.weight metric + (about metric l).length := by
  induction l generalizing r with
  | nil => rfl
  | cons x rest ih =>
    rw [List.mem_cons, not_or] at hl
    have habout : about metric (x :: rest) = about metric [x] ++ about metric rest :=
      Recording.about_append metric [x] rest
    rw [List.foldl_cons, ih hl.2, weight_enter (Ne.symm hl.1), habout, List.length_append,
      Nat.add_assoc]

lemma weight_reset (r : Recorder) (metric : String) : r.reset.weight metric = 0 := by
  have hget : r.reset.current.get? metric = (r.current.get? metric).map Snapshot.reset :=
    r.get?_enter_reset metric
  simp only [weight, hget]
  cases r.current.get? metric <;> rfl

lemma eq_nil_of_weight_le {l : List Recording} (hl : .reset ∉ l) {r : Recorder}
    (h : ∀ metric, (l.foldl Recorder.enter r).weight metric ≤ r.weight metric) : l = [] := by
  refine List.eq_nil_iff_forall_not_mem.mpr fun x hx => ?_
  obtain ⟨metric, hmetric⟩ : ∃ metric, x.metric? = some metric := by
    cases x with
    | reset => exact absurd hx hl
    | _ => exact ⟨_, rfl⟩
  have hle := h metric
  rw [weight_foldl hl] at hle
  have hpos : 0 < (about metric l).length :=
    List.length_pos_of_mem (List.mem_filter.mpr ⟨hx, by simp [hmetric]⟩)
  omega

end Recorder

namespace Shard

variable {s : Shard} {l l' : Ledger} {now : Nanos} {deed : Deed} {phase : Nat}

theorem Run.recorded_idle (h : Run s l) (hlogs : Logs s l deed (s.perform now deed) l')
    (hallowed : ∀ c, deed = .command c → (Deed.command c).Allowed s [])
    (hidle : s.alive phase = 0) (hstart : ∀ count, deed ≠ .command (.start phase count))
    (hdeed : deed ≠ .command (.collect phase true)) : l'.recorded phase = l.recorded phase := by
  have hrun := h.logs hlogs hallowed
  obtain ⟨extra, hextra, hrecorded⟩ := hlogs.recorded hdeed
  generalize hout : s.perform now deed = out at hlogs hrun
  cases hlogs with
  | prepare => rfl
  | @reset index lane hlane snapshot =>
    have hne : phase ≠ index := by
      rintro rfl
      exact hdeed rfl
    exact if_neg hne
  | plays hplays hkept =>
    cases hlane : s.lanes.get? phase with
    | none =>
      rw [h.books.unrecorded phase hlane,
        hrun.books.unrecorded phase (hplays.course.lanes_none.mpr hlane)]
    | some lane =>
      have hopens : deed.opens phase = false := by
        cases deed with
        | command c =>
          cases c with
          | prepare index name scenario capacity =>
            refine beq_eq_false_iff_ne.mpr ?_
            rintro rfl
            rw [(hallowed _ rfl).1] at hlane
            cases hlane
          | start index count =>
            refine beq_eq_false_iff_ne.mpr ?_
            rintro rfl
            exact hstart count rfl
          | _ => rfl
        | _ => rfl
      have hafter : ∀ lane', (s.perform now deed).1.lanes.get? phase = some lane' →
          lane'.recorder = extra.foldl Recorder.enter lane.recorder := by
        intro lane' hlane'
        rw [hout] at hlane'
        rw [hrun.books.recorder phase lane' hlane', hrecorded, List.foldl_append,
          hplays.course.template, ← h.books.recorder phase lane hlane]
      -- The recorder is the same, or it forgot all: it shows no more than before.
      have hweight : ∀ metric,
          (extra.foldl Recorder.enter lane.recorder).weight metric ≤
            lane.recorder.weight metric := by
        intro metric
        rcases perform_idle hidle hopens now with hsame | ⟨old, hold, hreset⟩
        · rw [← hafter lane (hsame.trans hlane)]
        · rw [hlane, Option.some.injEq] at hold
          subst hold
          rw [← hafter _ hreset]
          exact (Recorder.weight_reset _ metric).trans_le (Nat.zero_le _)
      rw [hrecorded, Recorder.eq_nil_of_weight_le hextra hweight, List.append_nil]

end Shard

end LoadEngine
