import LoadEngine.Benchmark.Codec
import LoadEngine.Benchmark.Validate
import LoadEngine.Proofs.ResolvedDraft

/-! Benchmarks survive being written and read. What is read has everything that was written, and
what was left out because it follows from the rest: reading builds the draft of a scenario again,
with the same places for the same variables and cursors. -/

namespace LoadEngine

namespace Json

variable {α : Type} {read : Reader α} {encode : α → Json}

@[simp] lemma asString_str (s : String) : asString (.str s) = some s := rfl

@[simp] lemma asBool_bool (b : Bool) : asBool (.bool b) = some b := rfl

@[simp] lemma asVariant_str (s : String) : asVariant (.str s) = some (s, none) := rfl

@[simp] lemma asVariant_obj (name : String) (content : Json) :
    asVariant (.obj [(name, content)]) = some (name, some content) := rfl

@[simp] lemma asUnitVariant_str (s : String) : asUnitVariant (.str s) = some s := rfl

@[simp] lemma asNamed_obj (fields : List (String × Json)) :
    asNamed (.obj fields) = some fun name => fields.lookup name := rfl

@[simp] lemma asFields_obj (names : List String) (fields : List (String × Json)) :
    asFields names (.obj fields) = some fun name => fields.lookup name := rfl

@[simp] lemma Fields.required_eq (f : Fields) (name : String) (read : Reader α) :
    f.required name read = f name >>= read := rfl

@[simp] lemma Fields.withDefault_eq (f : Fields) (name : String) (default : α) (read : Reader α) :
    f.withDefault name default read = (f name).elim (some default) read := by
  unfold withDefault
  cases f name <;> rfl

lemma bind_of_eq {β : Type} {x : Option α} {a : α} {f : α → Option β} {b : β} (h : x = some a)
    (hf : f a = some b) : (x >>= f) = some b := by
  rw [h]
  exact hf

lemma Fields.required_of {f : Fields} {name : String} {j : Json} {a : α} (h : f name = some j)
    (hj : read j = some a) : f.required name read = some a := bind_of_eq h hj

lemma Fields.withDefault_of {f : Fields} {name : String} {j : Json} {default a : α}
    (h : f name = some j) (hj : read j = some a) : f.withDefault name default read = some a := by
  rw [withDefault_eq, h]
  exact hj

lemma lookup_field {fields : List (String × Json)} (i : Nat) {name : String} {j : Json}
    (hnames : (fields.map Prod.fst).Nodup) (hi : fields[i]? = some (name, j)) :
    fields.lookup name = some j := by
  induction fields generalizing i with
  | nil => cases hi
  | cons field rest ih =>
    rw [List.map_cons, List.nodup_cons] at hnames
    rw [← Prod.mk.eta (p := field), OrderedMap.lookup_cons_ite]
    cases i with
    | zero =>
      cases hi
      exact if_pos rfl
    | succ i =>
      have hmem : name ∈ rest.map Prod.fst :=
        List.mem_map_of_mem (f := Prod.fst) (a := (name, j)) (List.mem_of_getElem? hi)
      have hne : name ≠ field.1 := by
        rintro rfl
        exact hnames.1 hmem
      rw [if_neg hne]
      exact ih i hnames.2 hi

lemma asNat_nat {bits n : Nat} (h : n < 2 ^ bits) : asNat bits (nat n) = some n := by
  have hn : (n : Int) < 2 ^ bits := by exact_mod_cast h
  have hwithin : (0 : Int) ≤ n ∧ (n : Int) ≤ 2 ^ bits - 1 := by omega
  simp only [asNat, asIntWithin, nat, if_pos hwithin, Option.map_some, Int.toNat_natCast]

lemma asInt_int {n : Int} (h : -2 ^ 63 ≤ n ∧ n < 2 ^ 63) : asInt (.int n) = some n := by
  have hwithin : (-2 ^ 63 : Int) ≤ n ∧ n ≤ 2 ^ 63 - 1 := by omega
  simp only [asInt, asIntWithin, if_pos hwithin]

lemma asFloat_ofFloat {x : Float} (h : x.isFinite = true) : asFloat (ofFloat x) = some x := by
  simp only [ofFloat, h, if_true, asFloat]

lemma asDuration_duration {d : Nanos} (h : d.seconds < 2 ^ 64) :
    asDuration (duration d) = some d := by
  have hsubsecond : d.subsecond < 2 ^ 32 := by
    simp only [Nanos.subsecond, Nanos.perSecond]
    omega
  have htotal : Nanos.ofSeconds d.seconds + d.subsecond = d := by
    unfold Nanos.ofSeconds Nanos.seconds Nanos.subsecond
    exact Nat.div_add_mod' d _
  have hsecs : [("secs", nat d.seconds), ("nanos", nat d.subsecond)].lookup "secs" =
      some (nat d.seconds) := by simp
  have hnanos : [("secs", nat d.seconds), ("nanos", nat d.subsecond)].lookup "nanos" =
      some (nat d.subsecond) := by simp [OrderedMap.lookup_cons_ite]
  have hnames : ([("secs", nat d.seconds), ("nanos", nat d.subsecond)].any
      fun field => field.1 != "secs" && field.1 != "nanos") = false := by simp
  simp only [asDuration, duration, asFields, Fields.required, hsecs, hnanos, hnames,
    Option.bind_eq_bind, Option.bind_some, Bool.false_eq_true, if_false, -Nat.reducePow]
  rw [asNat_nat h, Option.bind_some, asNat_nat hsubsecond, Option.bind_some, htotal]
  exact if_pos h

lemma asList_list {l : List α} (h : ∀ a ∈ l, read (encode a) = some a) :
    asList read (list encode l) = some l := by
  simp only [asList, list]
  induction l with
  | nil => rfl
  | cons a rest ih =>
    obtain ⟨ha, hrest⟩ := List.forall_mem_cons.mp h
    simp [List.mapM_cons, ha, ih hrest]

lemma asNullable_option {o : Option α} (h : ∀ a ∈ o, read (encode a) = some a ∧ encode a ≠ .null) :
    asNullable read (option encode o) = some o := by
  cases o with
  | none => rfl
  | some a =>
    obtain ⟨ha, hnull⟩ := h a rfl
    simp only [option]
    cases hj : encode a with
    | null => exact absurd hj hnull
    | _ =>
      rw [hj] at ha
      simp [asNullable, ha]

end Json

open OrderedMap (lookup_cons_ite)
open Json (asNat_nat asInt_int asFloat_ofFloat asDuration_duration asList_list asNullable_option)

def Action.Fits {ρ : Type} : Action ρ → Prop
  | .setInt _ n | .addInt _ n => -2 ^ 63 ≤ n ∧ n < 2 ^ 63
  | _ => True

def Search.Predicate.Fits : Predicate → Prop
  | exactly n | atLeast n | atMost n => n < 2 ^ 32

def Operation.Fits (op : Operation Search.Validator) : Prop :=
  op.timeout.seconds < 2 ^ 64 ∧ ∀ v ∈ op.validators, v.predicate.Fits

def Draft.Step.Fits : Step → Prop
  | action a => a.Fits
  | operation op => op.Fits
  | delay duration => duration.seconds < 2 ^ 64
  | _ => True

def Draft.Fits (d : Draft) : Prop := ∀ step ∈ d.steps, step.Fits

def Strategy.Fits : Strategy → Prop
  | atOnce n | always n | sequential n => n < 2 ^ 64
  | _ => True

structure Sla.Fits (s : Sla) : Prop where
  meanResponseTime : ∀ limit ∈ s.meanResponseTime, limit.seconds < 2 ^ 64
  percentileLimits : ∀ l ∈ s.percentileLimits, l.responseTime.seconds < 2 ^ 64

structure Phase.Fits (p : Phase) : Prop where
  built : ∃ d : Draft, d.Fits ∧ d.build = .ok p.scenario
  strategy : p.strategy.Fits
  duration : p.duration.seconds < 2 ^ 64
  maxDuration : ∀ limit ∈ p.maxDuration, limit.seconds < 2 ^ 64
  maxIterations : ∀ limit ∈ p.maxIterations, limit < 2 ^ 64
  maxSessions : ∀ limit ∈ p.maxSessions, limit < 2 ^ 64
  startDelay : ∀ delay ∈ p.startDelay, delay.seconds < 2 ^ 64
  slas : ∀ s ∈ p.slas, s.Fits

def Benchmark.Fits (b : Benchmark) : Prop := ∀ p ∈ b.phases, p.Fits

def Strategy.Finite (s : Strategy) : Prop :=
  ∀ rates ∈ s.rates, rates.1.isFinite = true ∧ rates.2.isFinite = true

structure Sla.Finite (s : Sla) : Prop where
  errorRatio : ∀ ratio ∈ s.errorRatio, ratio.isFinite = true
  percentileLimits : ∀ l ∈ s.percentileLimits, l.percentile.isFinite = true

structure Phase.Finite (p : Phase) : Prop where
  strategy : p.strategy.Finite
  slas : ∀ s ∈ p.slas, s.Finite

def Benchmark.Finite (b : Benchmark) : Prop := ∀ p ∈ b.phases, p.Finite

lemma Action.ofJson?_toJson {a : Action String} (h : a.Fits) : ofJson? a.toJson = some a := by
  cases a with
  | setInt var value => simp [ofJson?, toJson, lookup_cons_ite, asInt_int h]
  | addInt var delta => simp [ofJson?, toJson, lookup_cons_ite, asInt_int h]
  | _ => simp [ofJson?, toJson, lookup_cons_ite]

lemma Declaration.ofJson?_toJson (d : Declaration) : ofJson? d.toJson = some d := by
  obtain ⟨name, kind, scope⟩ := d
  cases kind <;> cases scope <;>
    simp [ofJson?, toJson, lookup_cons_ite, Json.asEnum, VariableKind.name, VariableKind.ofName?,
      Scope.name, Scope.ofName?]

lemma Search.Predicate.ofJson?_toJson {p : Predicate} (h : p.Fits) : ofJson? p.toJson = some p := by
  cases p <;> simp [ofJson?, toJson, asNat_nat h]

lemma Search.Validator.ofJson?_toJson {v : Validator} (h : v.predicate.Fits) :
    ofJson? v.toJson = some v := by
  obtain ⟨pattern, predicate, borders, rfl⟩ := v
  have hbytes : Json.asList (Json.asNat 8) (.list (fun b => .nat b.toNat) pattern.toList) =
      some (pattern.toList.map UInt8.toNat) := by
    have hlist : Json.list (fun b : UInt8 => .nat b.toNat) pattern.toList =
        .list .nat (pattern.toList.map UInt8.toNat) := by
      simp [Json.list]
    rw [hlist]
    apply asList_list
    intro n hn
    obtain ⟨b, -, rfl⟩ := List.mem_map.mp hn
    exact asNat_nat b.toNat_lt
  simp [ofJson?, toJson, lookup_cons_ite, hbytes, Predicate.ofJson?_toJson h, new,
    Function.comp_def]

lemma Operation.ofJson?_toJson {op : Operation Search.Validator} (h : op.Fits) :
    ofJson? op.toJson = some op := by
  have hvalidators : Json.asList Search.Validator.ofJson?
      (.list Search.Validator.toJson op.validators) = some op.validators :=
    asList_list fun v hv => Search.Validator.ofJson?_toJson (h.2 v hv)
  simp [ofJson?, toJson, lookup_cons_ite, asDuration_duration h.1, hvalidators]

namespace Draft

lemma Step.ofJson?_toJson {step : Step} (h : step.Fits) : ofJson? step.toJson = some step := by
  cases step with
  | action a => simp [ofJson?, toJson, Action.ofJson?_toJson h]
  | operation op => simp [ofJson?, toJson, Operation.ofJson?_toJson h]
  | declare declaration => simp [ofJson?, toJson, declaration.ofJson?_toJson]
  | fork names =>
    have hnames : Json.asList Json.asString (.list .str names) = some names :=
      asList_list fun _ _ => rfl
    simp [ofJson?, toJson, hnames]
  | join => simp [ofJson?, toJson]
  | delay duration => simp [ofJson?, toJson, asDuration_duration h]

lemma Sequence.ofJson?_toJson {s : Sequence} (h : ∀ step ∈ s.steps, step.Fits) :
    ofJson? s.toJson = some s := by
  have hsteps : Json.asList Step.ofJson? (.list Step.toJson s.steps) = some s.steps :=
    asList_list fun step hstep => Step.ofJson?_toJson (h step hstep)
  simp [ofJson?, toJson, lookup_cons_ite, hsteps]

lemma ofJson?_toJson {d : Draft} (h : d.Fits) : ofJson? d.toJson = some d := by
  have hinitial : Json.asList Json.asString (.list .str d.initial) = some d.initial :=
    asList_list fun _ _ => rfl
  have hsequences : Json.asList Sequence.ofJson? (.list Sequence.toJson d.sequences) =
      some d.sequences :=
    asList_list fun s hs => Sequence.ofJson?_toJson fun step hstep =>
      h step (List.mem_flatMap.mpr ⟨s, hs, hstep⟩)
  simp [ofJson?, toJson, lookup_cons_ite, hinitial, hsequences]

end Draft

lemma Scenario.ofJson?_toJson {d : Draft} {s : Scenario} (h : d.Fits) (hs : d.build = .ok s) :
    ofJson? s.toJson = some s := by
  simp [ofJson?, toJson, (Draft.build_yields hs).draft, Draft.ofJson?_toJson h, hs]

lemma Strategy.ofJson?_toJson {s : Strategy} (h : s.Fits) (hfinite : s.Finite) :
    ofJson? s.toJson = some s := by
  have hkind : ∀ fields : List (String × Json),
      Json.asKind fieldNames (.obj (("kind", .str s.label) :: fields)) =
        some (s.label, fun name => (("kind", .str s.label) :: fields).lookup name) := fun _ => by
    simp [Json.asKind]
  unfold ofJson? toJson
  rw [hkind]
  cases s with
  | atOnce users =>
    have husers : [("kind", Json.str "at_once"), ("users", .nat users)].lookup "users" =
        some (.nat users) := Json.lookup_field 1 (by simp) rfl
    simp [label, husers, asNat_nat h]
  | always users =>
    have husers : [("kind", Json.str "always"), ("users", .nat users)].lookup "users" =
        some (.nat users) := Json.lookup_field 1 (by simp) rfl
    simp [label, husers, asNat_nat h]
  | constantRate rate catchUp =>
    have hnames : ([("kind", Json.str "constant_rate"), ("users_per_sec", .ofFloat rate),
      ("catch_up", .bool catchUp)].map Prod.fst).Nodup := by simp
    have hrate := Json.lookup_field 1 hnames rfl
    have hcatch := Json.lookup_field 2 hnames rfl
    simp [label, hrate, hcatch, asFloat_ofFloat (hfinite _ rfl).1]
  | rampRate initial target catchUp =>
    have hnames : ([("kind", Json.str "ramp_rate"), ("initial_users_per_sec", .ofFloat initial),
      ("target_users_per_sec", .ofFloat target), ("catch_up", .bool catchUp)].map
        Prod.fst).Nodup := by simp
    have hinitial := Json.lookup_field 1 hnames rfl
    have htarget := Json.lookup_field 2 hnames rfl
    have hcatch := Json.lookup_field 3 hnames rfl
    obtain ⟨hfirst, hlast⟩ := hfinite _ rfl
    simp [label, hinitial, htarget, hcatch, asFloat_ofFloat hfirst, asFloat_ofFloat hlast]
  | sequential iterations =>
    have hiterations :
        [("kind", Json.str "sequential"), ("iterations", .nat iterations)].lookup "iterations" =
          some (.nat iterations) := Json.lookup_field 1 (by simp) rfl
    simp [label, hiterations, asNat_nat h]
  | noop => simp [label]

lemma Dependency.ofJson?_toJson (d : Dependency) : ofJson? d.toJson = some d := by
  obtain ⟨phase, progress⟩ := d
  cases progress <;>
    simp [ofJson?, toJson, lookup_cons_ite, Json.asEnum, Progress.name, Progress.ofName?]

lemma PercentileLimit.ofJson?_toJson {l : PercentileLimit} (hp : l.percentile.isFinite = true)
    (ht : l.responseTime.seconds < 2 ^ 64) : ofJson? l.toJson = some l := by
  simp [ofJson?, toJson, lookup_cons_ite, asFloat_ofFloat hp, asDuration_duration ht]

lemma Json.asNullable_duration {o : Option Nanos} (h : ∀ d ∈ o, d.seconds < 2 ^ 64) :
    Json.asNullable Json.asDuration (.option Json.duration o) = some o :=
  asNullable_option fun d hd => ⟨asDuration_duration (h d hd), by simp [Json.duration]⟩

lemma Json.asNullable_nat {o : Option Nat} (h : ∀ n ∈ o, n < 2 ^ 64) :
    Json.asNullable (Json.asNat 64) (.option .nat o) = some o :=
  asNullable_option fun n hn => ⟨asNat_nat (h n hn), by simp [Json.nat]⟩

lemma Sla.ofJson?_toJson {s : Sla} (h : s.Fits) (hfinite : s.Finite) :
    ofJson? s.toJson = some s := by
  have hmetric : Json.asNullable Json.asString (.option .str s.metric) = some s.metric :=
    asNullable_option fun _ _ => ⟨rfl, nofun⟩
  have hratio : Json.asNullable Json.asFloat (.option .ofFloat s.errorRatio) = some s.errorRatio :=
    asNullable_option fun ratio hr => ⟨asFloat_ofFloat (hfinite.errorRatio ratio hr),
      by simp [Json.ofFloat, hfinite.errorRatio ratio hr]⟩
  have hlimits : Json.asList PercentileLimit.ofJson?
      (.list PercentileLimit.toJson s.percentileLimits) = some s.percentileLimits :=
    asList_list fun l hl => PercentileLimit.ofJson?_toJson (hfinite.percentileLimits l hl)
      (h.percentileLimits l hl)
  simp [ofJson?, toJson, lookup_cons_ite, Json.Fields.optional, hmetric, hratio, hlimits,
    Json.asNullable_duration h.meanResponseTime]

lemma Phase.ofJson?_toJson {p : Phase} (h : p.Fits) (hfinite : p.Finite) :
    ofJson? p.toJson = some p := by
  obtain ⟨d, hd, hbuild⟩ := h.built
  have hdepends : Json.asList Dependency.ofJson? (.list Dependency.toJson p.dependsOn) =
      some p.dependsOn := asList_list fun d _ => d.ofJson?_toJson
  have hafter : Json.asList Json.asString (.list .str p.terminateAfter) = some p.terminateAfter :=
    asList_list fun _ _ => rfl
  have hslas : Json.asList Sla.ofJson? (.list Sla.toJson p.slas) = some p.slas :=
    asList_list fun s hs => Sla.ofJson?_toJson (h.slas s hs) (hfinite.slas s hs)
  have hnames : fieldNames.Nodup := by simp [fieldNames]
  -- The readers follow each other in the order of the fields.
  refine Json.bind_of_eq (rfl : Json.asFields fieldNames p.toJson = some _) ?_
  refine Json.bind_of_eq (Json.Fields.required_of (Json.lookup_field 0 hnames rfl) rfl) ?_
  refine Json.bind_of_eq (Json.Fields.required_of (Json.lookup_field 1 hnames rfl)
    (Scenario.ofJson?_toJson hd hbuild)) ?_
  refine Json.bind_of_eq (Json.Fields.required_of (Json.lookup_field 2 hnames rfl)
    (Strategy.ofJson?_toJson h.strategy hfinite.strategy)) ?_
  refine Json.bind_of_eq (Json.Fields.withDefault_of (Json.lookup_field 3 hnames rfl)
    (asDuration_duration h.duration)) ?_
  refine Json.bind_of_eq (Json.Fields.withDefault_of (Json.lookup_field 4 hnames rfl)
    (Json.asNullable_duration h.maxDuration)) ?_
  refine Json.bind_of_eq (Json.Fields.withDefault_of (Json.lookup_field 5 hnames rfl)
    (Json.asNullable_nat h.maxIterations)) ?_
  refine Json.bind_of_eq (Json.Fields.withDefault_of (Json.lookup_field 6 hnames rfl)
    (Json.asNullable_nat h.maxSessions)) ?_
  refine Json.bind_of_eq (Json.Fields.withDefault_of (Json.lookup_field 7 hnames rfl) hdepends) ?_
  refine Json.bind_of_eq (Json.Fields.withDefault_of (Json.lookup_field 8 hnames rfl)
    (Json.asNullable_duration h.startDelay)) ?_
  refine Json.bind_of_eq (Json.Fields.withDefault_of (Json.lookup_field 9 hnames rfl) hafter) ?_
  refine Json.bind_of_eq (Json.Fields.withDefault_of (Json.lookup_field 10 hnames rfl) hslas) ?_
  rfl

lemma Benchmark.ofJson?_toJson {b : Benchmark} (h : b.Fits) (hfinite : b.Finite) :
    ofJson? b.toJson = some b := by
  have hphases : Json.asList Phase.ofJson? (.list Phase.toJson b.phases) = some b.phases :=
    asList_list fun p hp => Phase.ofJson?_toJson (h p hp) (hfinite p hp)
  simp [ofJson?, toJson, lookup_cons_ite, hphases]

/-- Scenarios and benchmarks are read back as they were written, with all that follows from what is
written: an equal benchmark is valid or not for the same reason, and is written in the same way. -/
theorem Benchmark.survives_writing :
    (∀ (d : Draft) (s : Scenario), d.Fits → d.build = .ok s → Scenario.ofJson? s.toJson = some s) ∧
    ∀ b : Benchmark, b.Fits → b.Finite → ∃ b', Benchmark.ofJson? b.toJson = some b' ∧ b' = b ∧
      b'.validate = b.validate ∧ b'.toJson = b.toJson := by
  refine ⟨fun d s hd hs => Scenario.ofJson?_toJson hd hs, ?_⟩
  intro b hb hfinite
  exact ⟨b, Benchmark.ofJson?_toJson hb hfinite, rfl, rfl, rfl⟩

lemma censusDraft_fits : censusDraft.Fits := by
  intro step hstep
  simp only [Draft.steps, censusDraft, List.flatMap_cons, List.flatMap_nil, List.append_nil,
    List.cons_append, List.nil_append, List.mem_cons, List.not_mem_nil, or_false] at hstep
  rcases hstep with rfl | rfl | rfl | rfl | rfl | rfl | rfl | rfl | rfl | rfl | rfl <;>
    simp [Draft.Step.Fits, Action.Fits, Operation.Fits, censusAsk, Search.Validator.new,
      Search.Predicate.Fits, Operation.simple, Operation.defaultTimeout, Nanos.seconds,
      Nanos.ofSeconds, Nanos.perSecond]

def censuses : Benchmark where
  name := "censuses"
  phases := [
    { Phase.simple "many" census (.always 2) with
      duration := Nanos.ofSeconds 10
      maxDuration := some (Nanos.ofSeconds 12)
      maxIterations := some 9
      slas := [⟨some "get", none, some 500, []⟩] },
    { Phase.simple "one" census (.sequential 1) with
      maxSessions := some 1
      dependsOn := [⟨"many", .finished⟩]
      startDelay := some 7
      terminateAfter := ["many"] }]

lemma censuses_fits : censuses.Fits := by
  have hbuilt : ∃ d : Draft, d.Fits ∧ d.build = .ok census :=
    ⟨censusDraft, censusDraft_fits, census_built⟩
  refine List.forall_mem_cons.mpr ⟨?_, List.forall_mem_singleton.mpr ?_⟩
  · exact ⟨hbuilt, (by decide : 2 < 2 ^ 64), by decide, fun _ h => by cases h; decide,
      fun _ h => by cases h; decide, nofun, nofun,
      List.forall_mem_singleton.mpr ⟨fun _ h => by cases h; decide, nofun⟩⟩
  · exact ⟨hbuilt, (by decide : 1 < 2 ^ 64), by decide, nofun, nofun,
      fun _ h => by cases h; decide, fun _ h => by cases h; decide, nofun⟩

lemma censuses_finite : censuses.Finite := by
  refine List.forall_mem_cons.mpr ⟨?_, List.forall_mem_singleton.mpr ?_⟩
  · exact ⟨nofun, List.forall_mem_singleton.mpr ⟨nofun, nofun⟩⟩
  · exact ⟨nofun, nofun⟩

theorem censuses_survive :
    censusDraft.Fits ∧ censusDraft.build = .ok census ∧
    Scenario.ofJson? census.toJson = some census ∧
    censuses.Fits ∧ censuses.Finite ∧ censuses.validate.toOption.isSome = true ∧
    ∃ b', Benchmark.ofJson? censuses.toJson = some b' ∧ b' = censuses ∧
      b'.validate = censuses.validate ∧ b'.toJson = censuses.toJson :=
  ⟨censusDraft_fits, census_built, Benchmark.survives_writing.1 _ _ censusDraft_fits census_built,
    censuses_fits, censuses_finite, by decide +kernel,
    Benchmark.survives_writing.2 censuses censuses_fits censuses_finite⟩

end LoadEngine
