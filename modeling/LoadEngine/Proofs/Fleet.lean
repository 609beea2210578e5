import LoadEngine.Proofs.Lists
import LoadEngine.Proofs.SchedulerRound
import LoadEngine.Proofs.SessionCount
import LoadEngine.Proofs.StartCount
import LoadEngine.Proofs.Validity
import Mathlib.Algebra.Order.BigOperators.Group.List
import Mathlib.Algebra.Order.Group.Nat

/-! A controller and its shards as they run side by side, each with what it has been sent and not
looked at. Whatever the order in which they do something, the controller's account of a phase is
right up to what is still under way; so a phase that it takes for drained is drained. -/

namespace LoadEngine

/-- A question about a phase that the controller waits with: whether the phase is to end with the
answers, and what each node has answered so far. -/
structure Inquiry where
  index : Nat
  reset : Bool
  answers : List (Option PhaseSnapshot)

namespace Inquiry

def new (index : Nat) (reset : Bool) (nodes : Nat) : Inquiry :=
  ⟨index, reset, List.replicate nodes none⟩

def hear (q : Inquiry) (shard : Nat) (outputs : List Output) : Inquiry :=
  match outputs.findSome? Output.snapshot? with
  | some snapshot => { q with answers := q.answers.set shard (some snapshot) }
  | none => q

def sum? (q : Inquiry) : Option (Except ContractViolation PhaseSnapshot) :=
  if q.answers.all Option.isSome then some (PhaseSnapshot.merge q.answers.reduceOption) else none

end Inquiry

structure Fleet where
  controller : Controller
  nodes : List Node
  /-- What the nodes told and the controller has not looked at, the oldest first. -/
  notices : List Notice
  inquiry : Option Inquiry

lemma Controller.new_ok {settings : Settings} {benchmark : Benchmark} {known : String → Bool}
    {c : Controller} (h : Controller.new settings benchmark known = .ok c) :
    c.phases = (benchmark.phases.map fun phase => .new phase settings.shards) ∧
      c.settings = settings := by
  obtain ⟨-, -, h⟩ := bind_eq_ok.mp h
  obtain ⟨-, -, h⟩ := bind_eq_ok.mp h
  split at h
  · cases h
  · cases h
    exact ⟨rfl, rfl⟩

namespace Notice

variable {index i : Nat}

lemma started_elsewhere (hi : index ≠ i) (shard started blocked : Nat) :
    (Notice.started index shard started blocked).answersIn i = 0 ∧
      (Notice.started index shard started blocked).startedIn i = 0 ∧
      (Notice.started index shard started blocked).endsIn i = 0 := by
  simp [answersIn, startedIn, endsIn, hi]

lemma ended_elsewhere (hi : index ≠ i) (shard : Nat) (how : SessionEnd) :
    (Notice.ended index shard how).answersIn i = 0 ∧
      (Notice.ended index shard how).startedIn i = 0 ∧
      (Notice.ended index shard how).endsIn i = 0 := by
  simp [answersIn, startedIn, endsIn, hi]

end Notice

namespace Fleet

def new (controller : Controller) (template : Recorder) : Fleet where
  controller := controller
  nodes := (List.range controller.settings.shards).map fun shard =>
    { Node.new shard template with commands := controller.preparations shard }
  notices := []
  inquiry := none

def send (f : Fleet) (shard : Nat) (command : Command) : Option Fleet := do
  let node ← f.nodes[shard]?
  let node ← node.send command
  some { f with nodes := f.nodes.set shard node }

def dispatch : Fleet → List Dispatch → Fleet
  | f, [] => f
  | f, (shard, command) :: rest =>
    match f.send shard command with
    | some f => f.dispatch rest
    | none => f

def broadcast (f : Fleet) (command : Command) : Fleet :=
  f.dispatch ((List.range f.nodes.length).map fun shard => (shard, command))

def ask (f : Fleet) (index : Nat) (reset : Bool) : Fleet :=
  { f with
    nodes := f.nodes.map fun node => (node.send (.collect index reset)).getD node
    inquiry := some (.new index reset f.nodes.length) }

def follow (f : Fleet) (r : Controller × Except EngineError (List Dispatch)) : Fleet :=
  match r.2 with
  | .ok dispatches => { f with controller := r.1 }.dispatch dispatches
  | .error _ => { f with controller := r.1 }

def serve (f : Fleet) (shard : Nat) (step : Node → Option (Node × List Output)) :
    Option (Fleet × List Output) := do
  let node ← f.nodes[shard]?
  let (node, outputs) ← step node
  some ({ f with
    nodes := f.nodes.set shard node
    notices := f.notices ++ noticesOf outputs
    inquiry := f.inquiry.map fun q => q.hear shard outputs }, outputs)

/-- What can happen next: the controller does one thing, or looks at the oldest notice, or a node
looks at its oldest command or event or at its clock, or a plugin sends events to a node. -/
inductive Move where
  | begin (now : Nanos)
  | start (index : Nat) (now : Nanos)
  | advance (index : Nat) (now : Nanos)
  | finish (index : Nat) (now : Nanos)
  | terminate (index : Nat) (now : Nanos)
  | notice (now : Nanos)
  /-- Asks all nodes what they have recorded about a phase, which ends with it if `reset`. -/
  | ask (index : Nat) (reset : Bool)
  /-- Takes in the answers of all nodes. -/
  | conclude
  | command (shard : Nat) (now : Nanos)
  | event (shard : Nat) (now : Nanos)
  | timers (shard : Nat) (now : Nanos)
  | deliver (shard : Nat) (events : List Event)

def unlessAsking (f f' : Fleet) : Option (Fleet × List Output) :=
  if f.inquiry.isNone then some (f', []) else none

/-- The fleet after a move, and what a node gave out in it. A phase is asked about in order to end
it only when it can be ended. A sum that is refused is no move: a contract is broken with it. -/
def move (f : Fleet) : Move → Option (Fleet × List Output)
  | .begin now => f.unlessAsking { f with controller := f.controller.begin now }
  | .start index now => f.unlessAsking (f.follow (f.controller.startOnDemand index now))
  | .advance index now => f.unlessAsking (f.follow (f.controller.advance index now))
  | .finish index now =>
    f.unlessAsking { f with controller := (f.controller.finish index now).1 }
  | .terminate index now =>
    let (controller, tell) := f.controller.terminate index now
    let f' := { f with controller }
    f.unlessAsking (if tell then f'.broadcast (.terminate index) else f')
  | .notice now =>
    match f.notices with
    | [] => none
    | notice :: notices =>
      f.unlessAsking ({ f with notices }.follow (f.controller.onNotice now notice))
  | .ask index reset =>
    if reset && !f.controller.canTerminate index then none else f.unlessAsking (f.ask index reset)
  | .conclude => do
    let q ← f.inquiry
    match ← q.sum? with
    | .ok sum =>
      let controller := if q.reset then f.controller.complete q.index sum else f.controller
      some ({ f with controller, inquiry := none }, [])
    | .error _ => none
  | .command shard now => f.serve shard fun node => node.command? now
  | .event shard now => f.serve shard fun node => node.event? now
  | .timers shard now => f.serve shard fun node => node.timers? now
  | .deliver shard events =>
    some ({ f with nodes := f.nodes.modify shard fun node => node.deliver events }, [])

/-- The states that a fleet comes to while no contract is broken and no node goes down. -/
inductive Reachable : Fleet → Prop
  | new {settings : Settings} {benchmark : Benchmark} {known : String → Bool} {c : Controller}
      (h : Controller.new settings benchmark known = .ok c) (template : Recorder) :
      Reachable (new c template)
  | move {f f' : Fleet} {m : Move} {outputs : List Output} (h : Reachable f)
      (hm : f.move m = some (f', outputs)) (hout : Harmless outputs) : Reachable f'

/-- The states that a fleet comes to from another one while no contract is broken. -/
inductive Later (f : Fleet) : Fleet → Prop
  | refl : Later f f
  | move {f' f'' : Fleet} {m : Move} {outputs : List Output} (h : Later f f')
      (hm : f'.move m = some (f'', outputs)) (hout : Harmless outputs) : Later f f''

lemma Later.trans {f f' f'' : Fleet} (h : f.Later f') (h' : f'.Later f'') : f.Later f'' := by
  induction h' with
  | refl => exact h
  | move _ hm hout ih => exact ih.move hm hout

lemma Reachable.later {f f' : Fleet} (h : Reachable f) (hl : f.Later f') : Reachable f' := by
  induction hl with
  | refl => exact h
  | move _ hm hout ih => exact ih.move hm hout

def queuedStarts (f : Fleet) (index : Nat) : Nat :=
  (f.nodes.map fun node => startsIn index node.commands).sum

/-- The sessions of a phase that hold a slot on some node. -/
def alive (f : Fleet) (index : Nat) : Nat := (f.nodes.map fun node => node.shard.alive index).sum

/-- The account of a phase is right. The last part says that an end never overtakes its start. -/
structure Balanced (f : Fleet) (index : Nat) (p : PhaseRun) : Prop where
  inFlight : p.inFlight = f.queuedStarts index + answersIn index f.notices
  sessions : p.counters.started + startedIn index f.notices =
    p.counters.ended + f.alive index + endsIn index f.notices
  covered : ∀ rest, rest <:+ f.notices → startedIn index rest ≤ f.alive index + endsIn index rest

structure Sane (f : Fleet) : Prop where
  orderly : ∀ node ∈ f.nodes, node.Orderly
  shares : ∀ p ∈ f.controller.phases, p.shares.length = f.nodes.length
  positive : ∀ n ∈ f.notices, n.isStart = true → ∃ phase, 0 < n.answersIn phase
  balanced : ∀ (index : Nat) (p : PhaseRun), f.controller.phases[index]? = some p →
    f.Balanced index p

lemma dispatch_cons (f : Fleet) (shard : Nat) (command : Command) (rest : List Dispatch) :
    f.dispatch ((shard, command) :: rest) =
      match f.send shard command with
      | some f => f.dispatch rest
      | none => f := rfl

lemma send_sane {f : Fleet} (h : ∀ node ∈ f.nodes, node.Orderly) {shard : Nat}
    (hshard : shard < f.nodes.length) {c : Command} (hc : c.isPlain = true) :
    ∃ f', f.send shard c = some f' ∧ (∀ node ∈ f'.nodes, node.Orderly) ∧
      f'.controller = f.controller ∧ f'.notices = f.notices ∧
      f'.nodes.length = f.nodes.length ∧ (∀ index, f'.alive index = f.alive index) ∧
      ∀ index, f'.queuedStarts index = f.queuedStarts index + c.startsIn index := by
  have hnode : f.nodes[shard]? = some f.nodes[shard] := List.getElem?_eq_getElem hshard
  obtain ⟨hsend, horderly⟩ := Node.Orderly.send (h _ (List.mem_of_getElem? hnode)) hc
  have hsent : f.send shard c = some { f with
      nodes := f.nodes.set shard
        { f.nodes[shard] with commands := f.nodes[shard].commands ++ [c] } } := by
    simp only [send, hnode, hsend, Option.bind_eq_bind, Option.bind_some]
  refine ⟨_, hsent, forall_mem_set h horderly, rfl, rfl, List.length_set, ?_, ?_⟩
  · intro index
    have hsum := sum_map_set (fun node : Node => node.shard.alive index) hnode
      { f.nodes[shard] with commands := f.nodes[shard].commands ++ [c] }
    simp only [alive] at hsum ⊢
    omega
  · intro index
    have hsum := sum_map_set (fun node : Node => startsIn index node.commands) hnode
      { f.nodes[shard] with commands := f.nodes[shard].commands ++ [c] }
    simp only [startsIn_append, startsIn_cons index c [], queuedStarts] at hsum ⊢
    have hnil : startsIn index [] = 0 := rfl
    omega

lemma dispatch_sane {f : Fleet} (h : ∀ node ∈ f.nodes, node.Orderly) {dispatches : List Dispatch}
    (hd : ∀ d ∈ dispatches, d.1 < f.nodes.length ∧ d.2.isPlain = true) :
    (∀ node ∈ (f.dispatch dispatches).nodes, node.Orderly) ∧
      (f.dispatch dispatches).controller = f.controller ∧
      (f.dispatch dispatches).notices = f.notices ∧
      (f.dispatch dispatches).nodes.length = f.nodes.length ∧
      (∀ index, (f.dispatch dispatches).alive index = f.alive index) ∧
      ∀ index, (f.dispatch dispatches).queuedStarts index =
        f.queuedStarts index + startsIn index (dispatches.map Prod.snd) := by
  induction dispatches generalizing f with
  | nil => exact ⟨h, rfl, rfl, rfl, fun _ => rfl, fun _ => rfl⟩
  | cons d rest ih =>
    obtain ⟨shard, c⟩ := d
    obtain ⟨⟨hshard, hc⟩, hrest⟩ := List.forall_mem_cons.mp hd
    obtain ⟨f', hsend, horderly, hcontroller, hnotices, hlength, halive, hqueued⟩ :=
      send_sane h hshard hc
    rw [dispatch_cons, hsend]
    obtain ⟨h₁, h₂, h₃, h₄, h₅, h₆⟩ := ih horderly (by rwa [hlength])
    refine ⟨h₁, h₂.trans hcontroller, h₃.trans hnotices, h₄.trans hlength, ?_, ?_⟩
    · intro index
      rw [h₅ index, halive index]
    · intro index
      rw [h₆ index, hqueued index, List.map_cons, startsIn_cons]
      omega

lemma startsIn_dispatches (index phase : Nat) (starts : Starts) :
    startsIn phase ((Controller.dispatches index starts).map Prod.snd) =
      if index = phase then (starts.map Prod.snd).sum else 0 := by
  induction starts with
  | nil => simp [Controller.dispatches, startsIn]
  | cons s rest ih =>
    obtain ⟨shard, count⟩ := s
    simp only [Controller.dispatches, List.map_cons, startsIn_cons, Command.startsIn,
      List.sum_cons] at ih ⊢
    rw [ih]
    by_cases h : index = phase
    · simp only [if_pos h]
    · simp only [if_neg h]

lemma Balanced.congr {f f' : Fleet} {index : Nat} {p p' : PhaseRun} (h : f.Balanced index p)
    (hflight : p'.inFlight = p.inFlight) (hcounters : p'.counters = p.counters)
    (hnotices : f'.notices = f.notices) (halive : f'.alive index = f.alive index)
    (hqueued : f'.queuedStarts index = f.queuedStarts index) : f'.Balanced index p' := by
  refine ⟨?_, ?_, ?_⟩
  · rw [hflight, hqueued, hnotices]
    exact h.inFlight
  · rw [hcounters, halive, hnotices]
    exact h.sessions
  · rw [hnotices, halive]
    exact h.covered

lemma Sane.dispatch {f : Fleet} {c : Controller} {index : Nat} {p p' : PhaseRun} {starts : Starts}
    (h : f.Sane) (hp : f.controller.phases[index]? = some p) (hasks : p.Asks p' starts)
    (hc : c.phases = f.controller.phases.set index p') :
    ({ f with controller := c }.dispatch (Controller.dispatches index starts)).Sane := by
  have hvalid : ∀ d ∈ Controller.dispatches index starts,
      d.1 < f.nodes.length ∧ d.2.isPlain = true := by
    intro d hd
    obtain ⟨s, hs, rfl⟩ := List.mem_map.mp hd
    obtain ⟨hlt, hpos⟩ := hasks.takers s hs
    rw [h.shares p (List.mem_of_getElem? hp)] at hlt
    exact ⟨hlt, decide_eq_true hpos⟩
  obtain ⟨horderly, hcontroller, hnotices, hlength, halive, hqueued⟩ :=
    dispatch_sane (f := { f with controller := c }) h.orderly hvalid
  refine ⟨horderly, ?_, ?_, ?_⟩
  · rw [hcontroller, hlength]
    change ∀ q ∈ c.phases, q.shares.length = f.nodes.length
    rw [hc]
    exact forall_mem_set h.shares (by rw [hasks.shares]; exact h.shares p (List.mem_of_getElem? hp))
  · rw [hnotices]
    exact h.positive
  · intro i q hq
    rw [hcontroller] at hq
    change c.phases[i]? = some q at hq
    rw [hc, List.getElem?_set] at hq
    have hstarts := startsIn_dispatches index i starts
    by_cases hi : index = i
    · subst hi
      have hlt := (List.getElem?_eq_some_iff.mp hp).1
      rw [if_pos rfl, if_pos hlt, Option.some.injEq] at hq
      subst hq
      have hbalanced := h.balanced index p hp
      rw [if_pos rfl] at hstarts
      refine ⟨?_, ?_, ?_⟩
      · rw [hasks.inFlight, hbalanced.inFlight, hqueued index, hstarts, hnotices]
        simp only [queuedStarts]
        omega
      · rw [hasks.counters, halive index, hnotices]
        exact hbalanced.sessions
      · rw [halive index, hnotices]
        exact hbalanced.covered
    · rw [if_neg hi] at hq hstarts
      refine (h.balanced i q hq).congr rfl rfl hnotices (halive i) ?_
      rw [hqueued i, hstarts]
      rfl

lemma Sane.of_phases_eq {f : Fleet} {c : Controller} (h : f.Sane)
    (hc : c.phases = f.controller.phases) : Sane { f with controller := c } := by
  refine ⟨h.orderly, ?_, h.positive, ?_⟩
  · change ∀ p ∈ c.phases, p.shares.length = f.nodes.length
    rw [hc]
    exact h.shares
  · intro index p hp
    change c.phases[index]? = some p at hp
    rw [hc] at hp
    exact (h.balanced index p hp).congr rfl rfl rfl rfl rfl

lemma Sane.follow {f : Fleet} {r : Controller × Except EngineError (List Dispatch)} (h : f.Sane)
    (hr : f.controller.Orders r) : (f.follow r).Sane := by
  cases hr with
  | nothing hc => exact h.of_phases_eq hc
  | refused hc e => exact h.of_phases_eq hc
  | starts hp hasks hc => exact h.dispatch hp hasks hc

lemma Sane.setPhase {f : Fleet} {index : Nat} {p p' : PhaseRun} (h : f.Sane)
    (hp : f.controller.phases[index]? = some p) (hasks : p.Asks p' []) :
    Sane { f with controller := f.controller.setPhase index p' } :=
  h.dispatch hp hasks rfl

lemma Sane.broadcast {f : Fleet} (h : f.Sane) (command : Command) (hc : command.isPlain = true)
    (hstarts : ∀ index, command.startsIn index = 0) : (f.broadcast command).Sane := by
  have hvalid : ∀ d ∈ (List.range f.nodes.length).map fun shard => (shard, command),
      d.1 < f.nodes.length ∧ d.2.isPlain = true := by
    intro d hd
    obtain ⟨shard, hshard, rfl⟩ := List.mem_map.mp hd
    exact ⟨List.mem_range.mp hshard, hc⟩
  obtain ⟨horderly, hcontroller, hnotices, hlength, halive, hqueued⟩ :=
    dispatch_sane h.orderly hvalid
  refine ⟨horderly, ?_, ?_, ?_⟩
  · rw [Fleet.broadcast, hcontroller, hlength]
    exact h.shares
  · rw [Fleet.broadcast, hnotices]
    exact h.positive
  · intro index p hp
    rw [Fleet.broadcast, hcontroller] at hp
    refine (h.balanced index p hp).congr rfl rfl hnotices (halive index) ?_
    have hnone : startsIn index (((List.range f.nodes.length).map fun shard =>
        ((shard, command) : Dispatch)).map Prod.snd) = 0 := by
      rw [List.map_map]
      induction List.range f.nodes.length with
      | nil => rfl
      | cons i rest ih =>
        rw [List.map_cons, startsIn_cons, ih]
        simp [hstarts index]
    rw [Fleet.broadcast, hqueued index, hnone, Nat.add_zero]

lemma Sane.ask {f : Fleet} (h : f.Sane) (index : Nat) (reset : Bool) :
    (f.ask index reset).Sane := by
  let told (node : Node) : Node := (node.send (.collect index reset)).getD node
  have htold : ∀ node ∈ f.nodes, (told node).Orderly ∧ told node =
      { node with commands := node.commands ++ [.collect index reset] } := by
    intro node hnode
    obtain ⟨hsend, horderly⟩ := (h.orderly node hnode).send (c := .collect index reset) rfl
    have heq : told node = { node with commands := node.commands ++ [.collect index reset] } := by
      simp only [told, hsend, Option.getD_some]
    exact ⟨heq ▸ horderly, heq⟩
  refine ⟨List.forall_mem_map.mpr fun node hnode => (htold node hnode).1, ?_, h.positive, ?_⟩
  · intro p hp
    rw [h.shares p hp]
    exact (List.length_map _).symm
  · intro i p hp
    have hsame {g : Node → Nat} (hg : ∀ node ∈ f.nodes, g (told node) = g node) :
        ((f.nodes.map told).map g).sum = (f.nodes.map g).sum := by
      rw [List.map_map]
      exact congrArg List.sum (List.map_congr_left hg)
    refine (h.balanced i p hp).congr rfl rfl rfl (hsame ?_) (hsame ?_)
    · intro node hnode
      rw [(htold node hnode).2]
    · intro node hnode
      rw [(htold node hnode).2, startsIn_append]
      rfl

lemma Sane.finish {f : Fleet} (h : f.Sane) (index : Nat) (now : Nanos) :
    Sane { f with controller := (f.controller.finish index now).1 } := by
  unfold Controller.finish
  cases hp : f.controller.phases[index]? with
  | none => exact h
  | some p =>
    simp only
    cases hf : p.finish now with
    | error e => exact h
    | ok p' =>
      have hasks : p.Asks p' [] := by
        unfold PhaseRun.finish at hf
        cases hs : p.status <;> simp only [hs] at hf <;> cases hf <;> exact .none rfl rfl rfl
      exact h.setPhase hp hasks

lemma Sane.terminate {f : Fleet} (h : f.Sane) (index : Nat) (now : Nanos) :
    Sane { f with controller := (f.controller.terminate index now).1 } := by
  unfold Controller.terminate
  cases hp : f.controller.phases[index]? with
  | none => exact h
  | some p =>
    have hasks : p.Asks (p.beginTermination now).1 [] := by
      unfold PhaseRun.beginTermination
      cases hs : p.status <;> exact .none rfl rfl rfl
    exact h.setPhase hp hasks

lemma Sane.complete {f : Fleet} (h : f.Sane) (index : Nat) (snapshot : PhaseSnapshot) :
    Sane { f with controller := f.controller.complete index snapshot } := by
  unfold Controller.complete
  cases hp : f.controller.phases[index]? with
  | none => exact h
  | some p => exact h.setPhase hp (.none rfl rfl rfl)

lemma Sane.take {f : Fleet} {n : Notice} {rest : List Notice} {c : Controller} (h : f.Sane)
    (hn : f.notices = n :: rest)
    (hshares : ∀ p ∈ c.phases, p.shares.length = f.nodes.length)
    (hc : ∀ (index : Nat) (p' : PhaseRun), c.phases[index]? = some p' →
      ∃ p, f.controller.phases[index]? = some p ∧
        p'.inFlight + n.answersIn index = p.inFlight ∧
        p'.counters.started = p.counters.started + n.startedIn index ∧
        p'.counters.ended = p.counters.ended + n.endsIn index) :
    Sane { f with controller := c, notices := rest } := by
  refine ⟨h.orderly, hshares, ?_, ?_⟩
  · intro m hm
    exact h.positive m (hn ▸ List.mem_cons_of_mem n hm)
  · intro index p' hp'
    obtain ⟨p, hp, hflight, hstarted, hended⟩ := hc index p' hp'
    obtain ⟨hbalance, hsessions, hcovered⟩ := h.balanced index p hp
    rw [hn] at hbalance hsessions hcovered
    simp only [answersIn, startedIn, endsIn, List.map_cons, List.sum_cons] at hbalance hsessions
    refine ⟨?_, ?_, ?_⟩
    · change p'.inFlight = f.queuedStarts index + answersIn index rest
      simp only [answersIn]
      omega
    · change p'.counters.started + startedIn index rest =
        p'.counters.ended + f.alive index + endsIn index rest
      simp only [startedIn, endsIn]
      omega
    · intro later hlater
      exact hcovered later (hlater.trans (List.suffix_cons n rest))

lemma Sane.take_unknown {f : Fleet} {n : Notice} {rest : List Notice} {c : Controller} (h : f.Sane)
    (hn : f.notices = n :: rest) (hc : c.phases = f.controller.phases)
    (hnone : ∀ (index : Nat) (p : PhaseRun), f.controller.phases[index]? = some p →
      n.answersIn index = 0 ∧ n.startedIn index = 0 ∧ n.endsIn index = 0) :
    Sane { f with controller := c, notices := rest } := by
  refine h.take hn (by rw [hc]; exact h.shares) ?_
  intro index p hp
  rw [hc] at hp
  obtain ⟨h₁, h₂, h₃⟩ := hnone index p hp
  exact ⟨p, hp, by omega, by omega, by omega⟩

lemma Sane.take_set {f : Fleet} {n : Notice} {rest : List Notice} {index : Nat} {p p' : PhaseRun}
    (h : f.Sane) (hn : f.notices = n :: rest) (hp : f.controller.phases[index]? = some p)
    (hshares : p'.shares = p.shares) (hflight : p'.inFlight + n.answersIn index = p.inFlight)
    (hstarted : p'.counters.started = p.counters.started + n.startedIn index)
    (hended : p'.counters.ended = p.counters.ended + n.endsIn index)
    (hothers : ∀ i, index ≠ i → n.answersIn i = 0 ∧ n.startedIn i = 0 ∧ n.endsIn i = 0) :
    Sane { f with controller := f.controller.setPhase index p', notices := rest } := by
  refine h.take (c := f.controller.setPhase index p') hn (forall_mem_set h.shares ?_) ?_
  · rw [hshares]
    exact h.shares p (List.mem_of_getElem? hp)
  · intro i q hq
    rw [Controller.setPhase, List.getElem?_set] at hq
    by_cases hi : index = i
    · subst hi
      rw [if_pos rfl, if_pos (List.getElem?_eq_some_iff.mp hp).1, Option.some.injEq] at hq
      subst hq
      exact ⟨p, hp, hflight, hstarted, hended⟩
    · rw [if_neg hi] at hq
      obtain ⟨h₁, h₂, h₃⟩ := hothers i hi
      exact ⟨q, hq, by omega, by omega, by omega⟩

lemma Sane.started {f : Fleet} {index shard started blocked : Nat} {rest : List Notice}
    (h : f.Sane) (hn : f.notices = .started index shard started blocked :: rest) (now : Nanos) :
    ({ f with notices := rest }.follow
      (f.controller.onNotice now (.started index shard started blocked))).Sane := by
  simp only [Controller.onNotice]
  cases hp : f.controller.phases[index]? with
  | none =>
    refine h.take_unknown hn rfl fun i p hi => Notice.started_elsewhere ?_ shard started blocked
    rintro rfl
    rw [hp] at hi
    cases hi
  | some p =>
    have hle : started + blocked ≤ p.inFlight := by
      rw [(h.balanced index p hp).inFlight, hn]
      simp only [answersIn, List.map_cons, List.sum_cons, Notice.answersIn, if_true]
      omega
    refine h.take_set hn hp rfl ?_ ?_ rfl fun i hi =>
      Notice.started_elsewhere hi shard started blocked
    · simp only [PhaseRun.onStarted, Notice.answersIn, if_true]
      omega
    · simp only [PhaseRun.onStarted, Notice.startedIn, if_true]

lemma Sane.ended {f : Fleet} {index shard : Nat} {how : SessionEnd} {rest : List Notice}
    (h : f.Sane) (hn : f.notices = .ended index shard how :: rest) (now : Nanos) :
    ({ f with notices := rest }.follow
      (f.controller.onNotice now (.ended index shard how))).Sane := by
  simp only [Controller.onNotice]
  cases hp : f.controller.phases[index]? with
  | none =>
    refine h.take_unknown hn rfl fun i p hi => Notice.ended_elsewhere ?_ shard how
    rintro rfl
    rw [hp] at hi
    cases hi
  | some p =>
    obtain ⟨hstarted, hended⟩ := p.counters.consume_ended how
    -- The end is taken in first; what it makes the phase ask for comes on top of that.
    have htaken : Sane { f with
        controller := f.controller.setPhase index
          { p with counters := p.counters.consume how.event }
        notices := rest } :=
      h.take_set hn hp rfl rfl hstarted (by rw [Notice.endsIn, if_pos rfl]; exact hended)
        fun i hi => Notice.ended_elsewhere hi shard how
    refine htaken.dispatch (f.controller.setPhase_getElem? hp _) (p.onEnded_asks shard how now) ?_
    simp only [Controller.setPhase, List.set_set]

lemma Sane.notice {f : Fleet} {n : Notice} {rest : List Notice} (h : f.Sane)
    (hn : f.notices = n :: rest) (now : Nanos) :
    ({ f with notices := rest }.follow (f.controller.onNotice now n)).Sane := by
  cases n with
  | started index shard started blocked => exact h.started hn now
  | ended index shard how => exact h.ended hn now
  | fault shard cause => exact h.take_unknown hn rfl fun _ _ _ => ⟨rfl, rfl, rfl⟩

lemma suffix_append_cases {α : Type} {l a b : List α} (h : l <:+ a ++ b) :
    (∃ r, r <:+ a ∧ l = r ++ b) ∨ l <:+ b.tail := by
  obtain ⟨before, heq⟩ := h
  rw [List.append_eq_append_iff] at heq
  obtain ⟨r, ha, hl⟩ | ⟨r, hb, hr⟩ := heq
  · exact .inl ⟨r, ⟨before, ha.symm⟩, hl⟩
  · cases r with
    | nil => exact .inl ⟨[], List.nil_suffix, by simpa using hr.symm⟩
    | cons x r =>
      rw [hr, List.cons_append, List.tail_cons]
      exact .inr ⟨r, rfl⟩

lemma Balanced.serve {f : Fleet} {index shard : Nat} {p : PhaseRun} {node node' : Node}
    {told : List Notice} (h : f.Balanced index p) (hnode : f.nodes[shard]? = some node)
    (hs : node.Serves node' told) (inquiry : Option Inquiry) :
    Balanced ⟨f.controller, f.nodes.set shard node', f.notices ++ told, inquiry⟩ index p := by
  have hqueued := sum_map_set (fun node : Node => startsIn index node.commands) hnode node'
  have halive := sum_map_set (fun node : Node => node.shard.alive index) hnode node'
  have hanswered := hs.answered index
  have hbalance := hs.balance index
  obtain ⟨hflight, hsessions, hcovered⟩ := h
  simp only [queuedStarts, alive] at hflight hsessions hcovered
  refine ⟨?_, ?_, ?_⟩
  · simp only [queuedStarts, answersIn_append]
    omega
  · simp only [alive, startedIn_append, endsIn_append]
    omega
  · intro rest hrest
    simp only [alive]
    obtain ⟨r, hr, rfl⟩ | htail := suffix_append_cases hrest
    · have hr := hcovered r hr
      rw [startedIn_append, endsIn_append]
      omega
    · have hnone : startedIn index rest = 0 :=
        startedIn_of_no_start index fun n hn => hs.first n (htail.subset hn)
      omega

lemma Sane.serve {f f' : Fleet} {shard : Nat} {step : Node → Option (Node × List Output)}
    {outputs : List Output} (h : f.Sane) (he : f.serve shard step = some (f', outputs))
    (hstep : ∀ node node' : Node, node.Orderly → step node = some (node', outputs) →
      node.Serves node' (noticesOf outputs)) : f'.Sane := by
  unfold Fleet.serve at he
  cases hnode : f.nodes[shard]? with
  | none => simp [hnode] at he
  | some node =>
    cases hs : step node with
    | none => simp [hnode, hs] at he
    | some r =>
      obtain ⟨node', outputs'⟩ := r
      simp only [hnode, hs, Option.bind_eq_bind, Option.bind_some, Option.some.injEq,
        Prod.mk.injEq] at he
      obtain ⟨rfl, rfl⟩ := he
      have hserves := hstep node node' (h.orderly node (List.mem_of_getElem? hnode)) hs
      refine ⟨forall_mem_set h.orderly hserves.orderly, ?_, ?_, ?_⟩
      · intro p hp
        rw [List.length_set]
        exact h.shares p hp
      · exact List.forall_mem_append.mpr ⟨h.positive, hserves.positive⟩
      · intro index p hp
        exact (h.balanced index p hp).serve hnode hserves _

lemma Sane.deliver {f : Fleet} (h : f.Sane) (shard : Nat) (events : List Event) :
    Sane { f with nodes := f.nodes.modify shard fun node => node.deliver events } := by
  have hsame {g : Node → Nat} (hg : ∀ node ∈ f.nodes, g (node.deliver events) = g node) :
      ((f.nodes.modify shard fun node => node.deliver events).map g).sum =
        (f.nodes.map g).sum := by
    refine congrArg List.sum (List.ext_getElem? fun i => ?_)
    rw [List.getElem?_map, List.getElem?_map, List.getElem?_modify]
    cases hi : f.nodes[i]? with
    | none => rfl
    | some node =>
      by_cases hs : shard = i
      · simp [hs, hg node (List.mem_of_getElem? hi)]
      · simp [hs]
  have hkept : ∀ node ∈ f.nodes,
      node.deliver events = { node with events := node.events ++ events } :=
    fun node hnode => ((h.orderly node hnode).deliver events).1
  refine ⟨?_, ?_, h.positive, ?_⟩
  · intro node' hnode'
    obtain ⟨i, hi⟩ := List.mem_iff_getElem?.mp hnode'
    rw [List.getElem?_modify] at hi
    obtain ⟨node, hnode, heq⟩ := Option.map_eq_some_iff.mp hi
    have horderly := h.orderly node (List.mem_of_getElem? hnode)
    by_cases hs : shard = i
    · rw [← heq, if_pos hs]
      exact (horderly.deliver events).2
    · rw [← heq, if_neg hs]
      exact horderly
  · intro p hp
    rw [List.length_modify]
    exact h.shares p hp
  · intro index p hp
    refine (h.balanced index p hp).congr rfl rfl rfl (hsame ?_) (hsame ?_)
    · intro node hnode
      rw [hkept node hnode]
    · intro node hnode
      rw [hkept node hnode]

lemma Sane.of_unlessAsking {f f' f'' : Fleet} {outputs : List Output}
    (hm : f.unlessAsking f' = some (f'', outputs)) (h' : f'.Sane) : f''.Sane := by
  unfold unlessAsking at hm
  split at hm
  · cases hm
    exact h'
  · cases hm

lemma Sane.with_inquiry {f : Fleet} (h : f.Sane) (inquiry : Option Inquiry) :
    Sane { f with inquiry } :=
  ⟨h.orderly, h.shares, h.positive, fun index p hp =>
    (h.balanced index p hp).congr rfl rfl rfl rfl rfl⟩

lemma Sane.conclude {f f' : Fleet} {outputs : List Output} (h : f.Sane)
    (hm : f.move .conclude = some (f', outputs)) : f'.Sane := by
  obtain ⟨q, -, hm⟩ := Option.bind_eq_some_iff.mp hm
  obtain ⟨sum, -, hm⟩ := Option.bind_eq_some_iff.mp hm
  cases sum with
  | error fault => cases hm
  | ok sum =>
    cases hm
    cases q.reset with
    | false => exact h.with_inquiry none
    | true => exact (h.complete q.index sum).with_inquiry none

lemma Sane.move {f f' : Fleet} {m : Move} {outputs : List Output} (h : f.Sane)
    (hm : f.move m = some (f', outputs)) (hout : Harmless outputs) : f'.Sane := by
  cases m with
  | begin now => exact .of_unlessAsking hm (h.of_phases_eq rfl)
  | start index now =>
    exact .of_unlessAsking hm (h.follow (f.controller.startOnDemand_orders index now))
  | advance index now =>
    exact .of_unlessAsking hm (h.follow (f.controller.advance_orders index now))
  | finish index now => exact .of_unlessAsking hm (h.finish index now)
  | terminate index now =>
    have hended := h.terminate index now
    simp only [Fleet.move] at hm
    refine .of_unlessAsking hm ?_
    split
    · exact hended.broadcast (.terminate index) rfl fun _ => rfl
    · exact hended
  | notice now =>
    simp only [Fleet.move] at hm
    split at hm
    · cases hm
    · rename_i n rest hn
      exact .of_unlessAsking hm (h.notice hn now)
  | ask index reset =>
    simp only [Fleet.move] at hm
    split at hm
    · cases hm
    · exact .of_unlessAsking hm (h.ask index reset)
  | conclude => exact h.conclude hm
  | command shard now =>
    exact h.serve hm fun node node' horderly he => Node.command?_serves horderly he hout
  | event shard now =>
    exact h.serve hm fun node node' horderly he => Node.event?_serves horderly he hout
  | timers shard now =>
    exact h.serve hm fun node node' horderly he => Node.timers?_serves horderly he hout
  | deliver shard events =>
    cases hm
    exact h.deliver shard events

lemma preparations_isPrepare {c : Controller} {shard : Nat} {command : Command}
    (h : command ∈ c.preparations shard) : command.isPrepare = true := by
  obtain ⟨⟨p, index⟩, -, rfl⟩ := List.mem_map.mp h
  rfl

lemma startsIn_of_isPrepare (index : Nat) {commands : List Command}
    (h : ∀ c ∈ commands, c.isPrepare = true) : startsIn index commands = 0 := by
  rw [startsIn, List.sum_eq_zero_iff_forall_eq_nat]
  intro n hn
  obtain ⟨c, hc, rfl⟩ := List.mem_map.mp hn
  have hprepare := h c hc
  cases c with
  | prepare => rfl
  | _ => cases hprepare

lemma Sane.new {settings : Settings} {benchmark : Benchmark} {known : String → Bool}
    {c : Controller} (h : Controller.new settings benchmark known = .ok c) (template : Recorder) :
    Sane (Fleet.new c template) := by
  obtain ⟨hphases, hsettings⟩ := Controller.new_ok h
  have hnode : ∀ node ∈ (Fleet.new c template).nodes, ∃ shard,
      node = { Node.new shard template with commands := c.preparations shard } := by
    intro node hnode
    obtain ⟨shard, -, rfl⟩ := List.mem_map.mp hnode
    exact ⟨shard, rfl⟩
  refine ⟨?_, ?_, by simp [Fleet.new], ?_⟩
  · intro node hmem
    obtain ⟨shard, rfl⟩ := hnode node hmem
    refine ⟨rfl, ?_, c.preparations shard, [], (List.append_nil _).symm,
      fun _ => preparations_isPrepare, by simp, fun _ _ => rfl⟩
    intro phase lane hlane
    cases hlane
  · intro p hp
    change p ∈ c.phases at hp
    rw [hphases] at hp
    obtain ⟨phase, -, rfl⟩ := List.mem_map.mp hp
    simp [PhaseRun.new, splitCapacity, Fleet.new, hsettings]
  · intro index p hp
    change c.phases[index]? = some p at hp
    rw [hphases, List.getElem?_map] at hp
    obtain ⟨phase, -, rfl⟩ := Option.map_eq_some_iff.mp hp
    have hqueued : (Fleet.new c template).queuedStarts index = 0 := by
      rw [queuedStarts, List.sum_eq_zero_iff_forall_eq_nat]
      intro n hn
      obtain ⟨node, hmem, rfl⟩ := List.mem_map.mp hn
      obtain ⟨shard, rfl⟩ := hnode node hmem
      exact startsIn_of_isPrepare index fun _ => preparations_isPrepare
    have halive : (Fleet.new c template).alive index = 0 := by
      rw [alive, List.sum_eq_zero_iff_forall_eq_nat]
      intro n hn
      obtain ⟨node, hmem, rfl⟩ := List.mem_map.mp hn
      obtain ⟨shard, rfl⟩ := hnode node hmem
      rfl
    refine ⟨?_, ?_, ?_⟩
    · rw [hqueued]
      rfl
    · rw [halive]
      rfl
    · intro rest hrest
      rw [List.suffix_nil.mp hrest]
      exact Nat.zero_le _

lemma Reachable.sane {f : Fleet} (h : Reachable f) : f.Sane := by
  induction h with
  | new h template => exact .new h template
  | move _ hm hout ih => exact ih.move hm hout

/-- No session of the phase is live on a node, and nothing that is under way starts one or tells of
one. -/
structure AtRest (f : Fleet) (index : Nat) : Prop where
  sessions : ∀ node ∈ f.nodes, node.shard.alive index = 0
  commands : ∀ node ∈ f.nodes, ∀ count, .start index count ∉ node.commands
  starts : ∀ shard started blocked, .started index shard started blocked ∉ f.notices
  ends : ∀ shard how, .ended index shard how ∉ f.notices

lemma startsIn_eq_zero_iff {n : Node} (h : n.Orderly) (index : Nat) :
    startsIn index n.commands = 0 ↔ ∀ count, .start index count ∉ n.commands := by
  obtain ⟨preparations, rest, hqueue, hprepare, hplain, -⟩ := h.queue
  rw [startsIn, List.sum_eq_zero_iff_forall_eq_nat]
  constructor
  · intro hzero count hmem
    have hcount := hzero _ (List.mem_map_of_mem hmem)
    simp only [Command.startsIn, if_true] at hcount
    rw [hqueue, List.mem_append] at hmem
    rcases hmem with hmem | hmem
    · cases hprepare _ hmem
    · have hpos := of_decide_eq_true (hplain _ hmem)
      omega
  · intro hnone n hn
    obtain ⟨c, hc, rfl⟩ := List.mem_map.mp hn
    cases c with
    | start phase count =>
      have hne : phase ≠ index := by
        rintro rfl
        exact hnone count hc
      exact if_neg hne
    | _ => rfl

lemma atRest_iff {f : Fleet} (h : f.Sane) (index : Nat) :
    f.AtRest index ↔ f.queuedStarts index = 0 ∧ f.alive index = 0 ∧
      answersIn index f.notices = 0 ∧ endsIn index f.notices = 0 := by
  simp only [queuedStarts, alive, answersIn, endsIn, List.sum_eq_zero_iff_forall_eq_nat,
    List.forall_mem_map]
  constructor
  · rintro ⟨hsessions, hcommands, hstarts, hends⟩
    refine ⟨?_, hsessions, ?_, ?_⟩
    · intro node hnode
      exact (startsIn_eq_zero_iff (h.orderly node hnode) index).mpr (hcommands node hnode)
    · intro n hn
      cases n with
      | started phase shard started blocked =>
        have hne : phase ≠ index := by
          rintro rfl
          exact hstarts shard started blocked hn
        exact if_neg hne
      | _ => rfl
    · intro n hn
      cases n with
      | ended phase shard how =>
        have hne : phase ≠ index := by
          rintro rfl
          exact hends shard how hn
        exact if_neg hne
      | _ => rfl
  · rintro ⟨hcommands, hsessions, hstarts, hends⟩
    refine ⟨hsessions, ?_, ?_, ?_⟩
    · intro node hnode
      exact (startsIn_eq_zero_iff (h.orderly node hnode) index).mp (hcommands node hnode)
    · intro shard started blocked hn
      obtain ⟨phase, hpos⟩ := h.positive _ hn rfl
      have hzero := hstarts _ hn
      simp only [Notice.answersIn] at hpos hzero
      split_ifs at hpos hzero <;> omega
    · intro shard how hn
      have hzero := hends _ hn
      simp [Notice.endsIn] at hzero

lemma startedIn_le_answersIn (index : Nat) (notices : List Notice) :
    startedIn index notices ≤ answersIn index notices := by
  refine List.sum_le_sum ?_
  intro n hn
  cases n with
  | started phase shard started blocked =>
    simp only [Notice.startedIn, Notice.answersIn]
    split <;> omega
  | _ => rfl

lemma Balanced.isDrained_iff {f : Fleet} {index : Nat} {p : PhaseRun} (h : f.Balanced index p) :
    p.isDrained = true ↔ f.queuedStarts index = 0 ∧ f.alive index = 0 ∧
      answersIn index f.notices = 0 ∧ endsIn index f.notices = 0 := by
  obtain ⟨hflight, hsessions, hcovered⟩ := h
  have hstarted := startedIn_le_answersIn index f.notices
  have hall := hcovered f.notices (List.suffix_refl _)
  simp only [PhaseRun.isDrained, Bool.and_eq_true, beq_iff_eq, SessionCounters.live]
  omega

def moves? (f : Fleet) : List Move → Option Fleet
  | [] => some f
  | m :: rest =>
    match f.move m with
    | some (f', outputs) => if outputs.all Output.isHarmless then f'.moves? rest else none
    | none => none

lemma Later.moves? {f f' f'' : Fleet} (h : f.Later f') {ms : List Move}
    (hm : f'.moves? ms = some f'') : f.Later f'' := by
  induction ms generalizing f' with
  | nil =>
    cases hm
    exact h
  | cons m rest ih =>
    unfold Fleet.moves? at hm
    split at hm
    · rename_i f₁ outputs hmove
      split at hm
      · rename_i hout
        exact ih (h.move hmove (List.all_eq_true.mp hout)) hm
      · cases hm
    · cases hm

def go (f : Fleet) (ms : List Move) : Fleet := (f.moves? ms).getD f

lemma Later.go (f : Fleet) (ms : List Move) : f.Later (f.go ms) := by
  unfold Fleet.go
  cases hm : f.moves? ms with
  | none => exact .refl
  | some f' => exact Later.refl.moves? hm

lemma Reachable.go {f : Fleet} (h : Reachable f) (ms : List Move) : Reachable (f.go ms) :=
  h.later (.go f ms)

/-- What the controller takes to be alive is alive: its account of each phase is that of the shards
up to what is under way, it never takes off more than there is, and a phase that counts as drained
is at rest. -/
theorem account_agrees {f : Fleet} {index : Nat} {p : PhaseRun} (h : Reachable f)
    (hp : f.controller.phases[index]? = some p) :
    p.inFlight = f.queuedStarts index + answersIn index f.notices ∧
      p.counters.ended ≤ p.counters.started ∧
      p.counters.started - p.counters.ended + startedIn index f.notices =
        f.alive index + endsIn index f.notices ∧
      (∀ shard started blocked, .started index shard started blocked ∈ f.notices →
        started + blocked ≤ p.inFlight) ∧
      (p.isDrained = true ↔ f.AtRest index) := by
  have hsane := h.sane
  obtain ⟨hflight, hsessions, hcovered⟩ := hsane.balanced index p hp
  -- What is still to be told covers every end, so the difference is not cut off at zero.
  have hall := hcovered f.notices (List.suffix_refl _)
  refine ⟨hflight, by omega, by omega, ?_, ?_⟩
  · intro shard started blocked hmem
    have hle := List.single_le_sum (l := f.notices.map (Notice.answersIn index))
      (fun _ _ => Nat.zero_le _) _ (List.mem_map_of_mem hmem)
    simp only [Notice.answersIn, if_true] at hle
    rw [hflight, answersIn]
    omega
  · rw [(hsane.balanced index p hp).isDrained_iff, atRest_iff hsane]

def crowdedPhase : Phase :=
  { Phase.simple "crowd" ⟨[⟨"s", [.delay 5]⟩], [0], [], [], 1, (∅ : OrderedMap Nat Nat).insert 0 2⟩
      (.atOnce 3) with
    maxSessions := some 2 }

def crowdedStart : Controller where
  settings := .default 1
  name := "crowd"
  phases := [.new crowdedPhase 1]
  startedAt := none
  fault := none

def crowdedMoves : List Move :=
  [.command 0 0, .start 0 0, .command 0 0, .notice 0, .timers 0 5]

def crowdedFleet : Fleet := (new crowdedStart (.empty .default)).go crowdedMoves

lemma crowdedFleet_reachable : Reachable crowdedFleet := by
  have hnew : Controller.new (.default 1) ⟨"crowd", [crowdedPhase]⟩ (fun _ => true) =
      .ok crowdedStart := rfl
  exact (Reachable.new hnew (.empty .default)).go crowdedMoves

theorem crowded_account_agrees :
    Reachable crowdedFleet ∧
      crowdedFleet.notices = [.ended 0 0 .completed, .ended 0 0 .completed] ∧
      ∃ p, crowdedFleet.controller.phases[0]? = some p ∧ p.counters = ⟨2, 1, 0, 0, 0⟩ ∧
        p.inFlight = crowdedFleet.queuedStarts 0 + answersIn 0 crowdedFleet.notices ∧
        p.counters.started - p.counters.ended + startedIn 0 crowdedFleet.notices =
          crowdedFleet.alive 0 + endsIn 0 crowdedFleet.notices ∧
        p.isDrained = false ∧ ¬ crowdedFleet.AtRest 0 := by
  have hphase : crowdedFleet.controller.phases[0]?.map (fun p => (p.counters, p.isDrained)) =
      some (⟨2, 1, 0, 0, 0⟩, false) := by decide +kernel
  obtain ⟨p, hp, hcounters⟩ := Option.map_eq_some_iff.mp hphase
  obtain ⟨hcounters, hdrained⟩ := Prod.mk.inj hcounters
  obtain ⟨hflight, -, hsessions, -, hrest⟩ := account_agrees crowdedFleet_reachable hp
  refine ⟨crowdedFleet_reachable, by decide +kernel, p, hp, hcounters, hflight, hsessions,
    hdrained, ?_⟩
  rw [← hrest, hdrained]
  decide

end Fleet

end LoadEngine
