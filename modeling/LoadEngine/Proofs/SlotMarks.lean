import LoadEngine.Proofs.FleetAudit
import LoadEngine.Proofs.FleetPassages
import LoadEngine.Proofs.SlotAttempts

/-! The slots of a phase on one node, through whatever the node does until it goes down. It makes
room for its share of the phase before anything else comes for the phase; and the mark that it tells
is the highest number of sessions that it ever had, as long as the mark is taken back only once and
no start comes after that. -/

namespace LoadEngine

namespace Shard

variable {s s' : Shard} {index slots top : Nat}

def mark (s : Shard) (index : Nat) : Nat :=
  match s.lanes.get? index with
  | some lane => lane.sessions.maxUsed
  | none => 0

def looks (s : Shard) (now : Nanos) (index : Nat) : Deed → List Attempt
  | .command (.start phase count) => if phase = index then attempts now index count s else []
  | _ => []

lemma Seats.mark_eq (h : s.Seats index slots top) : s.mark index = top := by
  obtain ⟨lane, hlane, hseats⟩ := h
  simp only [Shard.mark, hlane]
  exact hseats.marked

lemma mark_of_none (h : s.lanes.get? index = none) : s.mark index = 0 := by
  simp only [mark, h]

lemma Recedes.none (h : Recedes index s s') (hnone : s.lanes.get? index = none) :
    s'.lanes.get? index = none := by
  have hlanes := h.lanes
  rw [hnone] at hlanes
  cases hlane : s'.lanes.get? index with
  | none => rfl
  | some lane =>
    rw [hlane] at hlanes
    cases hlanes

lemma looks_of_seats {deed : Deed} (h : deed.seats index = false) (s : Shard) (now : Nanos) :
    s.looks now index deed = [] := by
  unfold looks
  split
  · rename_i phase count
    exact if_neg (by simpa [Deed.seats] using h)
  · rfl

end Shard

namespace Node

variable {n n' : Node} {now : Nanos} {deed : Deed} {outputs : List Output} {index share : Nat}
  {extra : List Command}

structure Acted (n : Node) (now : Nanos) (deed : Deed) (n' : Node) (outputs : List Output) :
    Prop where
  running : n.running = true
  shard : n'.shard = (n.shard.perform now deed).1
  told : outputs <+: (n.shard.perform now deed).2
  queue : ∃ rest, n.commands = deed.command?.toList ++ rest ∧
    (n'.commands = rest ∧ outputs = (n.shard.perform now deed).2 ∧
        .crash ∉ (n.shard.perform now deed).2 ∨
      n'.commands = [] ∧ n'.running = false)

lemma Acts.acted (h : n.Acts now deed n' outputs) (hup : .crash ∉ outputs) :
    n.Acted now deed n' outputs where
  running := h.running
  shard := h.shard
  told := h.told ▸ List.prefix_refl _
  queue := by
    obtain ⟨rest, hqueue, ⟨hrest, -⟩ | hdown⟩ := h.queue
    · exact ⟨rest, hqueue, .inl ⟨hrest, h.told, h.told ▸ hup⟩⟩
    · exact ⟨rest, hqueue, .inr hdown⟩

lemma Acts.fallen {before after : List Output} (h : n.Acts now deed n' (before ++ after)) :
    n.Acted now deed n'.stop before where
  running := h.running
  shard := h.shard
  told := h.told ▸ List.prefix_append before after
  queue := by
    obtain ⟨rest, hqueue, -⟩ := h.queue
    exact ⟨rest, hqueue, .inr ⟨rfl, rfl⟩⟩

lemma Acted.subset (h : n.Acted now deed n' outputs) : ∀ c ∈ n'.commands, c ∈ n.commands := by
  obtain ⟨rest, hqueue, ⟨hrest, -⟩ | ⟨hnone, -⟩⟩ := h.queue
  · intro c hc
    rw [hqueue, ← hrest]
    exact List.mem_append_right _ hc
  · rw [hnone]
    exact nofun

lemma Acted.mem {c : Command} (h : n.Acted now (.command c) n' outputs) : c ∈ n.commands := by
  obtain ⟨rest, hqueue, -⟩ := h.queue
  rw [hqueue]
  exact List.mem_cons_self

/-- A node has its share of slots for a phase, or it is to make room for them before anything else
comes for the phase. One that went down before that never has them. -/
inductive Roomed (n : Node) (index share : Nat) : Prop
  | seats (h : n.shard.Seats index (Pool.numbered share) (n.shard.mark index))
      (hdone : ∀ c ∈ n.commands, c.prepares index = false)
  | awaits (hnone : n.shard.lanes.get? index = none)
      (hqueue : n.running = true → ∃ before name scenario after,
        n.commands = before ++ .prepare index name scenario share :: after ∧
        (∀ c ∈ before, c.isPrepare = true ∧ c.prepares index = false) ∧
        ∀ c ∈ after, c.prepares index = false)

lemma Roomed.of_seats {top : Nat} (h : n.shard.Seats index (Pool.numbered share) top)
    (hdone : ∀ c ∈ n.commands, c.prepares index = false) : n.Roomed index share := by
  refine .seats ?_ hdone
  rw [h.mark_eq]
  exact h

lemma Roomed.enqueue (h : n.Roomed index share) (hextra : ∀ c ∈ extra, c.isPrepare = false) :
    (n.enqueue extra).Roomed index share := by
  have hplain : ∀ c ∈ extra, c.prepares index = false := by
    intro c hc
    have hc := hextra c hc
    cases c with
    | prepare => cases hc
    | _ => rfl
  cases h with
  | seats hseats hdone => exact .seats hseats (List.forall_mem_append.mpr ⟨hdone, hplain⟩)
  | awaits hnone hqueue =>
    refine .awaits hnone fun hrunning => ?_
    obtain ⟨before, name, scenario, after, heq, hbefore, hafter⟩ := hqueue hrunning
    refine ⟨before, name, scenario, after ++ extra, ?_, hbefore,
      List.forall_mem_append.mpr ⟨hafter, hplain⟩⟩
    rw [Node.enqueue, heq, List.append_assoc, List.cons_append]

lemma Roomed.deliver (h : n.Roomed index share) (events : List Event) :
    (n.deliver events).Roomed index share := by
  unfold Node.deliver
  split
  · cases h with
    | seats hseats hdone => exact .seats hseats hdone
    | awaits hnone hqueue => exact .awaits hnone hqueue
  · exact h

structure Reckons (n : Node) (now : Nanos) (deed : Deed) (n' : Node) (index share : Nat) :
    Prop where
  roomed : n'.Roomed index share
  mark : n'.shard.mark index ≤ max (n.shard.mark index) (crest (n.shard.looks now index deed))
  kept : deed ≠ .command (.collect index true) →
    n'.shard.mark index = max (n.shard.mark index) (crest (n.shard.looks now index deed))
  full : ∀ a ∈ n.shard.looks now index deed, a.there ≤ Pool.numbered share ∧
    (a.blocked = true ↔ a.there = Pool.numbered share)
  blocked : blockedIn index (noticesOf (n.shard.perform now deed).2) =
    (n.shard.looks now index deed).countP Attempt.blocked
  few : ∀ a ∈ n.shard.looks now index deed,
    a.there < n.shard.alive index + startsIn index n.commands
  missed : 0 < Pool.numbered share → 0 < blockedIn index (noticesOf (n.shard.perform now deed).2) →
    0 < n.shard.alive index + startedIn index (noticesOf (n.shard.perform now deed).2)

lemma Roomed.alive_le (h : n.Roomed index share) : n.shard.alive index ≤ n.shard.mark index := by
  cases h with
  | seats hseats hdone => exact hseats.alive_le
  | awaits hnone hqueue =>
    rw [Shard.alive_of_none hnone]
    exact Nat.zero_le _

lemma Reckons.of_quiet (hlooks : n.shard.looks now index deed = [])
    (hdeed : ∀ count, deed ≠ .command (.start index count)) (hroomed : n'.Roomed index share)
    (hmark : n'.shard.mark index ≤ n.shard.mark index)
    (hkept : deed ≠ .command (.collect index true) →
      n'.shard.mark index = n.shard.mark index) : n.Reckons now deed n' index share := by
  have hcrest : max (n.shard.mark index) (crest []) = n.shard.mark index := Nat.max_zero _
  have hnone := Shard.perform_blockedIn hdeed n.shard now
  refine ⟨hroomed, ?_, ?_, ?_, ?_, ?_, ?_⟩
  · rwa [hlooks, hcrest]
  · rwa [hlooks, hcrest]
  · rw [hlooks]
    exact List.forall_mem_nil _
  · rw [hlooks]
    exact hnone
  · rw [hlooks]
    exact List.forall_mem_nil _
  · rw [hnone]
    exact fun _ hpos => absurd hpos (lt_irrefl 0)

lemma Reckons.of_steady (hdeed : deed.seats index = false) (hroomed : n'.Roomed index share)
    (hmark : n'.shard.mark index = n.shard.mark index) : n.Reckons now deed n' index share := by
  refine .of_quiet (Shard.looks_of_seats hdeed n.shard now) ?_ hroomed hmark.le fun _ => hmark
  rintro count rfl
  simp [Deed.seats] at hdeed

lemma Reckons.of_start {count : Nat}
    (hseats : n.shard.Seats index (Pool.numbered share) (n.shard.mark index))
    (ha : n.Acted now (.command (.start index count)) n' outputs)
    (hdone : ∀ c ∈ n'.commands, c.prepares index = false) :
    n.Reckons now (.command (.start index count)) n' index share := by
  obtain ⟨hseats', hblocked, hfull, hfew, hmissed⟩ := hseats.start now count
  have hlooks : n.shard.looks now index (.command (.start index count)) =
      n.shard.attempts now index count := if_pos rfl
  have hshard : n'.shard = (n.shard.start now index count).1 := ha.shard
  rw [← hshard] at hseats'
  refine ⟨.of_seats hseats' hdone, ?_, ?_, ?_, ?_, ?_, hmissed⟩
  · rw [hlooks]
    exact hseats'.mark_eq.le
  · intro _
    rw [hlooks]
    exact hseats'.mark_eq
  · rw [hlooks]
    exact hfull
  · rw [hlooks]
    exact hblocked
  · rw [hlooks]
    obtain ⟨rest, hqueue, -⟩ := ha.queue
    have hcount : count ≤ startsIn index n.commands := by
      rw [hqueue]
      simp only [Deed.command?, Option.toList_some, List.singleton_append, startsIn_cons,
        Command.startsIn, if_true]
      exact Nat.le_add_right _ _
    exact fun a ha => (hfew a ha).trans_le (Nat.add_le_add_left hcount _)

lemma Reckons.of_collect
    (hseats : n.shard.Seats index (Pool.numbered share) (n.shard.mark index))
    (ha : n.Acted now (.command (.collect index true)) n' outputs)
    (hdone : ∀ c ∈ n'.commands, c.prepares index = false) :
    n.Reckons now (.command (.collect index true)) n' index share := by
  obtain ⟨-, hseats'⟩ := hseats.collect true
  have hshard : n'.shard = (n.shard.collect index true).1 := ha.shard
  rw [if_pos rfl, ← hshard] at hseats'
  refine .of_quiet rfl (fun count h => by cases h) (.of_seats hseats' hdone) ?_
    fun hne => absurd rfl hne
  rw [hseats'.mark_eq]
  exact hseats.alive_le

lemma Reckons.of_prepare {name : String} {scenario : Scenario}
    (hnone : n.shard.lanes.get? index = none)
    (ha : n.Acted now (.command (.prepare index name scenario share)) n' outputs)
    (hdone : ∀ c ∈ n'.commands, c.prepares index = false) :
    n.Reckons now (.command (.prepare index name scenario share)) n' index share := by
  have hshard := ha.shard
  cases hroom : Shard.hasRoom index scenario share with
  | true =>
    have hseats : n'.shard.Seats index (Pool.numbered share) 0 :=
      hshard ▸ Shard.prepare_seats hroom n.shard now
    have hmark : n'.shard.mark index = n.shard.mark index :=
      hseats.mark_eq.trans (Shard.mark_of_none hnone).symm
    exact .of_quiet rfl (fun count h => by cases h) (.of_seats hseats hdone) hmark.le
      fun _ => hmark
  | false =>
    have hperform : n.shard.perform now (.command (.prepare index name scenario share)) =
        (n.shard, [.crash]) := by
      simp only [Shard.perform, Shard.handleCommand, hroom]
      rfl
    rw [hperform] at hshard
    have hdown : n'.running = false := by
      obtain ⟨rest, -, ⟨-, -, hnot⟩ | ⟨-, hdown⟩⟩ := ha.queue
      · rw [hperform] at hnot
        exact absurd List.mem_cons_self hnot
      · exact hdown
    have hroomed : n'.Roomed index share := by
      refine .awaits (hshard ▸ hnone) fun hrunning => ?_
      rw [hdown] at hrunning
      cases hrunning
    have hmark : n'.shard.mark index = n.shard.mark index := by rw [hshard]
    exact .of_quiet rfl (fun count h => by cases h) hroomed hmark.le fun _ => hmark

lemma Reckons.of_seats
    (hseats : n.shard.Seats index (Pool.numbered share) (n.shard.mark index))
    (hdone : ∀ c ∈ n.commands, c.prepares index = false) (ha : n.Acted now deed n' outputs) :
    n.Reckons now deed n' index share := by
  have hdone' : ∀ c ∈ n'.commands, c.prepares index = false :=
    fun c hc => hdone c (ha.subset c hc)
  cases hdeed : deed.seats index with
  | false =>
    have hrecedes := Shard.perform_recedes hdeed n.shard now
    rw [← ha.shard] at hrecedes
    have hseats' := hseats.recedes hrecedes
    exact .of_steady hdeed (.of_seats hseats' hdone') hseats'.mark_eq
  | true =>
    unfold Deed.seats at hdeed
    split at hdeed
    · have hprepares := hdone _ ha.mem
      rw [Command.prepares, hdeed] at hprepares
      cases hprepares
    · obtain rfl := beq_iff_eq.mp hdeed
      exact .of_start hseats ha hdone'
    · obtain rfl := beq_iff_eq.mp hdeed
      exact .of_collect hseats ha hdone'
    · cases hdeed

lemma Reckons.of_awaits {before after : List Command} {name : String} {scenario : Scenario}
    (hnone : n.shard.lanes.get? index = none)
    (hqueue : n.commands = before ++ .prepare index name scenario share :: after)
    (hbefore : ∀ c ∈ before, c.isPrepare = true ∧ c.prepares index = false)
    (hafter : ∀ c ∈ after, c.prepares index = false) (ha : n.Acted now deed n' outputs) :
    n.Reckons now deed n' index share := by
  obtain ⟨rest, hrest, hout⟩ := ha.queue
  have hup (hrunning : n'.running = true) : n'.commands = rest := by
    obtain ⟨h, -⟩ | ⟨-, hdown⟩ := hout
    · exact h
    · rw [hrunning] at hdown
      cases hdown
  have hsteady (hdeed : deed.seats index = false)
      (hawaits : ∃ before, rest = before ++ .prepare index name scenario share :: after ∧
        ∀ c ∈ before, c.isPrepare = true ∧ c.prepares index = false) :
      n.Reckons now deed n' index share := by
    have hrecedes := Shard.perform_recedes hdeed n.shard now
    rw [← ha.shard] at hrecedes
    have hnone' := hrecedes.none hnone
    refine .of_steady hdeed (.awaits hnone' fun hrunning => ?_) ?_
    · obtain ⟨before, hlater, hbefore⟩ := hawaits
      exact ⟨before, name, scenario, after, (hup hrunning).trans hlater, hbefore, hafter⟩
    · rw [Shard.mark_of_none hnone', Shard.mark_of_none hnone]
  rw [hqueue] at hrest
  cases deed with
  | event | timers => exact hsteady rfl ⟨before, hrest.symm, hbefore⟩
  | command c =>
    cases before with
    | cons d before =>
      obtain ⟨rfl, hlater⟩ := List.cons.inj hrest
      obtain ⟨⟨hprepare, hother⟩, hbefore⟩ := List.forall_mem_cons.mp hbefore
      refine hsteady ?_ ⟨before, hlater.symm, hbefore⟩
      cases d with
      | prepare => exact hother
      | _ => cases hprepare
    | nil =>
      obtain ⟨rfl, hlater⟩ := List.cons.inj hrest
      refine .of_prepare hnone ha fun c hc => ?_
      obtain ⟨hcommands, -⟩ | ⟨hcommands, -⟩ := hout
      · rw [hcommands] at hc
        exact hafter c (hlater ▸ hc)
      · rw [hcommands] at hc
        cases hc

lemma Roomed.acted (h : n.Roomed index share) (ha : n.Acted now deed n' outputs) :
    n.Reckons now deed n' index share := by
  cases h with
  | seats hseats hdone => exact .of_seats hseats hdone ha
  | awaits hnone hqueue =>
    obtain ⟨before, name, scenario, after, heq, hbefore, hafter⟩ := hqueue ha.running
    exact .of_awaits hnone heq hbefore hafter ha

/-- The mark of the node with number `i` fits, unless it was taken back: then what fits is in the
answer, and nothing is started there any more. -/
inductive Tally (n : Node) (index i : Nat) (fits : Nat → Prop) : Option Inquiry → Prop
  | idle (hnone : questions n.commands = []) (hmark : fits (n.shard.mark index)) :
      Tally n index i fits none
  | asked {q : Inquiry} (hanswer : q.answers[i]? = some none)
      (hquestions : questions n.commands <+: [(q.index, q.reset)])
      (hmark : fits (n.shard.mark index))
      (hlast : ∀ before after, n.commands = before ++ .collect index true :: after →
        ∀ count, .start index count ∉ after) : Tally n index i fits (some q)
  | answered {q : Inquiry} {snapshot : PhaseSnapshot}
      (hanswer : q.answers[i]? = some (some snapshot)) (hnone : questions n.commands = [])
      (hmark : ¬ (q.index = index ∧ q.reset = true) → fits (n.shard.mark index))
      (hsnapshot : q.index = index → q.reset = true → fits snapshot.maxUsed ∧
        ∀ count, .start index count ∉ n.commands) : Tally n index i fits (some q)

def Lost (n : Node) (i : Nat) (inquiry : Option Inquiry) : Prop :=
  n.running = false ∧ ∀ q ∈ inquiry, q.answers[i]? = some none

variable {i : Nat} {fits fits' : Nat → Prop} {inquiry : Option Inquiry}

lemma not_mem_of_questions {commands : List Command} (h : questions commands = []) (phase : Nat)
    (reset : Bool) : .collect phase reset ∉ commands := by
  intro hmem
  have hasked : (phase, reset) ∈ questions commands := List.mem_filterMap.mpr ⟨_, hmem, rfl⟩
  rw [h] at hasked
  cases hasked

lemma Tally.mono (h : n.Tally index i fits inquiry) (hfits : ∀ top, fits top → fits' top) :
    n.Tally index i fits' inquiry := by
  cases h with
  | idle hnone hmark => exact .idle hnone (hfits _ hmark)
  | asked hanswer hquestions hmark hlast =>
    exact .asked hanswer hquestions (hfits _ hmark) hlast
  | answered hanswer hnone hmark hsnapshot =>
    exact .answered hanswer hnone (fun hq => hfits _ (hmark hq)) fun hindex hreset =>
      (hsnapshot hindex hreset).imp_left (hfits _)

lemma Tally.deliver (h : n.Tally index i fits inquiry) (events : List Event) :
    (n.deliver events).Tally index i fits inquiry := by
  unfold Node.deliver
  split
  · cases h with
    | idle hnone hmark => exact .idle hnone hmark
    | asked hanswer hquestions hmark hlast => exact .asked hanswer hquestions hmark hlast
    | answered hanswer hnone hmark hsnapshot => exact .answered hanswer hnone hmark hsnapshot
  · exact h

lemma Tally.enqueue (h : n.Tally index i fits none)
    (hextra : ∀ c ∈ extra, ∃ phase, c.concerns phase = true) :
    (n.enqueue extra).Tally index i fits none := by
  cases h with
  | idle hnone hmark =>
    refine .idle ?_ hmark
    rw [Node.enqueue, questions_append, hnone, questions_of_concerns hextra]
    rfl

lemma Tally.ask (h : n.Tally index i fits none) {phase nodes : Nat} {reset : Bool}
    (hi : i < nodes) (hextra : extra <+: [.collect phase reset]) :
    (n.enqueue extra).Tally index i fits (some (.new phase reset nodes)) := by
  cases h with
  | idle hnone hmark =>
    have hmem := not_mem_of_questions hnone index true
    refine .asked ?_ ?_ hmark ?_
    · simp [Inquiry.new, hi]
    · rw [Node.enqueue, questions_append, hnone, List.nil_append]
      exact hextra.filterMap _
    · intro before after hqueue count hstart
      rw [Node.enqueue, List.append_eq_append_iff] at hqueue
      obtain ⟨more, -, hqueue⟩ | ⟨more, hqueue, hafter⟩ := hqueue
      · -- what is behind the question comes out of a queue of one
        have hlength := hextra.length_le
        rw [hqueue, List.length_append, List.length_cons, List.length_singleton] at hlength
        obtain rfl : after = [] := List.length_eq_zero_iff.mp (by omega)
        cases hstart
      · cases more with
        | nil =>
          have hlength := hextra.length_le
          simp only [List.nil_append] at hafter
          rw [← hafter, List.length_cons, List.length_singleton] at hlength
          obtain rfl : after = [] := List.length_eq_zero_iff.mp (by omega)
          cases hstart
        | cons c more =>
          obtain ⟨rfl, -⟩ := List.cons.inj hafter
          exact hmem (hqueue ▸ List.mem_append_right _ List.mem_cons_self)

lemma looks_of_not_mem (ha : n.Acted now deed n' outputs)
    (h : ∀ count, .start index count ∉ n.commands) : n.shard.looks now index deed = [] := by
  unfold Shard.looks
  split
  · rename_i phase count
    refine if_neg ?_
    rintro rfl
    exact h count ha.mem
  · rfl

end Node

namespace Shard

lemma collect_maxUsed (s : Shard) (index : Nat) (reset : Bool) :
    (s.collect index reset).2.maxUsed = s.mark index := by
  unfold collect mark
  cases s.lanes.get? index with
  | none => rfl
  | some lane => rfl

end Shard

namespace Node

variable {n n' : Node} {now : Nanos} {deed : Deed} {outputs : List Output} {index share i : Nat}
  {fits fits' : Nat → Prop} {inquiry : Option Inquiry}

lemma Acted.silent (ha : n.Acted now deed n' outputs)
    (hdeed : ∀ phase reset, deed ≠ .command (.collect phase reset)) :
    outputs.findSome? Output.snapshot? = none := by
  have hsilent := Shard.perform_silent hdeed n.shard now
  exact List.findSome?_eq_none_iff.mpr fun o ho => hsilent o (ha.told.subset ho)

lemma Acted.questions_eq (ha : n.Acted now deed n' outputs)
    (hdeed : ∀ phase reset, deed ≠ .command (.collect phase reset)) :
    questions n'.commands = questions n.commands ∨ questions n'.commands = [] := by
  obtain ⟨rest, hqueue, ⟨hrest, -⟩ | ⟨hnone, -⟩⟩ := ha.queue
  · left
    rw [hqueue, hrest, questions_append]
    cases deed with
    | command c =>
      cases c with
      | collect phase reset => exact absurd rfl (hdeed phase reset)
      | _ => rfl
    | _ => rfl
  · right
    rw [hnone]
    rfl

lemma Tally.answers {phase : Nat} {reset : Bool} (h : n.Tally index i fits inquiry)
    (hr : n.Reckons now (.command (.collect phase reset)) n' index share)
    (ha : n.Acted now (.command (.collect phase reset)) n' outputs) :
    n'.Tally index i fits (inquiry.map fun q => q.hear i outputs) ∨
      n'.Lost i (inquiry.map fun q => q.hear i outputs) := by
  have hmem := ha.mem
  cases h with
  | idle hnone => exact absurd hmem (not_mem_of_questions hnone phase reset)
  | answered _ hnone => exact absurd hmem (not_mem_of_questions hnone phase reset)
  | @asked q hanswer hquestions hmark hlast =>
    obtain ⟨rest, hqueue, hrest⟩ := ha.queue
    have hquestions' : (phase, reset) :: questions rest <+: [(q.index, q.reset)] := by
      have heq : questions n.commands = (phase, reset) :: questions rest := by
        rw [hqueue]
        rfl
      rwa [← heq]
    obtain ⟨hsame, hnil⟩ := List.cons_prefix_cons.mp hquestions'
    obtain ⟨rfl, rfl⟩ := Prod.mk.inj hsame
    have hnone : questions rest = [] := List.prefix_nil.mp hnil
    have hcommands : n'.commands = rest ∨ n'.commands = [] := by
      rcases hrest with ⟨h, -⟩ | ⟨h, -⟩
      · exact .inl h
      · exact .inr h
    -- the answer may have got lost when the node went down
    rcases outputs with _ | ⟨o, more⟩
    · refine .inr ⟨?_, fun q' hq' => ?_⟩
      · rcases hrest with ⟨-, hout, -⟩ | ⟨-, hdown⟩
        · cases hout
        · exact hdown
      · cases hq'
        exact hanswer
    · have htold := ha.told
      obtain ⟨rfl, hmore⟩ := List.cons_prefix_cons.mp htold
      obtain rfl := List.prefix_nil.mp hmore
      have hi := (List.getElem?_eq_some_iff.mp hanswer).1
      have hnow : (q.answers.set i (some (n.shard.collect q.index q.reset).2))[i]? = _ :=
        List.getElem?_set_self hi
      refine .inl (.answered hnow ?_ ?_ ?_)
      · rcases hcommands with h | h <;> rw [h]
        · exact hnone
        · rfl
      · intro hother
        have hkept := hr.kept fun hdeed => by
          injection hdeed with hdeed
          injection hdeed with hindex hreset
          exact hother ⟨hindex, hreset⟩
        rw [hkept.trans (Nat.max_zero _)]
        exact hmark
      · intro hindex hreset
        have hindex : q.index = index := hindex
        have hreset : q.reset = true := hreset
        subst hindex
        rw [Shard.collect_maxUsed]
        refine ⟨hmark, fun count hstart => ?_⟩
        rw [hreset] at hqueue
        refine hlast [] rest hqueue count ?_
        rcases hcommands with h | h <;> rw [h] at hstart
        · exact hstart
        · cases hstart

lemma Tally.goes (h : n.Tally index i fits inquiry) (hr : n.Reckons now deed n' index share)
    (ha : n.Acted now deed n' outputs)
    (hask : ∀ phase reset, deed ≠ .command (.collect phase reset))
    (hfits : ∀ top, fits top → fits' (max top (crest (n.shard.looks now index deed)))) :
    n'.Tally index i fits' (inquiry.map fun q => q.hear i outputs) := by
  have hkept := hr.kept (hask index true)
  have hsilent := ha.silent hask
  have hquestions := ha.questions_eq hask
  have hhear (q : Inquiry) : q.hear i outputs = q := Fleet.hear_of_silent q i hsilent
  cases h with
  | idle hnone hmark =>
    refine .idle ?_ (hkept ▸ hfits _ hmark)
    rcases hquestions with h | h
    · exact h.trans hnone
    · exact h
  | asked hanswer hasked hmark hlast =>
    rw [Option.map_some, hhear]
    refine .asked hanswer ?_ (hkept ▸ hfits _ hmark) fun before after hqueue' count => ?_
    · rcases hquestions with h | h <;> rw [h]
      · exact hasked
      · exact List.nil_prefix
    · obtain ⟨rest, hqueue, ⟨hrest, -⟩ | ⟨hnone, -⟩⟩ := ha.queue
      · refine hlast (deed.command?.toList ++ before) after ?_ count
        rw [hqueue, ← hrest, hqueue', List.append_assoc]
      · rw [hnone] at hqueue'
        simp at hqueue'
  | answered hanswer hnone hmark hsnapshot =>
    rw [Option.map_some, hhear]
    refine .answered hanswer ?_ (fun hother => hkept ▸ hfits _ (hmark hother))
      fun hindex hreset => ?_
    · rcases hquestions with h | h
      · exact h.trans hnone
      · exact h
    · obtain ⟨hhigh, hstarts⟩ := hsnapshot hindex hreset
      have hnext := hfits _ hhigh
      rw [looks_of_not_mem ha hstarts] at hnext
      rw [← Nat.max_zero (PhaseSnapshot.maxUsed _)]
      exact ⟨hnext, fun count hmem => hstarts count (ha.subset _ hmem)⟩

lemma Tally.acted (h : n.Tally index i fits inquiry) (hr : n.Reckons now deed n' index share)
    (ha : n.Acted now deed n' outputs)
    (hfits : ∀ top, fits top → fits' (max top (crest (n.shard.looks now index deed)))) :
    n'.Tally index i fits' (inquiry.map fun q => q.hear i outputs) ∨
      n'.Lost i (inquiry.map fun q => q.hear i outputs) := by
  by_cases hask : ∃ phase reset, deed = .command (.collect phase reset)
  · obtain ⟨phase, reset, rfl⟩ := hask
    refine (h.answers hr ha).imp_left fun htally => htally.mono fun top htop => ?_
    rw [← Nat.max_zero top]
    exact hfits top htop
  · push Not at hask
    exact .inl (h.goes hr ha hask hfits)

end Node

end LoadEngine
