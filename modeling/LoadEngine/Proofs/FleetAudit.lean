import LoadEngine.Proofs.ForcedEnd
import LoadEngine.Proofs.ShardAnswers

/-! A fleet with the books of its shards, and what they said of each shard when it answered the open
question. A shard that has not answered has the question in its queue, once, and nothing else there
asks for anything; so each answer is to the question, and it says what the books say. -/

namespace LoadEngine

def Command.question? : Command → Option (Nat × Bool)
  | collect phase reset => some (phase, reset)
  | _ => none

def questions (commands : List Command) : List (Nat × Bool) := commands.filterMap Command.question?

lemma questions_append (a b : List Command) : questions (a ++ b) = questions a ++ questions b :=
  List.filterMap_append

lemma questions_of_concerns {commands : List Command}
    (h : ∀ c ∈ commands, ∃ index, c.concerns index = true) : questions commands = [] := by
  refine List.filterMap_eq_nil_iff.mpr fun c hc => ?_
  obtain ⟨index, hconcerns⟩ := h c hc
  cases c with
  | collect => cases hconcerns
  | _ => rfl

namespace Node

variable {n n' : Node} {now : Nanos} {deed : Deed} {outputs : List Output}

inductive Replies (n n' : Node) : Deed → List Output → Prop
  | answers {phase : Nat} {reset : Bool}
      (hqueue : questions n.commands = (phase, reset) :: questions n'.commands) :
      Replies n n' (.command (.collect phase reset))
        [.snapshot phase (n.shard.collect phase reset).2]
  | other {deed : Deed} {outputs : List Output}
      (hdeed : ∀ phase reset, deed ≠ .command (.collect phase reset))
      (hqueue : questions n'.commands = questions n.commands)
      (hsilent : outputs.findSome? Output.snapshot? = none) : Replies n n' deed outputs

lemma Does.replies (h : n.Does now deed n' outputs) : n.Replies n' deed outputs := by
  by_cases hask : ∃ phase reset, deed = .command (.collect phase reset)
  · obtain ⟨phase, reset, rfl⟩ := hask
    rw [h.told]
    refine .answers ?_
    rw [h.commands]
    rfl
  · push Not at hask
    refine .other hask ?_ ?_
    · rw [h.commands, questions_append]
      cases deed with
      | command c =>
        cases c with
        | collect phase reset => exact absurd rfl (hask phase reset)
        | _ => rfl
      | _ => rfl
    · rw [h.told]
      exact List.findSome?_eq_none_iff.mpr (Shard.perform_silent hask n.shard now)

end Node

namespace Fleet

variable {f f' : Fleet} {ls ls' : List Ledger} {told : List (Option Ledger)} {m : Move}
  {outputs : List Output} {actor : Option Nat} {sent : List Dispatch} {shape : Histogram.Shape}

/-- What becomes of the books in a move: those of the node that makes it go on. -/
inductive Writes (f : Fleet) (ls : List Ledger) (f' : Fleet) (outputs : List Output) :
    Option Nat → List Ledger → Prop
  | rests : Writes f ls f' outputs none ls
  | writes {shard : Nat} {now : Nanos} {deed : Deed} {node node' : Node} {l l' : Ledger}
      (hnode : f.nodes[shard]? = some node) (hnode' : f'.nodes[shard]? = some node')
      (hl : ls[shard]? = some l) (hdoes : node.Does now deed node' outputs)
      (hlogs : node.shard.Logs l deed (node'.shard, outputs) l') :
      Writes f ls f' outputs (some shard) (ls.set shard l')

/-- What the books said of the shards when they answered: nothing while no question is open, and
then what they say of a shard that gives its answer. -/
def heard (f : Fleet) (ls : List Ledger) (told : List (Option Ledger)) (actor : Option Nat)
    (outputs : List Output) : List (Option Ledger) :=
  match f.inquiry, actor, outputs.findSome? Output.snapshot? with
  | none, _, _ => List.replicate ls.length none
  | some _, some shard, some _ => told.set shard ls[shard]?
  | _, _, _ => told

/-- The states that a fleet comes to while no contract is broken and no node goes down, with the
books of its shards from the first moment on. Nothing has been recorded in the beginning, and all
histograms are of the shape that the settings ask for. -/
inductive Audited : Histogram.Shape → Fleet → List Ledger → List (Option Ledger) → Prop
  | new {settings : Settings} {benchmark : Benchmark} {known : String → Bool} {c : Controller}
      (h : Controller.new settings benchmark known = .ok c) :
      Audited settings.shape (Fleet.new c (.empty settings.shape))
        (List.replicate settings.shards .empty) (List.replicate settings.shards none)
  | move {shape : Histogram.Shape} {f f' : Fleet} {ls ls' : List Ledger}
      {told : List (Option Ledger)} {m : Move} {outputs : List Output}
      (h : Audited shape f ls told) (hm : f.move m = some (f', outputs)) (hout : Harmless outputs)
      (hw : f.Writes ls f' outputs m.shard? ls') :
      Audited shape f' ls' (f.heard ls told m.shard? outputs)

lemma Audited.reachable (h : Audited shape f ls told) : Reachable f := by
  induction h with
  | new h => exact .new h _
  | move _ hm hout _ ih => exact ih.move hm hout

lemma Writes.length (hw : f.Writes ls f' outputs actor ls') : ls'.length = ls.length := by
  cases hw with
  | rests => rfl
  | writes => exact List.length_set

lemma Audited.length (h : Audited shape f ls told) : ls.length = f.nodes.length := by
  induction h with
  | new h => simp [Fleet.new, (Controller.new_ok h).2]
  | move h hm hout hw ih =>
    obtain ⟨sent, hstep⟩ := h.reachable.sane.step hm
    rw [hw.length, ih, hstep.length]

lemma Audited.goes (h : Audited shape f ls told) (hm : f.move m = some (f', outputs))
    (hout : Harmless outputs) : ∃ ls' told', Audited shape f' ls' told' := by
  obtain ⟨sent, hstep⟩ := h.reachable.sane.step hm
  suffices hw : ∃ ls', f.Writes ls f' outputs m.shard? ls' by
    obtain ⟨ls', hw⟩ := hw
    exact ⟨ls', _, h.move hm hout hw⟩
  generalize m.shard? = actor at hstep
  cases hstep with
  | directs | asks | concludes | delivers => exact ⟨ls, .rests⟩
  | @serves shard now deed node node' outputs hnode hdoes =>
    have hlt := (List.getElem?_eq_some_iff.mp hnode).1
    have hshard : shard < ls.length := h.length ▸ hlt
    have hl := List.getElem?_eq_getElem hshard
    obtain ⟨l', hlogs⟩ := hdoes.logs ls[shard]
    exact ⟨_, .writes hnode (List.getElem?_set_self hlt) hl hdoes hlogs⟩

lemma Audited.later (h : Audited shape f ls told) (hl : f.Later f') :
    ∃ ls' told', Audited shape f' ls' told' := by
  induction hl with
  | refl => exact ⟨ls, told, h⟩
  | move _ hm hout ih =>
    obtain ⟨ls', told', h'⟩ := ih
    exact h'.goes hm hout

lemma Writes.node (hw : f.Writes ls f' outputs actor ls') (hstep : Step f actor sent f' outputs)
    (h : f.Sane) {shard : Nat} {node' : Node} {l' : Ledger} (hnode' : f'.nodes[shard]? = some node')
    (hl' : ls'[shard]? = some l') :
    ∃ node l, f.nodes[shard]? = some node ∧ ls[shard]? = some l ∧
      ((actor ≠ some shard ∧ l' = l ∧ node'.shard = node.shard ∧
        node'.commands = node.commands ++ sentTo shard sent) ∨
      (actor = some shard ∧ sent = [] ∧ ∃ now deed, node.Does now deed node' outputs ∧
        node.shard.Logs l deed (node'.shard, outputs) l')) := by
  have hlt := (List.getElem?_eq_some_iff.mp hnode').1
  rw [hstep.length] at hlt
  obtain ⟨node'', hnode'', hcases⟩ := hstep.node h (List.getElem?_eq_getElem hlt)
  rw [hnode', Option.some.injEq] at hnode''
  subst hnode''
  have hnode := List.getElem?_eq_getElem hlt
  cases hw with
  | rests =>
    obtain ⟨hactor, hshard, hcommands⟩ | ⟨hactor, -⟩ := hcases
    · exact ⟨_, l', hnode, hl', .inl ⟨hactor, rfl, hshard, hcommands⟩⟩
    · cases hactor
  | @writes i now deed old new l l'' hold hnew hl hdoes hlogs =>
    by_cases hi : i = shard
    · subst hi
      rw [List.getElem?_set_self (List.getElem?_eq_some_iff.mp hl).1, Option.some.injEq] at hl'
      rw [hnode', Option.some.injEq] at hnew
      subst hl' hnew
      have hsent : sent = [] := by
        obtain ⟨hactor, -⟩ | ⟨-, hsent, -⟩ := hcases
        · exact absurd rfl hactor
        · exact hsent
      exact ⟨old, l, hold, hl, .inr ⟨rfl, hsent, now, deed, hdoes, hlogs⟩⟩
    · rw [List.getElem?_set_ne hi] at hl'
      obtain ⟨hactor, hshard, hcommands⟩ | ⟨hactor, -⟩ := hcases
      · exact ⟨_, l', hnode, hl', .inl ⟨hactor, rfl, hshard, hcommands⟩⟩
      · exact absurd (Option.some.inj hactor) hi

theorem Audited.booked (h : Audited shape f ls told) (hbuilt : f.Built) {shard : Nat} {node : Node}
    {l : Ledger} (hnode : f.nodes[shard]? = some node) (hl : ls[shard]? = some l) :
    node.Booked l ∧ node.shard.template = .empty shape := by
  induction h generalizing node l with
  | new h =>
    have hmem := List.mem_of_getElem? hnode
    obtain rfl := List.eq_of_mem_replicate (List.mem_of_getElem? hl)
    refine ⟨new_booked hbuilt hmem, ?_⟩
    obtain ⟨i, -, rfl⟩ := List.mem_map.mp hmem
    rfl
  | move h hm hout hw ih =>
    have hsane := h.reachable.sane
    obtain ⟨sent, hstep⟩ := hsane.step hm
    obtain ⟨node₀, l₀, hnode₀, hl₀, hcases⟩ := hw.node hstep hsane hnode hl
    obtain ⟨hbooked, htemplate⟩ := ih (hstep.built_iff.mp hbuilt) hnode₀ hl₀
    obtain ⟨-, rfl, hshard, hcommands⟩ | ⟨-, -, now, deed, hdoes, hlogs⟩ := hcases
    · refine ⟨hbooked.told hshard hcommands fun c hc => ?_, hshard ▸ htemplate⟩
      exact isPrepare_of_isPlain (hstep.plain hsane _ (mem_sentTo.mp hc))
    · exact ⟨hbooked.does hdoes hlogs, hlogs.template.trans htemplate⟩

lemma Audited.run (h : Audited shape f ls told) (hbuilt : f.Built) {l : Ledger} (hl : l ∈ ls) :
    ∃ s : Shard, s.Run l := by
  obtain ⟨shard, hlt, rfl⟩ := List.mem_iff_getElem.mp hl
  have hnode := List.getElem?_eq_getElem (l := f.nodes) (h.length ▸ hlt)
  exact ⟨_, (h.booked hbuilt hnode (List.getElem?_eq_getElem hlt)).1.run⟩

lemma Audited.run_told (h : Audited shape f ls told) (hbuilt : f.Built) {l : Ledger}
    (hl : some l ∈ told) : ∃ s : Shard, s.Run l := by
  induction h with
  | new h => cases List.eq_of_mem_replicate hl
  | @move shape f f' ls ls' told m outputs h hm _ _ ih =>
    obtain ⟨sent, hstep⟩ := h.reachable.sane.step hm
    have hbefore := hstep.built_iff.mp hbuilt
    unfold heard at hl
    split at hl
    · cases List.eq_of_mem_replicate hl
    · rcases List.mem_or_eq_of_mem_set hl with hl | hl
      · exact ih hbefore hl
      · exact h.run hbefore (List.mem_of_getElem? hl.symm)
    · exact ih hbefore hl

/-- A node has the open question still before it, or it has given an answer that the books bear
out. -/
def Asked (shape : Histogram.Shape) (q : Inquiry) (node : Node) (answer : Option PhaseSnapshot)
    (told : Option Ledger) : Prop :=
  questions node.commands = (if told.isSome then [] else [(q.index, q.reset)]) ∧
    answer.map PhaseSnapshot.statistics = told.map fun l => l.statistics shape q.index

/-- Who has not answered the open question is asked, and no one else is asked for anything. -/
structure Asking (shape : Histogram.Shape) (f : Fleet) (told : List (Option Ledger)) : Prop where
  idle : f.inquiry = none → ∀ node ∈ f.nodes, questions node.commands = []
  answers : ∀ q, f.inquiry = some q → q.answers.length = f.nodes.length
  size : told.length = f.nodes.length
  asked : ∀ (q : Inquiry) (shard : Nat) (node : Node) (a : Option PhaseSnapshot)
    (t : Option Ledger), f.inquiry = some q → f.nodes[shard]? = some node →
    q.answers[shard]? = some a → told[shard]? = some t → Asked shape q node a t

lemma Asking.of_idle (hidle : f.inquiry = none) (hnodes : ∀ node ∈ f.nodes,
    questions node.commands = []) (htold : told.length = f.nodes.length) : Asking shape f told where
  idle _ := hnodes
  answers q hq := by rw [hidle] at hq; cases hq
  size := htold
  asked q _ _ _ _ hq := by rw [hidle] at hq; cases hq

lemma heard_length (f : Fleet) (h : told.length = ls.length) (actor : Option Nat)
    (outputs : List Output) : (f.heard ls told actor outputs).length = ls.length := by
  unfold heard
  split
  · exact List.length_replicate
  · exact List.length_set.trans h
  · exact h

lemma hear_answers_length (q : Inquiry) (shard : Nat) (outputs : List Output) :
    (q.hear shard outputs).answers.length = q.answers.length := by
  unfold Inquiry.hear
  split
  · exact List.length_set
  · rfl

lemma questions_sentTo (hsent : ∀ d ∈ sent, ∃ index, d.2.concerns index = true) (shard : Nat) :
    questions (sentTo shard sent) = [] :=
  questions_of_concerns fun c hc => hsent (shard, c) (mem_sentTo.mp hc)

lemma findSome?_snapshot (phase : Nat) (snapshot : PhaseSnapshot) :
    [Output.snapshot phase snapshot].findSome? Output.snapshot? = some snapshot := rfl

lemma heard_of_idle (hidle : f.inquiry = none) (ls : List Ledger) (told : List (Option Ledger))
    (actor : Option Nat) (outputs : List Output) :
    f.heard ls told actor outputs = List.replicate ls.length none := by
  simp only [heard, hidle]

lemma heard_of_asking {q : Inquiry} (hq : f.inquiry = some q) (ls : List Ledger)
    (told : List (Option Ledger)) : f.heard ls told none outputs = told := by
  simp only [heard, hq]

lemma heard_of_silent {q : Inquiry} (hq : f.inquiry = some q)
    (hsilent : outputs.findSome? Output.snapshot? = none) (ls : List Ledger)
    (told : List (Option Ledger)) (actor : Option Nat) : f.heard ls told actor outputs = told := by
  simp only [heard, hq, hsilent]

lemma heard_other {q : Inquiry} (hq : f.inquiry = some q) (ls : List Ledger)
    (told : List (Option Ledger)) {shard i : Nat} (hi : shard ≠ i) (outputs : List Output) :
    (f.heard ls told (some shard) outputs)[i]? = told[i]? := by
  simp only [heard, hq]
  cases outputs.findSome? Output.snapshot? with
  | none => rfl
  | some snapshot => exact List.getElem?_set_ne hi

lemma hear_of_silent (q : Inquiry) (shard : Nat)
    (hsilent : outputs.findSome? Output.snapshot? = none) : q.hear shard outputs = q := by
  simp only [Inquiry.hear, hsilent]

lemma hear_other (q : Inquiry) {shard i : Nat} (hi : shard ≠ i) (outputs : List Output) :
    (q.hear shard outputs).answers[i]? = q.answers[i]? := by
  unfold Inquiry.hear
  split
  · exact List.getElem?_set_ne hi
  · rfl

lemma isSome_of_sum? {q : Inquiry} {r : Except ContractViolation PhaseSnapshot}
    (h : q.sum? = some r) {shard : Nat} {a : Option PhaseSnapshot}
    (ha : q.answers[shard]? = some a) :
    a.isSome = true := by
  unfold Inquiry.sum? at h
  split at h
  · rename_i hall
    exact List.all_eq_true.mp hall a (List.mem_of_getElem? ha)
  · cases h

lemma Asking.replies (h : Asking shape f told) {q : Inquiry} (hq : f.inquiry = some q)
    {shard : Nat} {node node' : Node} {l : Ledger} {deed : Deed}
    (hnode : f.nodes[shard]? = some node) (hl : ls[shard]? = some l)
    (hbooked : node.Booked l ∧ node.shard.template = .empty shape)
    (hreplies : node.Replies node' deed outputs) {a : Option PhaseSnapshot} {t : Option Ledger}
    (ha : (q.hear shard outputs).answers[shard]? = some a)
    (ht : (f.heard ls told (some shard) outputs)[shard]? = some t) :
    Asked shape q node' a t := by
  have hlt := (List.getElem?_eq_some_iff.mp hnode).1
  cases hreplies with
  | other _ hqueue hsilent =>
    rw [hear_of_silent q shard hsilent] at ha
    rw [heard_of_silent hq hsilent] at ht
    obtain ⟨hasked, hanswer⟩ := h.asked q shard node a t hq hnode ha ht
    exact ⟨hqueue.trans hasked, hanswer⟩
  | @answers phase reset hqueue =>
    have hheard : f.heard ls told (some shard)
        [.snapshot phase (node.shard.collect phase reset).2] = told.set shard ls[shard]? := by
      simp only [heard, hq, findSome?_snapshot]
    rw [hheard, List.getElem?_set_self (h.size.symm ▸ hlt), Option.some.injEq, hl] at ht
    simp only [Inquiry.hear, findSome?_snapshot] at ha
    rw [List.getElem?_set_self ((h.answers q hq).symm ▸ hlt), Option.some.injEq] at ha
    subst ha ht
    obtain ⟨hasked, -⟩ := h.asked q shard node _ _ hq hnode
      (List.getElem?_eq_getElem ((h.answers q hq).symm ▸ hlt))
      (List.getElem?_eq_getElem (h.size.symm ▸ hlt))
    rw [hqueue] at hasked
    split at hasked
    · cases hasked
    · obtain ⟨hhead, htail⟩ := List.cons.inj hasked
      obtain ⟨rfl, rfl⟩ := Prod.mk.inj hhead
      exact ⟨htail, congrArg some (hbooked.1.run.collect_statistics hbooked.2 _ _)⟩

lemma Asking.serves (h : Asking shape f told) {shard : Nat} {node node' : Node} {l : Ledger}
    {deed : Deed} {now : Nanos} (hnode : f.nodes[shard]? = some node) (hl : ls[shard]? = some l)
    (hbooked : node.Booked l ∧ node.shard.template = .empty shape)
    (hlength : ls.length = f.nodes.length) (hdoes : node.Does now deed node' outputs)
    (hnodes : f'.nodes = f.nodes.set shard node')
    (hinquiry : f'.inquiry = f.inquiry.map fun q => q.hear shard outputs) :
    Asking shape f' (f.heard ls told (some shard) outputs) := by
  have hsize : (f.heard ls told (some shard) outputs).length = f'.nodes.length := by
    rw [heard_length f (h.size.trans hlength.symm), hlength, hnodes, List.length_set]
  have hreplies := hdoes.replies
  cases hq : f.inquiry with
  | none =>
    rw [hq, Option.map_none] at hinquiry
    refine .of_idle hinquiry ?_ hsize
    rw [hnodes]
    refine forall_mem_set (h.idle hq) ?_
    have hnone := h.idle hq node (List.mem_of_getElem? hnode)
    cases hreplies with
    | answers hqueue =>
      rw [hqueue] at hnone
      cases hnone
    | other _ hqueue _ => exact hqueue.trans hnone
  | some q =>
    rw [hq, Option.map_some] at hinquiry
    constructor
    case idle =>
      intro hidle
      rw [hinquiry] at hidle
      cases hidle
    case answers =>
      intro q' hq'
      rw [hinquiry, Option.some.injEq] at hq'
      rw [← hq', hear_answers_length, hnodes, List.length_set]
      exact h.answers q hq
    case size => exact hsize
    case asked =>
      intro q' i node₁ a t hq' hnode₁ ha ht
      rw [hinquiry, Option.some.injEq] at hq'
      subst hq'
      rw [hnodes] at hnode₁
      by_cases hi : shard = i
      · subst hi
        rw [List.getElem?_set_self (List.getElem?_eq_some_iff.mp hnode).1,
          Option.some.injEq] at hnode₁
        subst hnode₁
        obtain ⟨hasked, hanswer⟩ := h.replies hq hnode hl hbooked hreplies ha ht
        rw [Asked, (hear_index q shard outputs).1, (hear_index q shard outputs).2]
        exact ⟨hasked, hanswer⟩
      · rw [List.getElem?_set_ne hi] at hnode₁
        rw [hear_other q hi] at ha
        rw [heard_other hq ls told hi] at ht
        rw [Asked, (hear_index q shard outputs).1, (hear_index q shard outputs).2]
        exact h.asked q i node₁ a t hq hnode₁ ha ht

lemma Asking.step (h : Asking shape f told)
    (hbooked : ∀ (shard : Nat) (node : Node) (l : Ledger), f.nodes[shard]? = some node →
      ls[shard]? = some l → node.Booked l ∧ node.shard.template = .empty shape)
    (hlength : ls.length = f.nodes.length) (hsane : f.Sane) (hstep : Step f actor sent f' outputs)
    (hw : f.Writes ls f' outputs actor ls') : Asking shape f' (f.heard ls told actor outputs) := by
  have hsize : (f.heard ls told actor outputs).length = f'.nodes.length := by
    rw [heard_length f (h.size.trans hlength.symm), hlength, hstep.length]
  cases hstep with
  | directs hidle hd hnotices =>
    refine .of_idle rfl (fun node' hmem => ?_) hsize
    obtain ⟨i, hnode'⟩ := List.mem_iff_getElem?.mp hmem
    rw [tell_getElem?] at hnode'
    obtain ⟨node, hnode, rfl⟩ := Option.map_eq_some_iff.mp hnode'
    rw [Node.enqueue, questions_append, h.idle hidle node (List.mem_of_getElem? hnode),
      questions_sentTo hd.pointed]
    rfl
  | @asks index reset hidle _ =>
    refine ⟨fun hnone => (by cases hnone), ?_, hsize, ?_⟩
    · rintro q ⟨⟩
      simp [Inquiry.new, tell]
    · rintro q i node' a t ⟨⟩ hnode' ha ht
      rw [tell_getElem?] at hnode'
      obtain ⟨node, hnode, rfl⟩ := Option.map_eq_some_iff.mp hnode'
      obtain rfl := List.eq_of_mem_replicate (List.mem_of_getElem? ha)
      rw [heard_of_idle hidle] at ht
      obtain rfl := List.eq_of_mem_replicate (List.mem_of_getElem? ht)
      refine ⟨?_, rfl⟩
      rw [Node.enqueue, questions_append, h.idle hidle node (List.mem_of_getElem? hnode),
        sentTo_everyone (List.getElem?_eq_some_iff.mp hnode).1]
      rfl
  | @concludes q sum hq hsum =>
    refine .of_idle rfl (fun node hmem => ?_) hsize
    obtain ⟨i, hlt, rfl⟩ := List.mem_iff_getElem.mp hmem
    have ha := List.getElem?_eq_getElem (l := q.answers) ((h.answers q hq).symm ▸ hlt)
    have ht := List.getElem?_eq_getElem (l := told) (h.size.symm ▸ hlt)
    obtain ⟨hasked, hanswer⟩ := h.asked q i _ _ _ hq (List.getElem?_eq_getElem hlt) ha ht
    have hsome := congrArg Option.isSome hanswer
    rw [Option.isSome_map, Option.isSome_map, isSome_of_sum? hsum ha] at hsome
    rw [hasked, ← hsome, if_pos rfl]
  | @serves shard now deed node node' outputs hnode hdoes =>
    have hl := List.getElem?_eq_getElem
      (hlength.symm ▸ (List.getElem?_eq_some_iff.mp hnode).1 : shard < ls.length)
    exact h.serves hnode hl (hbooked shard node _ hnode hl) hlength hdoes rfl rfl
  | delivers shard events =>
    have hkept : ∀ (i : Nat) (node' : Node),
        (f.nodes.modify shard fun node => node.deliver events)[i]? = some node' →
        ∃ node, f.nodes[i]? = some node ∧ node'.commands = node.commands := by
      intro i node' hnode'
      rw [List.getElem?_modify] at hnode'
      obtain ⟨node, hnode, rfl⟩ := Option.map_eq_some_iff.mp hnode'
      refine ⟨node, hnode, ?_⟩
      split
      · rw [((hsane.orderly node (List.mem_of_getElem? hnode)).deliver events).1]
      · rfl
    refine ⟨fun hidle node' hmem => ?_, fun q hq => ?_, hsize,
      fun q i node' a t hq hnode' ha ht => ?_⟩
    · obtain ⟨i, hnode'⟩ := List.mem_iff_getElem?.mp hmem
      obtain ⟨node, hnode, hcommands⟩ := hkept i node' hnode'
      rw [hcommands]
      exact h.idle hidle node (List.mem_of_getElem? hnode)
    · rw [h.answers q hq, List.length_modify]
    · obtain ⟨node, hnode, hcommands⟩ := hkept i node' hnode'
      rw [heard_of_asking (show f.inquiry = some q from hq)] at ht
      rw [Asked, hcommands]
      exact h.asked q i node a t hq hnode ha ht

lemma questions_preparations (c : Controller) (shard : Nat) :
    questions (c.preparations shard) = [] := by
  refine List.filterMap_eq_nil_iff.mpr fun command hcommand => ?_
  have hprepare := preparations_isPrepare hcommand
  cases command with
  | prepare => rfl
  | _ => cases hprepare

theorem Audited.asking (h : Audited shape f ls told) (hbuilt : f.Built) :
    Asking shape f told := by
  induction h with
  | @new settings benchmark known c h =>
    refine .of_idle rfl (fun node hmem => ?_) ?_
    · obtain ⟨shard, -, rfl⟩ := List.mem_map.mp hmem
      exact questions_preparations c shard
    · simp [Fleet.new, (Controller.new_ok h).2]
  | move h hm hout hw ih =>
    have hsane := h.reachable.sane
    obtain ⟨sent, hstep⟩ := hsane.step hm
    have hbefore := hstep.built_iff.mp hbuilt
    exact (ih hbefore).step (fun _ _ _ hnode hl => h.booked hbefore hnode hl) h.length hsane hstep
      hw

lemma Asking.collects (h : Asking shape f told) {shard : Nat} {node : Node}
    (hnode : f.nodes[shard]? = some node) {phase : Nat} {reset : Bool}
    (hmem : .collect phase reset ∈ node.commands) :
    ∃ q, f.inquiry = some q ∧ q.index = phase ∧ q.reset = reset ∧ told[shard]? = some none := by
  have hasked : (phase, reset) ∈ questions node.commands := List.mem_filterMap.mpr ⟨_, hmem, rfl⟩
  have hlt := (List.getElem?_eq_some_iff.mp hnode).1
  cases hq : f.inquiry with
  | none =>
    rw [h.idle hq node (List.mem_of_getElem? hnode)] at hasked
    cases hasked
  | some q =>
    have ht := List.getElem?_eq_getElem (l := told) (h.size.symm ▸ hlt)
    obtain ⟨hqueue, -⟩ := h.asked q shard node _ _ hq hnode
      (List.getElem?_eq_getElem ((h.answers q hq).symm ▸ hlt)) ht
    rw [hqueue] at hasked
    split at hasked
    · cases hasked
    · rename_i hnone
      obtain ⟨rfl, rfl⟩ := Prod.mk.inj (List.mem_singleton.mp hasked)
      exact ⟨q, rfl, rfl, rfl, ht.trans (congrArg some (by simpa using hnone))⟩

lemma eq_map_some {α : Type} {l : List (Option α)} (h : ∀ a ∈ l, a.isSome = true) :
    l = l.reduceOption.map some := by
  induction l with
  | nil => rfl
  | cons a rest ih =>
    obtain ⟨ha, hrest⟩ := List.forall_mem_cons.mp h
    obtain ⟨x, rfl⟩ := Option.isSome_iff_exists.mp ha
    exact congrArg (some x :: ·) (ih hrest)

theorem Asking.concluded (h : Asking shape f told) {q : Inquiry} (hq : f.inquiry = some q)
    {r : Except ContractViolation PhaseSnapshot} (hr : q.sum? = some r) :
    ∃ (snapshots : List PhaseSnapshot) (books : List Ledger), told = books.map some ∧
      r = PhaseSnapshot.merge snapshots ∧
      List.Forall₂ (fun s l => s.statistics = l.statistics shape q.index) snapshots books := by
  have hall : ∀ (i : Nat) (a : Option PhaseSnapshot) (t : Option Ledger),
      q.answers[i]? = some a → told[i]? = some t → a.isSome = true ∧
        a.map PhaseSnapshot.statistics = t.map fun l => l.statistics shape q.index := by
    intro i a t ha ht
    have hlt := (List.getElem?_eq_some_iff.mp ha).1
    rw [h.answers q hq] at hlt
    obtain ⟨-, hanswer⟩ := h.asked q i _ a t hq (List.getElem?_eq_getElem hlt) ha ht
    exact ⟨isSome_of_sum? hr ha, hanswer⟩
  have hlength : q.answers.length = told.length := (h.answers q hq).trans h.size.symm
  have hmap : q.answers.map (Option.map PhaseSnapshot.statistics) =
      told.map (Option.map fun l => l.statistics shape q.index) := by
    refine List.ext_getElem (by simpa using hlength) fun i hi hi' => ?_
    rw [List.length_map] at hi hi'
    rw [List.getElem_map, List.getElem_map]
    exact (hall i _ _ (List.getElem?_eq_getElem hi) (List.getElem?_eq_getElem hi')).2
  have hanswers : q.answers = q.answers.reduceOption.map some := by
    refine eq_map_some fun a ha => ?_
    obtain ⟨i, ha⟩ := List.mem_iff_getElem?.mp ha
    exact isSome_of_sum? hr ha
  have htold : told = told.reduceOption.map some := by
    refine eq_map_some fun t ht => ?_
    obtain ⟨i, hi, rfl⟩ := List.mem_iff_getElem.mp ht
    obtain ⟨hsome, hanswer⟩ := hall i _ _ (List.getElem?_eq_getElem (hlength ▸ hi))
      (List.getElem?_eq_getElem hi)
    have hisSome := congrArg Option.isSome hanswer
    rwa [Option.isSome_map, Option.isSome_map, hsome, eq_comm] at hisSome
  refine ⟨q.answers.reduceOption, told.reduceOption, htold, ?_, ?_⟩
  · unfold Inquiry.sum? at hr
    split at hr
    · exact (Option.some.inj hr).symm
    · cases hr
  · rw [hanswers, htold, List.map_map, List.map_map] at hmap
    have hsame : q.answers.reduceOption.map PhaseSnapshot.statistics =
        told.reduceOption.map fun l => l.statistics shape q.index := by
      refine List.map_injective_iff.mpr (Option.some_injective _) ?_
      rw [List.map_map, List.map_map]
      exact hmap
    rw [← List.forall₂_eq_eq_eq, List.forall₂_map_left_iff, List.forall₂_map_right_iff] at hsame
    exact hsame

/-- What comes of the answers shows what was recorded, since it was last forgotten, in the books of
all shards when these answered. Answers cannot be added up only after a wait beyond all bounds. -/
theorem Asking.sum_shows (h : Asking shape f told) {q : Inquiry} (hq : f.inquiry = some q)
    {r : Except ContractViolation PhaseSnapshot} (hr : q.sum? = some r) :
    ∃ books : List Ledger, told = books.map some ∧
      ((∃ sum, r = .ok sum ∧ sum.statistics.Shows shape
        (books.flatMap fun l => l.recorded q.index)
        (books.flatMap fun l => Recording.since (l.recorded q.index))) ∨
      (∃ e, r = .error e ∧ ∃ metric x,
        .sample metric x ∈ books.flatMap (fun l => Recording.since (l.recorded q.index)) ∧
          Nanos.maxCount ≤ x.latency)) := by
  obtain ⟨snapshots, books, htold, rfl, hsame⟩ := h.concluded hq hr
  refine ⟨books, htold, PhaseSnapshot.merge_shows (hsame.imp fun s l hs => ?_)⟩
  rw [hs]
  exact StatisticsSet.shows_recorder shape (l.recorded q.index)

end Fleet

end LoadEngine
