import LoadEngine.Proofs.ForkWeights
import LoadEngine.Proofs.Lists
import LoadEngine.Session.Turn

/-! The branches of a session as a tree. A branch knows how many of those that it forked are still
to finish; it waits in a join just as long as there are some, and whatever it forked before a join
has finished when it goes on behind it. -/

namespace LoadEngine

def Scenario.forkedBefore (s : Scenario) (id position : Nat) : Nat :=
  (((s.stepsOf id).take position).flatMap Step.forks).length

def offspring (l : List Branch) (i : Nat) : List Branch := l.filter fun c => c.parent == some i

def unfinished (l : List Branch) (i : Nat) : Nat :=
  l.countP fun c => c.parent == some i && !c.isDone

def Branch.Waits (sc : Scenario) (b : Branch) : Prop :=
  match b.wait with
  | .operation _ _ => ∃ operation, sc.step? b.sequence b.step = some (.operation operation)
  | .delay _ => ∃ duration, sc.step? b.sequence b.step = some (.delay duration)
  | .join => sc.step? b.sequence b.step = some .join ∧ 0 < b.children
  | .runnable | .done => True

def Joined (sc : Scenario) (l : List Branch) (i : Nat) (b : Branch) : Prop :=
  ∀ j < b.step, sc.step? b.sequence j = some .join →
    ∀ c ∈ (offspring l i).take (sc.forkedBefore b.sequence j), c.isDone = true

structure Tree (sc : Scenario) (reached : Nat → Prop) (l : List Branch) : Prop where
  reached : ∀ b ∈ l, reached b.sequence
  parent : ∀ (i : Nat) (b : Branch) (p : Nat), l[i]? = some b → b.parent = some p → p < i
  children : ∀ (i : Nat) (b : Branch), l[i]? = some b → b.children = unfinished l i
  waits : ∀ b ∈ l, b.Waits sc
  forked : ∀ (i : Nat) (b : Branch), l[i]? = some b →
    (offspring l i).length = sc.forkedBefore b.sequence b.step
  joined : ∀ (i : Nat) (b : Branch), l[i]? = some b → Joined sc l i b

def finished (l : List Branch) (i : Nat) (b : Branch) : List Branch :=
  let l := l.set i { b with wait := .done }
  match b.parent with
  | none => l
  | some p => l.modify p .childDone

inductive BranchStep (sc : Scenario) (l : List Branch) (i : Nat) (b : Branch) : List Branch → Prop
  | pass {step : Step Variable} (hs : sc.step? b.sequence b.step = some step)
      (hf : step.forks = []) (hj : step = .join → b.children = 0) :
      BranchStep sc l i b (l.set i b.proceed)
  | fork {targets : List Target} (hs : sc.step? b.sequence b.step = some (.fork targets)) :
      BranchStep sc l i b (l.set i { b with children := b.children + targets.length }.proceed ++
        targets.map fun target => .new target.id (some i))
  | hold {w : Wait} (hw : Branch.Waits sc { b with wait := w }) (hr : w ≠ .runnable)
      (hd : w ≠ .done) : BranchStep sc l i b (l.set i { b with wait := w })
  | finish (hs : sc.step? b.sequence b.step = none) : BranchStep sc l i b (finished l i b)

section Lists

variable {l m : List Branch} {i k : Nat} {b : Branch}

structure Follows (c c' : Branch) : Prop where
  sequence : c'.sequence = c.sequence
  parent : c'.parent = c.parent
  done : c.isDone = true → c'.isDone = true

lemma Follows.refl (c : Branch) : Follows c c := ⟨rfl, rfl, id⟩

lemma Follows.trans {c c' c'' : Branch} (h : Follows c c') (h' : Follows c' c'') : Follows c c'' :=
  ⟨h'.sequence.trans h.sequence, h'.parent.trans h.parent, fun hd => h'.done (h.done hd)⟩

lemma childDone_follows (c : Branch) :
    Follows c c.childDone ∧ c.childDone.isDone = c.isDone := by
  unfold Branch.childDone
  simp only
  split
  · rename_i h
    have hjoin : c.isDone = false := by
      rw [Branch.isDone, h.2]
      rfl
    exact ⟨⟨rfl, rfl, fun hd => by rw [hjoin] at hd; cases hd⟩, by rw [hjoin]; rfl⟩
  · exact ⟨⟨rfl, rfl, id⟩, rfl⟩

lemma finished_follows (h : l[i]? = some b) : List.Forall₂ Follows l (finished l i b) := by
  have hdone : Follows b { b with wait := .done } := ⟨rfl, rfl, fun _ => rfl⟩
  have hset := forall₂_set Follows.refl h hdone
  unfold finished
  simp only
  split
  · exact hset
  · refine forall₂_trans (R := Follows) (fun _ _ _ => Follows.trans) hset ?_
    exact forall₂_modify Follows.refl (fun c => (childDone_follows c).1) _ _

lemma getElem?_grown {new : List Branch} {c' : Branch} (hages : List.Forall₂ Follows l m)
    (hk : (m ++ new)[k]? = some c') :
    (∃ c, l[k]? = some c ∧ m[k]? = some c' ∧ Follows c c') ∨ (m.length ≤ k ∧ c' ∈ new) := by
  by_cases hlt : k < m.length
  · rw [List.getElem?_append_left hlt] at hk
    obtain ⟨c, hc, hfollows⟩ := getElem?_of_forall₂ hages hk
    exact .inl ⟨c, hc, hk, hfollows⟩
  · rw [List.getElem?_append_right (Nat.le_of_not_lt hlt)] at hk
    exact .inr ⟨Nat.le_of_not_lt hlt, List.mem_of_getElem? hk⟩

lemma offspring_append (l new : List Branch) (i : Nat) :
    offspring (l ++ new) i = offspring l i ++ offspring new i :=
  List.filter_append _ _

lemma unfinished_append (l new : List Branch) (i : Nat) :
    unfinished (l ++ new) i = unfinished l i + unfinished new i :=
  List.countP_append

lemma offspring_follows (h : List.Forall₂ Follows l m) (k : Nat) :
    List.Forall₂ Follows (offspring l k) (offspring m k) := by
  refine List.rel_filter (R := Follows) ?_ h
  intro c c' hc
  simp only [hc.parent]

lemma all_done_of_follows (h : List.Forall₂ Follows l m) (hd : ∀ c ∈ l, c.isDone = true) :
    ∀ c ∈ m, c.isDone = true := by
  induction h with
  | nil => simp
  | cons hc _ ih =>
    obtain ⟨hfirst, hrest⟩ := List.forall_mem_cons.mp hd
    exact List.forall_mem_cons.mpr ⟨hc.done hfirst, ih hrest⟩

lemma unfinished_eq (l : List Branch) (k : Nat) :
    unfinished l k = (offspring l k).countP fun c => !c.isDone := by
  unfold unfinished offspring
  rw [List.countP_filter]
  congr 1
  funext c
  exact Bool.and_comm _ _

lemma all_done_of_unfinished_eq_zero (h : unfinished l k = 0) :
    ∀ c ∈ offspring l k, c.isDone = true := by
  intro c hc
  rw [unfinished_eq] at h
  simpa using List.countP_eq_zero.mp h c hc

lemma unfinished_eq_of_forall₂
    (h : List.Forall₂ (fun c c' => c'.parent = c.parent ∧ c'.isDone = c.isDone) l m) (k : Nat) :
    unfinished m k = unfinished l k := by
  induction h with
  | nil => rfl
  | cons hc _ ih =>
    unfold unfinished at ih ⊢
    rw [List.countP_cons, List.countP_cons, ih, hc.1, hc.2]

lemma unfinished_set (h : l[i]? = some b) (b' : Branch) (hp : b'.parent = b.parent)
    (hd : b'.isDone = b.isDone) (k : Nat) : unfinished (l.set i b') k = unfinished l k :=
  unfinished_eq_of_forall₂ (forall₂_set (fun _ => ⟨rfl, rfl⟩) h ⟨hp, hd⟩) k

lemma unfinished_finished (h : l[i]? = some b) (hb : b.isDone = false) (k : Nat) :
    unfinished (finished l i b) k + (if b.parent = some k then 1 else 0) = unfinished l k := by
  have hset : unfinished (l.set i { b with wait := .done }) k +
      (if b.parent = some k then 1 else 0) = unfinished l k := by
    obtain ⟨hlt, rfl⟩ := List.getElem?_eq_some_iff.mp h
    have hpos : (if l[i].parent = some k then 1 else 0) ≤ unfinished l k := by
      split
      · rename_i hk
        refine List.countP_pos_iff.mpr ⟨l[i], List.getElem_mem hlt, ?_⟩
        simp [hk, hb]
      · exact Nat.zero_le _
    unfold unfinished at hpos ⊢
    rw [List.countP_set hlt]
    by_cases hk : l[i].parent = some k
    · simp only [hk, hb, if_true] at hpos ⊢
      simpa [Branch.isDone] using Nat.sub_add_cancel hpos
    · simp [hk, Branch.isDone]
  rw [← hset]
  congr 1
  unfold finished
  simp only
  split
  · rfl
  · apply unfinished_eq_of_forall₂
    refine forall₂_modify (fun _ => ⟨rfl, rfl⟩) (fun c => ?_) _ _
    exact ⟨(childDone_follows c).1.parent, (childDone_follows c).2⟩

end Lists

namespace Tree

variable {sc : Scenario} {reached : Nat → Prop} {weight : Nat → Nat} {l m : List Branch}

lemma opening (hbudget : sc.Budget reached weight) :
    Tree sc reached (sc.initial.map fun id => .new id none) := by
  have hnew : ∀ b ∈ sc.initial.map fun id => Branch.new id none,
      ∃ id ∈ sc.initial, b = .new id none := by
    intro b hb
    obtain ⟨id, hid, rfl⟩ := List.mem_map.mp hb
    exact ⟨id, hid, rfl⟩
  have hoffspring : ∀ k, offspring (sc.initial.map fun id => Branch.new id none) k = [] := by
    intro k
    unfold offspring
    rw [List.filter_eq_nil_iff]
    intro b hb
    obtain ⟨id, -, rfl⟩ := hnew b hb
    simp [Branch.new]
  refine ⟨?_, ?_, ?_, ?_, ?_, ?_⟩
  · intro b hb
    obtain ⟨id, hid, rfl⟩ := hnew b hb
    exact hbudget.initial id hid
  · intro i b p hb hp
    obtain ⟨id, -, rfl⟩ := hnew b (List.mem_of_getElem? hb)
    cases hp
  · intro i b hb
    obtain ⟨id, -, rfl⟩ := hnew b (List.mem_of_getElem? hb)
    rw [unfinished_eq, hoffspring]
    rfl
  · intro b hb
    obtain ⟨id, -, rfl⟩ := hnew b hb
    trivial
  · intro i b hb
    obtain ⟨id, -, rfl⟩ := hnew b (List.mem_of_getElem? hb)
    rw [hoffspring]
    rfl
  · intro i b hb j hj
    obtain ⟨id, -, rfl⟩ := hnew b (List.mem_of_getElem? hb)
    exact absurd hj (Nat.not_lt_zero _)

lemma forkedBefore_mono (sc : Scenario) (id : Nat) {i j : Nat} (h : i ≤ j) :
    sc.forkedBefore id i ≤ sc.forkedBefore id j := by
  unfold Scenario.forkedBefore
  have hprefix : ((sc.stepsOf id).take i).flatMap Step.forks <+:
      ((sc.stepsOf id).take j).flatMap Step.forks := by
    obtain ⟨rest, hrest⟩ := List.take_prefix_take_left (l := sc.stepsOf id) h
    rw [← hrest, List.flatMap_append]
    exact List.prefix_append _ _
  exact hprefix.length_le

lemma forkedBefore_succ {id i : Nat} {step : Step Variable} (h : sc.step? id i = some step) :
    sc.forkedBefore id (i + 1) = sc.forkedBefore id i + step.forks.length := by
  rw [Scenario.step?_eq] at h
  unfold Scenario.forkedBefore
  rw [List.take_add_one, h, Option.toList_some, List.flatMap_append, List.length_append]
  simp

section New

variable {i : Nat} {new : List Branch} (hnew : ∀ c ∈ new, c.parent = some i ∧ c.isDone = false)

include hnew

lemma offspring_new (k : Nat) : offspring new k = if k = i then new else [] := by
  unfold offspring
  split
  · rename_i hk
    subst hk
    apply List.filter_eq_self.mpr
    intro c hc
    simp [(hnew c hc).1]
  · rename_i hk
    apply List.filter_eq_nil_iff.mpr
    intro c hc
    simp [(hnew c hc).1, Ne.symm hk]

lemma unfinished_new (k : Nat) : unfinished new k = if k = i then new.length else 0 := by
  unfold unfinished
  split
  · rename_i hk
    subst hk
    apply List.countP_eq_length.mpr
    intro c hc
    simp [hnew c hc]
  · rename_i hk
    apply List.countP_eq_zero.mpr
    intro c hc
    simp [(hnew c hc).1, Ne.symm hk]

end New

lemma offspring_of_length_le (h : Tree sc reached l) (hages : List.Forall₂ Follows l m) {k : Nat}
    (hk : m.length ≤ k) : offspring m k = [] := by
  apply List.filter_eq_nil_iff.mpr
  intro c' hc' hparent
  obtain ⟨q, hq⟩ := List.mem_iff_getElem?.mp hc'
  obtain ⟨c, hc, hfollows⟩ := getElem?_of_forall₂ hages hq
  have hlt := h.parent q c k hc (by rw [← hfollows.parent]; simpa using hparent)
  have hqm := (List.getElem?_eq_some_iff.mp hq).1
  omega

lemma grow {i : Nat} (new : List Branch) (h : Tree sc reached l) (hages : List.Forall₂ Follows l m)
    (hi : i < l.length)
    (hnew : ∀ c ∈ new, c = .new c.sequence (some i) ∧ reached c.sequence)
    (hbranch : ∀ (k : Nat) (c c' : Branch), l[k]? = some c → m[k]? = some c' →
      c'.children = unfinished m k + (if k = i then new.length else 0) ∧ c'.Waits sc ∧
      sc.forkedBefore c'.sequence c'.step =
        sc.forkedBefore c.sequence c.step + (if k = i then new.length else 0) ∧
      ∀ j < c'.step, sc.step? c'.sequence j = some .join →
        j < c.step ∨ j = c.step ∧ unfinished m k = 0) :
    Tree sc reached (m ++ new) := by
  have hlen := hages.length_eq
  have hyoung : ∀ c ∈ new, c.parent = some i ∧ c.isDone = false := by
    intro c hc
    rw [(hnew c hc).1]
    exact ⟨rfl, rfl⟩
  have hchildless : ∀ k, m.length ≤ k → offspring (m ++ new) k = [] := by
    intro k hk
    rw [offspring_append, h.offspring_of_length_le hages hk, offspring_new hyoung,
      if_neg (by omega), List.append_nil]
  constructor
  case reached =>
    intro c' hc'
    obtain ⟨k, hk⟩ := List.mem_iff_getElem?.mp hc'
    obtain ⟨c, hc, -, hfollows⟩ | ⟨-, hmem⟩ := getElem?_grown hages hk
    · rw [hfollows.sequence]
      exact h.reached c (List.mem_of_getElem? hc)
    · exact (hnew c' hmem).2
  case parent =>
    intro k c' p hk hp
    obtain ⟨c, hc, -, hfollows⟩ | ⟨hle, hmem⟩ := getElem?_grown hages hk
    · exact h.parent k c p hc (hfollows.parent ▸ hp)
    · rw [(hyoung c' hmem).1] at hp
      cases hp
      omega
  case children =>
    intro k c' hk
    obtain ⟨c, hc, hc', -⟩ | ⟨hle, hmem⟩ := getElem?_grown hages hk
    · rw [unfinished_append, unfinished_new hyoung]
      exact (hbranch k c c' hc hc').1
    · rw [unfinished_eq, hchildless k hle, (hnew c' hmem).1]
      rfl
  case waits =>
    intro c' hc'
    obtain ⟨k, hk⟩ := List.mem_iff_getElem?.mp hc'
    obtain ⟨c, hc, hc', -⟩ | ⟨-, hmem⟩ := getElem?_grown hages hk
    · exact (hbranch k c c' hc hc').2.1
    · rw [(hnew c' hmem).1]
      trivial
  case forked =>
    intro k c' hk
    obtain ⟨c, hc, hc', -⟩ | ⟨hle, hmem⟩ := getElem?_grown hages hk
    · rw [offspring_append, offspring_new hyoung, List.length_append,
        ← (offspring_follows hages k).length_eq, h.forked k c hc, (hbranch k c c' hc hc').2.2.1]
      split <;> rfl
    · rw [hchildless k hle, (hnew c' hmem).1]
      simp [Branch.new, Scenario.forkedBefore]
  case joined =>
    intro k c' hk j hj hjoin
    obtain ⟨c, hc, hc', hfollows⟩ | ⟨hle, hmem⟩ := getElem?_grown hages hk
    · obtain ⟨-, -, -, hbehind⟩ := hbranch k c c' hc hc'
      -- Those forked before a join are older than all that is new.
      have hfew : sc.forkedBefore c'.sequence j ≤ (offspring m k).length := by
        rw [← (offspring_follows hages k).length_eq, h.forked k c hc, hfollows.sequence]
        apply forkedBefore_mono
        rcases hbehind j hj hjoin with hlt | ⟨heq, -⟩ <;> omega
      rw [offspring_append, List.take_append_of_le_length hfew]
      rcases hbehind j hj hjoin with hlt | ⟨-, hzero⟩
      · rw [hfollows.sequence] at hjoin ⊢
        refine all_done_of_follows ?_ (h.joined k c hc j hlt hjoin)
        exact List.forall₂_take _ (offspring_follows hages k)
      · intro d hd
        exact all_done_of_unfinished_eq_zero hzero d (List.mem_of_mem_take hd)
    · rw [(hnew c' hmem).1] at hj
      exact absurd hj (Nat.not_lt_zero j)

lemma set {i : Nat} {b b' : Branch} (h : Tree sc reached l) (hb : l[i]? = some b)
    (hseq : b'.sequence = b.sequence) (hparent : b'.parent = b.parent)
    (hdone : b'.isDone = b.isDone) (hchildren : b'.children = b.children) (hwaits : b'.Waits sc)
    (hforked : sc.forkedBefore b'.sequence b'.step = sc.forkedBefore b.sequence b.step)
    (hbehind : ∀ j < b'.step, sc.step? b'.sequence j = some .join →
      j < b.step ∨ j = b.step ∧ unfinished l i = 0) :
    Tree sc reached (l.set i b') := by
  have hlt := (List.getElem?_eq_some_iff.mp hb).1
  have hages : List.Forall₂ Follows l (l.set i b') :=
    forall₂_set Follows.refl hb ⟨hseq, hparent, fun hd => hdone ▸ hd⟩
  have hgrown := h.grow [] hages hlt (by simp) ?_
  · rwa [List.append_nil] at hgrown
  intro k c c' hc hc'
  have hsame := unfinished_set hb b' hparent hdone k
  rw [List.getElem?_set] at hc'
  by_cases hk : i = k
  · subst hk
    rw [if_pos rfl, if_pos hlt, Option.some.injEq] at hc'
    rw [hb, Option.some.injEq] at hc
    subst hc hc'
    refine ⟨?_, hwaits, ?_, ?_⟩
    · rw [hchildren, hsame, h.children i _ hb]
      simp
    · rw [hforked]
      simp
    · intro j hj hjoin
      rw [hsame]
      exact hbehind j hj hjoin
  · rw [if_neg hk, hc, Option.some.injEq] at hc'
    subst hc'
    refine ⟨?_, h.waits c (List.mem_of_getElem? hc), ?_, fun j hj _ => .inl hj⟩
    · rw [hsame, h.children k c hc]
      simp
    · simp

lemma fork {i : Nat} {b : Branch} {targets : List Target} (h : Tree sc reached l)
    (hb : l[i]? = some b) (hrun : b.wait = .runnable)
    (hs : sc.step? b.sequence b.step = some (.fork targets))
    (htargets : ∀ target ∈ targets, reached target.id) :
    Tree sc reached (l.set i { b with children := b.children + targets.length }.proceed ++
      targets.map fun target => .new target.id (some i)) := by
  have hlt := (List.getElem?_eq_some_iff.mp hb).1
  have hdone : b.isDone = false := by
    rw [Branch.isDone, hrun]
    rfl
  have hages : List.Forall₂ Follows l
      (l.set i { b with children := b.children + targets.length }.proceed) :=
    forall₂_set Follows.refl hb ⟨rfl, rfl, fun hd => by rw [hdone] at hd; cases hd⟩
  refine h.grow _ hages hlt ?_ ?_
  · intro c hc
    obtain ⟨target, htarget, rfl⟩ := List.mem_map.mp hc
    exact ⟨rfl, htargets target htarget⟩
  intro k c c' hc hc'
  have hsame := unfinished_set hb { b with children := b.children + targets.length }.proceed rfl
    (by rw [hdone]; rfl) k
  rw [List.getElem?_set] at hc'
  by_cases hk : i = k
  · subst hk
    rw [if_pos rfl, if_pos hlt, Option.some.injEq] at hc'
    rw [hb, Option.some.injEq] at hc
    subst hc hc'
    rw [if_pos rfl, hsame, List.length_map]
    refine ⟨?_, trivial, ?_, ?_⟩
    · rw [← h.children i b hb]
      rfl
    · change sc.forkedBefore b.sequence (b.step + 1) = _
      rw [forkedBefore_succ hs]
      simp [Step.forks]
    · intro j hj hjoin
      change j < b.step + 1 at hj
      change sc.step? b.sequence j = some .join at hjoin
      rcases Nat.lt_succ_iff_lt_or_eq.mp hj with hj | rfl
      · exact .inl hj
      · rw [hs] at hjoin
        cases hjoin
  · rw [if_neg hk, hc, Option.some.injEq] at hc'
    subst hc'
    rw [if_neg (Ne.symm hk), hsame]
    exact ⟨h.children k c hc, h.waits c (List.mem_of_getElem? hc), rfl, fun j hj _ => .inl hj⟩

lemma finished_getElem? (l : List Branch) (i : Nat) (b : Branch) (k : Nat) :
    (finished l i b)[k]? = if b.parent = some k
      then (l.set i { b with wait := .done })[k]?.map Branch.childDone
      else (l.set i { b with wait := .done })[k]? := by
  unfold finished
  simp only
  split
  · rename_i hp
    rw [hp, if_neg (by simp)]
  · rename_i p hp
    rw [hp, List.getElem?_modify]
    by_cases hk : p = k
    · simp [hk]
    · simp [hk]

lemma childDone_spec {c : Branch} {n : Nat} (hc : c.Waits sc) (hn : n + 1 = c.children) :
    c.childDone.children = n ∧ c.childDone.Waits sc ∧
      sc.forkedBefore c.childDone.sequence c.childDone.step = sc.forkedBefore c.sequence c.step ∧
      ∀ j < c.childDone.step, j < c.step ∨ j = c.step ∧ n = 0 := by
  have hless : c.children - 1 = n := by omega
  unfold Branch.childDone
  simp only [hless]
  split
  · rename_i hjoin
    obtain ⟨hzero, hwait⟩ := hjoin
    rw [Branch.Waits, hwait] at hc
    refine ⟨rfl, trivial, ?_, ?_⟩
    · change sc.forkedBefore c.sequence (c.step + 1) = _
      rw [forkedBefore_succ hc.1]
      rfl
    · intro j hj
      change j < c.step + 1 at hj
      omega
  · rename_i hnot
    refine ⟨rfl, ?_, rfl, fun j hj => .inl hj⟩
    unfold Branch.Waits at hc ⊢
    simp only
    split at hc
    · exact hc
    · exact hc
    · rename_i hwait
      exact ⟨hc.1, Nat.pos_of_ne_zero fun hz => hnot ⟨hz, hwait⟩⟩
    · trivial
    · trivial

lemma finish {i : Nat} {b : Branch} (h : Tree sc reached l) (hb : l[i]? = some b)
    (hrun : b.wait = .runnable) : Tree sc reached (finished l i b) := by
  have hlt := (List.getElem?_eq_some_iff.mp hb).1
  have hdone : b.isDone = false := by
    rw [Branch.isDone, hrun]
    rfl
  have hgrown := h.grow [] (finished_follows hb) hlt (by simp) ?_
  · rwa [List.append_nil] at hgrown
  intro k c c' hc hc'
  have hless := unfinished_finished hb hdone k
  rw [finished_getElem?, List.getElem?_set] at hc'
  simp only [List.length_nil, ite_self, Nat.add_zero]
  by_cases hp : b.parent = some k
  · -- the branch that forked the one that finishes
    have hne : i ≠ k := by
      have hk := h.parent i b k hb hp
      omega
    rw [if_pos hp, if_neg hne, hc, Option.map_some, Option.some.injEq] at hc'
    subst hc'
    rw [if_pos hp, ← h.children k c hc] at hless
    obtain ⟨hchildren, hwaits, hforked, hbehind⟩ :=
      childDone_spec (h.waits c (List.mem_of_getElem? hc)) hless
    exact ⟨hchildren, hwaits, hforked, fun j hj _ => hbehind j hj⟩
  · rw [if_neg hp, Nat.add_zero] at hless
    rw [if_neg hp] at hc'
    by_cases hk : i = k
    · subst hk
      rw [if_pos rfl, if_pos hlt, Option.some.injEq] at hc'
      rw [hb, Option.some.injEq] at hc
      subst hc hc'
      exact ⟨by rw [hless]; exact h.children i b hb, trivial, rfl, fun j hj _ => .inl hj⟩
    · rw [if_neg hk, hc, Option.some.injEq] at hc'
      subst hc'
      exact ⟨by rw [hless]; exact h.children k c hc, h.waits c (List.mem_of_getElem? hc), rfl,
        fun j hj _ => .inl hj⟩

theorem step {i : Nat} {b : Branch} (h : Tree sc reached l) (hbudget : sc.Budget reached weight)
    (hb : l[i]? = some b) (hrun : b.wait = .runnable) (hstep : BranchStep sc l i b m) :
    Tree sc reached m := by
  have hdone : b.isDone = false := by
    rw [Branch.isDone, hrun]
    rfl
  cases hstep with
  | pass hs hf hj =>
    rename_i step
    refine h.set hb rfl rfl (by rw [hdone]; rfl) rfl trivial ?_ ?_
    · change sc.forkedBefore b.sequence (b.step + 1) = _
      rw [forkedBefore_succ hs, hf]
      rfl
    · intro j hjlt hjoin
      change j < b.step + 1 at hjlt
      change sc.step? b.sequence j = some .join at hjoin
      rcases Nat.lt_succ_iff_lt_or_eq.mp hjlt with hjlt | rfl
      · exact .inl hjlt
      · rw [hs, Option.some.injEq] at hjoin
        exact .inr ⟨rfl, (h.children i b hb).symm.trans (hj hjoin)⟩
  | fork hs =>
    refine h.fork hb hrun hs ?_
    intro target htarget
    refine hbudget.forks b.sequence (h.reached b (List.mem_of_getElem? hb)) target.id ?_
    rw [Scenario.step?_eq] at hs
    exact List.mem_flatMap.mpr ⟨_, List.mem_of_getElem? hs, List.mem_map_of_mem htarget⟩
  | hold hw hr hd =>
    rename_i w
    refine h.set hb rfl rfl ?_ rfl hw rfl fun j hj _ => .inl hj
    rw [hdone, Branch.isDone]
    simpa using hd
  | finish hs => exact h.finish hb hrun

end Tree

end LoadEngine
