import LoadEngine.Instances
import Mathlib.Data.List.Forall2
import Mathlib.Tactic.Lemma

/-! Lists that are changed in one place, that grow at their end, or that are counted in parts. -/

namespace LoadEngine

variable {α : Type}

lemma sum_map_set {l : List α} {i : Nat} {a : α} (g : α → Nat) (h : l[i]? = some a) (a' : α) :
    ((l.set i a').map g).sum + g a = (l.map g).sum + g a' := by
  induction l generalizing i with
  | nil => simp at h
  | cons b rest ih =>
    cases i with
    | zero =>
      obtain rfl : b = a := by simpa using h
      simp only [List.set_cons_zero, List.map_cons, List.sum_cons]
      omega
    | succ i =>
      have hrest := ih (i := i) (by simpa using h)
      simp only [List.set_cons_succ, List.map_cons, List.sum_cons]
      omega

lemma forall_mem_set {l : List α} {i : Nat} {a : α} {P : α → Prop} (h : ∀ x ∈ l, P x) (ha : P a) :
    ∀ x ∈ l.set i a, P x := by
  intro x hx
  rcases List.mem_or_eq_of_mem_set hx with hx | rfl
  · exact h x hx
  · exact ha

lemma getElem?_set_back {l : List α} {i k : Nat} {a b : α} (h : (l.set i a)[k]? = some b) :
    (i = k ∧ b = a) ∨ (i ≠ k ∧ l[k]? = some b) := by
  rw [List.getElem?_set] at h
  split at h
  · rename_i hik
    split at h
    · exact .inl ⟨hik, (Option.some.inj h).symm⟩
    · cases h
  · rename_i hik
    exact .inr ⟨hik, h⟩

lemma modify_eq_set {l : List α} {i : Nat} {a : α} (h : l[i]? = some a) (f : α → α) :
    l.modify i f = l.set i (f a) := by
  apply List.ext_getElem?
  intro k
  rw [List.getElem?_modify, List.getElem?_set]
  by_cases hk : i = k
  · subst hk
    obtain ⟨hlt, rfl⟩ := List.getElem?_eq_some_iff.mp h
    simp [hlt]
  · simp [hk]

lemma map_set_of_eq {β : Type} {l : List α} {i : Nat} {a a' : α} {f : α → β} (h : l[i]? = some a)
    (hf : f a' = f a) : (l.set i a').map f = l.map f := by
  obtain ⟨hlt, rfl⟩ := List.getElem?_eq_some_iff.mp h
  rw [List.map_set, hf, ← List.getElem_map f (h := by simpa using hlt), List.set_getElem_self]

lemma forall₂_set {R : α → α → Prop} (hrefl : ∀ a, R a a) {l : List α} {i : Nat}
    {a a' : α} (h : l[i]? = some a) (ha : R a a') : List.Forall₂ R l (l.set i a') := by
  rw [List.forall₂_iff_get]
  refine ⟨List.length_set.symm, ?_⟩
  intro k h₁ h₂
  simp only [List.get_eq_getElem, List.getElem_set]
  split
  · rename_i hk
    subst hk
    rw [(List.getElem?_eq_some_iff.mp h).2]
    exact ha
  · exact hrefl _

lemma forall₂_modify {R : α → α → Prop} (hrefl : ∀ a, R a a) {f : α → α}
    (hf : ∀ a, R a (f a)) (l : List α) (i : Nat) : List.Forall₂ R l (l.modify i f) := by
  cases h : l[i]? with
  | none =>
    rw [List.modify_eq_self (List.getElem?_eq_none_iff.mp h)]
    exact List.forall₂_same.mpr fun a _ => hrefl a
  | some a =>
    rw [modify_eq_set h]
    exact forall₂_set hrefl h (hf a)

lemma forall₂_trans {R : α → α → Prop} (htrans : ∀ a b c, R a b → R b c → R a c)
    {l m n : List α} (h : List.Forall₂ R l m) (h' : List.Forall₂ R m n) : List.Forall₂ R l n := by
  induction h generalizing n with
  | nil => exact h'
  | cons hab _ ih =>
    cases h' with
    | cons hbc hrest => exact .cons (htrans _ _ _ hab hbc) (ih hrest)

lemma getElem?_of_forall₂ {R : α → α → Prop} {l m : List α} (h : List.Forall₂ R l m)
    {k : Nat} {a' : α} (ha : m[k]? = some a') : ∃ a, l[k]? = some a ∧ R a a' := by
  induction h generalizing k with
  | nil => simp at ha
  | cons hab _ ih =>
    cases k with
    | zero =>
      obtain rfl : _ = a' := by simpa using ha
      exact ⟨_, rfl, hab⟩
    | succ k => exact ih (by simpa using ha)

lemma getElem?_of_prefix {a b : List α} (h : a <+: b) {i : Nat} {x : α}
    (hx : a[i]? = some x) : b[i]? = some x := by
  obtain ⟨t, rfl⟩ := h
  rw [List.getElem?_append_left (List.getElem?_eq_some_iff.mp hx).1, hx]

lemma getElem?_filter_iff {P : α → Bool} {l : List α} {i : Nat} {a : α} :
    (l.filter P)[i]? = some a ↔ ∃ k, l[k]? = some a ∧ P a = true ∧ (l.take k).countP P = i := by
  induction l generalizing i with
  | nil => simp
  | cons x rest ih =>
    cases hx : P x with
    | true =>
      rw [List.filter_cons_of_pos hx]
      cases i with
      | zero =>
        constructor
        · intro h
          obtain rfl : x = a := by simpa using h
          exact ⟨0, rfl, hx, rfl⟩
        · rintro ⟨k, ha, -, hcount⟩
          cases k with
          | zero => exact ha
          | succ k =>
            rw [List.take_succ_cons, List.countP_cons_of_pos hx] at hcount
            cases hcount
      | succ i =>
        rw [List.getElem?_cons_succ, ih]
        constructor
        · rintro ⟨k, ha, hP, rfl⟩
          exact ⟨k + 1, ha, hP, by rw [List.take_succ_cons, List.countP_cons_of_pos hx]⟩
        · rintro ⟨k, ha, hP, hcount⟩
          cases k with
          | zero => cases hcount
          | succ k =>
            rw [List.take_succ_cons, List.countP_cons_of_pos hx, Nat.add_right_cancel_iff] at hcount
            exact ⟨k, ha, hP, hcount⟩
    | false =>
      have hneg : ¬ P x = true := by simp [hx]
      rw [List.filter_cons_of_neg hneg, ih]
      constructor
      · rintro ⟨k, ha, hP, rfl⟩
        exact ⟨k + 1, ha, hP, by rw [List.take_succ_cons, List.countP_cons_of_neg hneg]⟩
      · rintro ⟨k, ha, hP, hcount⟩
        cases k with
        | zero =>
          obtain rfl : x = a := by simpa using ha
          exact absurd hP hneg
        | succ k =>
          rw [List.take_succ_cons, List.countP_cons_of_neg hneg] at hcount
          exact ⟨k, ha, hP, hcount⟩

lemma eq_of_countP_take {P : α → Bool} {l : List α} {k k' : Nat} {a a' : α} (ha : l[k]? = some a)
    (hP : P a = true) (ha' : l[k']? = some a') (hP' : P a' = true)
    (h : (l.take k).countP P = (l.take k').countP P) : k = k' := by
  have hless : ∀ {i j : Nat} {x : α}, l[i]? = some x → P x = true → i < j →
      (l.take i).countP P < (l.take j).countP P := by
    intro i j x hx hPx hij
    have hsucc : (l.take (i + 1)).countP P = (l.take i).countP P + 1 := by
      rw [List.take_add_one, hx, List.countP_append]
      simp [hPx]
    have hmore : (l.take (i + 1)).countP P ≤ (l.take j).countP P :=
      (List.take_prefix_take_left (l := l) hij).sublist.countP_le
    omega
  rcases Nat.lt_trichotomy k k' with hlt | rfl | hlt
  · have hlt := hless ha hP hlt
    omega
  · rfl
  · have hlt := hless ha' hP' hlt
    omega

lemma countP_eq_sum_of_key {l : List α} {key : α → Nat} {keys : List Nat} (hkeys : keys.Nodup)
    {P : α → Bool} (h : ∀ x ∈ l, P x = true → key x ∈ keys) :
    l.countP P = (keys.map fun j => (l.filter fun x => key x == j).countP P).sum := by
  induction keys generalizing l with
  | nil =>
    refine List.countP_eq_zero.mpr fun x hx hP => ?_
    cases h x hx hP
  | cons j rest ih =>
    rw [List.nodup_cons] at hkeys
    have hrest := ih (l := l.filter fun x => !(key x == j)) hkeys.2 fun x hx hP => by
      obtain ⟨hx, hne⟩ := List.mem_filter.mp hx
      refine (List.mem_cons.mp (h x hx hP)).resolve_left fun heq => ?_
      simp [heq] at hne
    rw [List.countP_eq_countP_filter_add l P fun x => key x == j, hrest, List.map_cons,
      List.sum_cons]
    congr 2
    refine List.map_congr_left fun j' hj' => ?_
    rw [List.filter_filter]
    congr 1
    refine List.filter_congr fun x _ => ?_
    have hne : j' ≠ j := by
      rintro rfl
      exact hkeys.1 hj'
    by_cases hx : key x = j' <;> simp [hx, hne]

lemma perm_flatMap_filter {key : α → Nat} {n : Nat} {l : List α} (h : ∀ x ∈ l, key x < n) :
    l.Perm ((List.range n).flatMap fun k => l.filter fun x => key x == k) := by
  induction n generalizing l with
  | zero =>
    cases l with
    | nil => exact .refl _
    | cons x rest => exact absurd (h x List.mem_cons_self) (Nat.not_lt_zero _)
  | succ n ih =>
    have hless := ih (l := l.filter fun x => !(key x == n)) fun x hx => by
      obtain ⟨hx, hne⟩ := List.mem_filter.mp hx
      have hlt := h x hx
      rw [Bool.not_eq_true', beq_eq_false_iff_ne] at hne
      omega
    have hsame : ((List.range n).flatMap fun k =>
        (l.filter fun x => !(key x == n)).filter fun x => key x == k) =
        (List.range n).flatMap fun k => l.filter fun x => key x == k := by
      refine List.flatMap_congr fun k hk => ?_
      rw [List.filter_filter]
      refine List.filter_congr fun x _ => ?_
      have hne : k ≠ n := Nat.ne_of_lt (List.mem_range.mp hk)
      by_cases hx : key x = k <;> simp [hx, hne]
    rw [hsame] at hless
    rw [List.range_succ, List.flatMap_append, List.flatMap_singleton]
    exact (List.filter_append_perm (fun x => key x == n) l).symm.trans
      (List.perm_append_comm.trans (hless.append_right _))

lemma filterMap_orElse_perm {β : Type} {l : List α} {g g' : α → Option β}
    (h : ∀ x ∈ l, g x = none ∨ g' x = none) :
    (l.filterMap fun x => g x <|> g' x).Perm (l.filterMap g ++ l.filterMap g') := by
  induction l with
  | nil => exact .refl _
  | cons x rest ih =>
    obtain ⟨hx, hrest⟩ := List.forall_mem_cons.mp h
    have hperm := ih hrest
    cases hg : g x with
    | some y =>
      have hg' : g' x = none := hx.resolve_left (by rw [hg]; simp)
      rw [List.filterMap_cons_some (b := y) (by simp [hg]), List.filterMap_cons_some hg,
        List.filterMap_cons_none hg']
      exact hperm.cons y
    | none =>
      cases hg' : g' x with
      | some y =>
        rw [List.filterMap_cons_some (b := y) (by simp [hg, hg']), List.filterMap_cons_none hg,
          List.filterMap_cons_some hg']
        exact (hperm.cons y).trans List.perm_middle.symm
      | none =>
        rw [List.filterMap_cons_none (by simp [hg, hg']), List.filterMap_cons_none hg,
          List.filterMap_cons_none hg']
        exact hperm

end LoadEngine
