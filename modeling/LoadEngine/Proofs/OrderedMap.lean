import LoadEngine.OrderedMap
import Mathlib.Data.List.Sort
import Mathlib.Tactic.Lemma

/-! What a rebinding does to look-ups. Sortedness matters here: a key that is not met before a
larger one is not bound at all. -/

namespace LoadEngine.OrderedMap

universe u v

variable {κ : Type u} {α : Type v} [BEq κ]

@[simp] lemma get?_empty [LT κ] (k : κ) : (∅ : OrderedMap κ α).get? k = none := rfl

variable [LawfulBEq κ] [DecidableEq κ]

lemma lookup_cons_ite (i j : κ) (a : α) (l : List (κ × α)) :
    ((i, a) :: l).lookup j = if j = i then some a else l.lookup j := by
  by_cases h : j = i
  · simp [h]
  · have hb : (j == i) = false := by simpa using h
    simp [List.lookup_cons, hb, h]

lemma lookup_eq_none {k : κ} {l : List (κ × α)} (h : ∀ x ∈ l, x.1 ≠ k) : l.lookup k = none := by
  induction l with
  | nil => rfl
  | cons x rest ih =>
    rw [lookup_cons_ite, if_neg (h x (by simp)).symm]
    exact ih fun y hy => h y (List.mem_cons_of_mem _ hy)

lemma mem_of_lookup {k : κ} {a : α} {l : List (κ × α)} (h : l.lookup k = some a) : (k, a) ∈ l := by
  induction l with
  | nil => cases h
  | cons x rest ih =>
    obtain ⟨i, b⟩ := x
    rw [lookup_cons_ite] at h
    split at h
    · rename_i hk
      cases h
      exact hk ▸ List.mem_cons_self
    · exact List.mem_cons_of_mem _ (ih h)

lemma mem_iff_lookup [LT κ] [Std.Irrefl (α := κ) (· < ·)] {k : κ} {a : α} {l : List (κ × α)}
    (h : l.Pairwise fun x y => x.1 < y.1) :
    (k, a) ∈ l ↔ l.lookup k = some a := by
  refine ⟨fun hmem => ?_, mem_of_lookup⟩
  induction l with
  | nil => cases hmem
  | cons x rest ih =>
    obtain ⟨i, b⟩ := x
    rw [List.pairwise_cons] at h
    rw [lookup_cons_ite]
    rcases List.mem_cons.mp hmem with heq | hmem
    · cases heq
      rw [if_pos rfl]
    · have hlt := h.1 _ hmem
      rw [if_neg, ih h.2 hmem]
      rintro rfl
      exact Std.Irrefl.irrefl (r := ((· < ·) : κ → κ → Prop)) _ hlt

lemma ext_get? [LT κ] [Trans (α := κ) (· < ·) (· < ·) (· < ·)] [Std.Irrefl (α := κ) (· < ·)]
    {m m' : OrderedMap κ α} (h : ∀ k, m.get? k = m'.get? k) : m = m' := by
  have hirr (x : κ) : ¬ x < x := Std.Irrefl.irrefl (r := ((· < ·) : κ → κ → Prop)) x
  have hnodup (m : OrderedMap κ α) : m.toList.Nodup := by
    refine m.sorted.imp fun hlt heq => ?_
    rw [heq] at hlt
    exact hirr _ hlt
  have hperm : m.toList.Perm m'.toList := by
    rw [List.perm_ext_iff_of_nodup (hnodup m) (hnodup m')]
    rintro ⟨k, a⟩
    rw [mem_iff_lookup m.sorted, mem_iff_lookup m'.sorted]
    exact Eq.congr_left (h k)
  refine ext (hperm.eq_of_pairwise (fun x y _ _ hxy hyx => ?_) m.sorted m'.sorted)
  exact absurd (Trans.trans (r := ((· < ·) : κ → κ → Prop)) hxy hyx) (hirr _)

lemma get?_map [LT κ] {β : Type v} (f : α → β) (m : OrderedMap κ α) (k : κ) :
    (m.map f).get? k = (m.get? k).map f := by
  unfold map get?
  simp only
  induction m.toList with
  | nil => rfl
  | cons x rest ih =>
    obtain ⟨i, a⟩ := x
    rw [List.map_cons, lookup_cons_ite, lookup_cons_ite, ih]
    split <;> rfl

lemma lookup_of_lt [LT κ] [Trans (α := κ) (· < ·) (· < ·) (· < ·)]
    [Std.Irrefl (α := κ) (· < ·)] {k i : κ} {a : α} {rest : List (κ × α)}
    (h : ((i, a) :: rest).Pairwise fun x y => x.1 < y.1) (hk : k < i) :
    ((i, a) :: rest).lookup k = none := by
  have hirr (x : κ) : ¬ x < x := Std.Irrefl.irrefl (r := ((· < ·) : κ → κ → Prop)) x
  rw [List.pairwise_cons] at h
  apply lookup_eq_none
  intro x hx he
  subst he
  rcases List.mem_cons.mp hx with rfl | hx
  · exact hirr _ hk
  · exact hirr _ (Trans.trans (r := ((· < ·) : κ → κ → Prop)) hk (h.1 x hx))

variable [LT κ] [DecidableLT κ] [Trans (α := κ) (· < ·) (· < ·) (· < ·)]
  [Std.Irrefl (α := κ) (· < ·)] [Std.Trichotomous (α := κ) (· < ·)]

lemma lookup_updateEntries (k j : κ) (f : Option α → α) {l : List (κ × α)}
    (h : l.Pairwise fun x y => x.1 < y.1) :
    (updateEntries k f l).lookup j = if j = k then some (f (l.lookup k)) else l.lookup j := by
  have hirr (x : κ) : ¬ x < x := Std.Irrefl.irrefl (r := ((· < ·) : κ → κ → Prop)) x
  induction l with
  | nil =>
    change ([(k, f none)] : List (κ × α)).lookup j = _
    simp [lookup_cons_ite]
  | cons e rest ih =>
    obtain ⟨i, a⟩ := e
    rw [updateEntries_cons]
    split
    · rename_i hk
      rw [lookup_of_lt h hk, lookup_cons_ite]
    · rename_i hk
      rw [List.pairwise_cons] at h
      split
      · rename_i hi
        have hne : k ≠ i := by
          rintro rfl
          exact hirr _ hi
        rw [lookup_cons_ite, lookup_cons_ite, lookup_cons_ite, if_neg hne, ih h.2]
        by_cases hj : j = i
        · have hjk : j ≠ k := fun hh => hne (hh.symm.trans hj)
          simp [hj, hne.symm]
        · simp [hj]
      · rename_i hi
        have he : k = i := Std.Trichotomous.trichotomous (r := ((· < ·) : κ → κ → Prop)) _ _ hk hi
        subst he
        simp only [lookup_cons_ite, if_true]
        by_cases hj : j = k <;> simp [hj]

lemma sum_updateEntries {k : κ} {a : α} (f : Option α → α) (g : α → Nat) {l : List (κ × α)}
    (h : l.Pairwise fun x y => x.1 < y.1) (ha : l.lookup k = some a) :
    ((updateEntries k f l).map fun x => g x.2).sum + g a =
      (l.map fun x => g x.2).sum + g (f (some a)) := by
  have hirr (x : κ) : ¬ x < x := Std.Irrefl.irrefl (r := ((· < ·) : κ → κ → Prop)) x
  induction l with
  | nil => cases ha
  | cons e rest ih =>
    obtain ⟨i, b⟩ := e
    rw [updateEntries_cons]
    split
    · rename_i hk
      rw [lookup_of_lt h hk] at ha
      cases ha
    · rename_i hk
      rw [List.pairwise_cons] at h
      rw [lookup_cons_ite] at ha
      split
      · rename_i hi
        have hne : k ≠ i := by
          rintro rfl
          exact hirr _ hi
        rw [if_neg hne] at ha
        have hrest := ih h.2 ha
        simp only [List.map_cons, List.sum_cons]
        omega
      · rename_i hi
        have he : k = i := Std.Trichotomous.trichotomous (r := ((· < ·) : κ → κ → Prop)) _ _ hk hi
        rw [if_pos he, Option.some.injEq] at ha
        subst ha
        simp only [List.map_cons, List.sum_cons]
        omega

lemma sum_values_insert (m : OrderedMap κ α) {k : κ} {a : α} (ha : m.get? k = some a) (a' : α)
    (g : α → Nat) : ((m.insert k a').values.map g).sum + g a = (m.values.map g).sum + g a' := by
  simp only [values, List.map_map]
  exact sum_updateEntries (fun _ => a') g m.sorted ha

lemma get?_update (m : OrderedMap κ α) (k j : κ) (f : Option α → α) :
    (m.update k f).get? j = if j = k then some (f (m.get? k)) else m.get? j :=
  lookup_updateEntries k j f m.sorted

lemma get?_insert (m : OrderedMap κ α) (k j : κ) (a : α) :
    (m.insert k a).get? j = if j = k then some a else m.get? j :=
  get?_update m k j fun _ => a

@[simp] lemma get?_insert_self (m : OrderedMap κ α) (k : κ) (a : α) :
    (m.insert k a).get? k = some a := by
  simp [get?_insert]

lemma get?_insert_ne (m : OrderedMap κ α) {k j : κ} (a : α) (h : j ≠ k) :
    (m.insert k a).get? j = m.get? j := by
  simp [get?_insert, h]

lemma get?_insert_eq_some {m : OrderedMap κ α} {k j : κ} {a b : α}
    (h : (m.insert k a).get? j = some b) : j = k ∧ b = a ∨ j ≠ k ∧ m.get? j = some b := by
  rw [get?_insert] at h
  split at h
  · rename_i hj
    exact .inl ⟨hj, (Option.some.inj h).symm⟩
  · rename_i hj
    exact .inr ⟨hj, h⟩

lemma get?_insert_eq_none {m : OrderedMap κ α} {k j : κ} {a : α}
    (h : (m.insert k a).get? j = none) : j ≠ k ∧ m.get? j = none := by
  rw [get?_insert] at h
  split at h
  · cases h
  · rename_i hj
    exact ⟨hj, h⟩

lemma exists_get?_insert (m : OrderedMap κ α) {k j : κ} (a : α)
    (h : j = k ∨ ∃ b, m.get? j = some b) : ∃ b, (m.insert k a).get? j = some b := by
  rw [get?_insert]
  split
  · exact ⟨a, rfl⟩
  · rename_i hj
    exact h.resolve_left hj

end LoadEngine.OrderedMap
