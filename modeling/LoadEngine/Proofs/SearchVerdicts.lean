import LoadEngine.Proofs.StreamedSearch

/-! What a validator reports while a response comes in is right about every way in which the
response may go on. Occurrences that were met stay, and whatever part of the pattern stands at the
end of a body, the whole pattern behind it completes one more and no second one. -/

namespace LoadEngine.Search

variable {P : List UInt8}

lemma occurrences_of_short {body : List UInt8} (h : body.length < P.length) :
    occurrences P body = 0 := by
  apply occurrences_of_absent
  intro hinfix
  exact Nat.not_le_of_lt h hinfix.length_le

lemma occurrences_append (P body rest : List UInt8) :
    occurrences P (body ++ rest) =
      occurrences P body + occurrences P (unmatched P body ++ rest) := by
  induction body using unmatched.induct P with
  | case1 => rw [occurrences, unmatched, Nat.zero_add]
  | case2 b tail hfront ih =>
    have hwhole : P ≠ [] ∧ P <+: b :: (tail ++ rest) :=
      ⟨hfront.1, hfront.2.trans (List.prefix_append (b :: tail) rest)⟩
    have hlength : P.length - 1 ≤ tail.length := Nat.sub_le_of_le_add hfront.2.length_le
    rw [List.cons_append, occurrences, if_pos hwhole, List.drop_append_of_le_length hlength, ih,
      occurrences, if_pos hfront, unmatched, if_pos hfront, Nat.add_right_comm]
  | case3 b tail hfront hnone =>
    have habsent : occurrences P (b :: tail) = 0 := by
      rw [occurrences, if_neg hfront, hnone]
    rw [habsent, unmatched, if_neg hfront, if_pos hnone, Nat.zero_add]
  | case4 b tail hfront hsome ih =>
    -- The tail has room for the pattern, so what follows does not put one in front.
    have hlength : P.length ≤ (b :: tail).length := by
      by_contra hshort
      rw [List.length_cons] at hshort
      exact hsome (occurrences_of_short (by omega))
    have hbehind : ¬(P ≠ [] ∧ P <+: b :: (tail ++ rest)) := by
      rintro ⟨hne, hprefix⟩
      have hpart := List.prefix_append (b :: tail) rest
      exact hfront ⟨hne, List.prefix_of_prefix_length_le hprefix hpart hlength⟩
    rw [List.cons_append, occurrences, if_neg hbehind, ih, occurrences, if_neg hfront, unmatched,
      if_neg hfront, if_neg hsome]

lemma occurrences_of_absent_append (hP : P ≠ []) {body : List UInt8} (h : ¬P <:+: body) :
    occurrences P (body ++ P) = 1 := by
  induction body with
  | nil =>
    have hone := occurrences_pattern_append hP []
    rwa [List.append_nil, occurrences] at hone
  | cons b tail ih =>
    by_cases hfront : P <+: b :: (tail ++ P)
    · obtain ⟨rest, hrest⟩ := hfront
      have hlength : (P ++ rest).length = (b :: (tail ++ P)).length := congrArg List.length hrest
      have hshort : (b :: tail).length < P.length := by
        by_contra hlong
        have hpart : b :: tail <+: P ++ rest := ⟨P, hrest.symm⟩
        have hprefix := List.prefix_of_prefix_length_le (List.prefix_append P rest) hpart
          (Nat.le_of_not_lt hlong)
        exact h hprefix.isInfix
      simp only [List.length_append, List.length_cons] at hlength hshort
      rw [List.cons_append, ← hrest, occurrences_pattern_append hP,
        occurrences_of_short (by omega)]
    · rw [List.cons_append, occurrences_cons_of_not_front hfront]
      exact ih fun hi => h (List.infix_cons hi)

def Predicate.bound : Predicate → Nat
  | exactly n => n
  | atLeast n => n
  | atMost n => n

namespace Predicate

variable {p : Predicate} {count limit n : Nat}

lemma exceeded_mono (h : p.exceeded count = true) (hn : count ≤ n) : p.exceeded n = true := by
  cases p with
  | exactly m | atMost m =>
    rw [exceeded, decide_eq_true_eq] at h ⊢
    omega
  | atLeast m => cases h

lemma test_of_exceeded (h : p.exceeded n = true) : p.test n = false := by
  cases p with
  | exactly m =>
    rw [exceeded, decide_eq_true_eq] at h
    rw [test, beq_eq_false_iff_ne]
    omega
  | atLeast m => cases h
  | atMost m =>
    rw [exceeded, decide_eq_true_eq] at h
    rw [test, decide_eq_false_iff_not]
    omega

lemma exists_test (hbound : p.bound < limit) (hcount : count < limit)
    (h : p.exceeded count = false) : ∃ n, count ≤ n ∧ n < limit ∧ p.test n = true := by
  cases p with
  | exactly m =>
    rw [exceeded, decide_eq_false_iff_not, Nat.not_lt] at h
    exact ⟨m, h, hbound, beq_self_eq_true m⟩
  | atLeast m =>
    exact ⟨max count m, Nat.le_max_left _ _, Nat.max_lt.mpr ⟨hcount, hbound⟩,
      decide_eq_true (Nat.le_max_right _ _)⟩
  | atMost m =>
    rw [exceeded, decide_eq_false_iff_not, Nat.not_lt] at h
    exact ⟨count, Nat.le_refl _, hcount, decide_eq_true h⟩

lemma status_unsatisfiable_iff : p.status n = .unsatisfiable ↔ p.exceeded n = true := by
  unfold status
  split
  · rename_i hexceeded
    exact iff_of_true rfl hexceeded
  · rename_i hexceeded
    refine iff_of_false ?_ hexceeded
    split <;> exact nofun

lemma status_satisfied_iff : p.status n = .satisfied ↔ p.test n = true := by
  unfold status
  split
  · rename_i hexceeded
    refine iff_of_false nofun ?_
    rw [test_of_exceeded hexceeded]
    exact nofun
  · split
    · rename_i htest
      exact iff_of_true rfl htest
    · rename_i htest
      exact iff_of_false nofun htest

lemma status_pending_iff :
    p.status n = .pending ↔ p.test n = false ∧ p.exceeded n = false := by
  unfold status
  cases p.exceeded n <;> cases p.test n <;> simp

end Predicate

namespace Validator

variable {v : Validator} {fragments : List (List UInt8)}

/-- What is reported once some fragments of a response have come in. -/
def report (v : Validator) (fragments : List (List UInt8)) : Status :=
  v.status (fragments.foldl v.feed .start)

def Meets (v : Validator) (fragments : List (List UInt8)) : Prop :=
  v.predicate.test (occurrences v.pattern.toList fragments.flatten) = true

def Countable (v : Validator) (fragments : List (List UInt8)) : Prop :=
  occurrences v.pattern.toList fragments.flatten < 2 ^ 32

lemma report_eq (v : Validator) (fragments : List (List UInt8)) : v.report fragments =
    v.predicate.status (occurrences v.pattern.toList fragments.flatten) := by
  rw [report, status, foldl_feed, feed_start_found]

lemma occurrences_le_append (v : Validator) (fragments more : List (List UInt8)) :
    occurrences v.pattern.toList fragments.flatten ≤
      occurrences v.pattern.toList (fragments ++ more).flatten := by
  rw [List.flatten_append, occurrences_append]
  exact Nat.le_add_right _ _

lemma exists_more (hpattern : v.pattern ≠ #[]) {n : Nat}
    (hn : occurrences v.pattern.toList fragments.flatten ≤ n) :
    ∃ more, occurrences v.pattern.toList (fragments ++ more).flatten = n := by
  have hpos : 0 < v.pattern.size := Array.size_pos_iff.mpr hpattern
  have hne : v.pattern.toList ≠ [] := mt Array.toList_eq_nil_iff.mp hpattern
  induction n, hn using Nat.le_induction with
  | base => exact ⟨[], by rw [List.append_nil]⟩
  | succ n _ ih =>
    obtain ⟨more, hmore⟩ := ih
    have habsent := (feed_start_partial hpos (fragments ++ more).flatten).1
    refine ⟨more ++ [v.pattern.toList], ?_⟩
    rw [← List.append_assoc, List.flatten_append, List.flatten_singleton, occurrences_append, hmore,
      occurrences_of_absent_append hne habsent]

/-- A response is reported as satisfied when the condition holds of it, as unsatisfiable when the
condition fails of it however it goes on, and as pending when the condition fails now and holds
after some further fragments. What is unsatisfiable stays so. -/
theorem report_exact (hpattern : v.pattern ≠ #[]) (hbound : v.predicate.bound < 2 ^ 32)
    (hcount : v.Countable fragments) :
    (v.report fragments = .satisfied ↔ v.Meets fragments) ∧
    (v.report fragments = .unsatisfiable ↔
      ∀ more, v.Countable (fragments ++ more) → ¬v.Meets (fragments ++ more)) ∧
    (v.report fragments = .pending ↔ ¬v.Meets fragments ∧
      ∃ more, v.Countable (fragments ++ more) ∧ v.Meets (fragments ++ more)) ∧
    (v.report fragments = .unsatisfiable →
      ∀ more, v.report (fragments ++ more) = .unsatisfiable) := by
  -- Occurrences only become more: what is too many stays so, and what is not can be made to fit.
  have hnever (hexceeded : v.predicate.exceeded
      (occurrences v.pattern.toList fragments.flatten) = true) (more : List (List UInt8)) :
      v.predicate.exceeded (occurrences v.pattern.toList (fragments ++ more).flatten) = true :=
    Predicate.exceeded_mono hexceeded (v.occurrences_le_append fragments more)
  have hreach (hnot : v.predicate.exceeded
      (occurrences v.pattern.toList fragments.flatten) = false) :
      ∃ more, v.Countable (fragments ++ more) ∧ v.Meets (fragments ++ more) := by
    obtain ⟨n, hle, hlt, htest⟩ := Predicate.exists_test hbound hcount hnot
    obtain ⟨more, hmore⟩ := exists_more hpattern hle
    refine ⟨more, ?_, ?_⟩
    · rwa [Countable, hmore]
    · rwa [Meets, hmore]
  have hfails {more : List (List UInt8)} (hexceeded : v.predicate.exceeded
      (occurrences v.pattern.toList fragments.flatten) = true) : ¬v.Meets (fragments ++ more) := by
    rw [Meets, Predicate.test_of_exceeded (hnever hexceeded more)]
    exact Bool.false_ne_true
  simp only [report_eq]
  refine ⟨Predicate.status_satisfied_iff, ?_, ?_, fun hreport more => ?_⟩
  · rw [Predicate.status_unsatisfiable_iff]
    constructor
    · intro hexceeded more _
      exact hfails hexceeded
    · intro hall
      by_contra hnot
      obtain ⟨more, hmore, hmeets⟩ := hreach (Bool.eq_false_iff.mpr hnot)
      exact hall more hmore hmeets
  · rw [Predicate.status_pending_iff]
    constructor
    · rintro ⟨htest, hnot⟩
      exact ⟨Bool.eq_false_iff.mp htest, hreach hnot⟩
    · rintro ⟨hmeets, more, -, hlater⟩
      exact ⟨Bool.eq_false_iff.mpr hmeets,
        Bool.eq_false_iff.mpr fun hexceeded => hfails hexceeded hlater⟩
  · rw [Predicate.status_unsatisfiable_iff] at hreport ⊢
    exact hnever hreport more

theorem report_exact_abab :
    let v := Validator.new #[97, 98, 97, 98] (.exactly 1)
    let cut := [[120, 97], [98, 97]]
    let twice := [[120, 97], [98, 97], [98, 97, 98], [97, 98]]
    v.pattern ≠ #[] ∧ v.predicate.bound < 2 ^ 32 ∧ v.Countable cut ∧ v.Countable twice ∧
      (∃ more, v.Countable (cut ++ more) ∧ v.Meets (cut ++ more)) ∧
      v.Meets (cut ++ [[98]]) ∧ v.report (cut ++ [[98]]) = .satisfied ∧
      (∀ more, v.Countable (twice ++ more) → ¬v.Meets (twice ++ more)) ∧
      ∀ more, v.report (twice ++ more) = .unsatisfiable := by
  intro v cut twice
  have hpattern : v.pattern ≠ #[] := by decide
  have hbound : v.predicate.bound < 2 ^ 32 := by decide
  have hcut : v.Countable cut := by
    have hnone : occurrences v.pattern.toList cut.flatten = 0 := by decide +kernel
    rw [Countable, hnone]
    decide
  have honce : occurrences v.pattern.toList (cut ++ [[98]]).flatten = 1 := by decide +kernel
  have hlater : v.Countable (cut ++ [[98]]) := by
    rw [Countable, honce]
    decide
  have hmeets : v.Meets (cut ++ [[98]]) := by
    rw [Meets, honce]
    rfl
  have htwice : v.Countable twice := by
    have htwo : occurrences v.pattern.toList twice.flatten = 2 := by decide +kernel
    rw [Countable, htwo]
    decide
  have hpending : v.report cut = .pending := by decide +kernel
  have hover : v.report twice = .unsatisfiable := by decide +kernel
  obtain ⟨-, -, hiff, -⟩ := report_exact hpattern hbound hcut
  obtain ⟨hsatisfied, -⟩ := report_exact hpattern hbound hlater
  obtain ⟨-, hnever, -, hstays⟩ := report_exact hpattern hbound htwice
  exact ⟨hpattern, hbound, hcut, htwice, (hiff.mp hpending).2, hmeets, hsatisfied.mpr hmeets,
    hnever.mp hover, hstays hover⟩

end Validator

end LoadEngine.Search
