import LoadEngine.Search.Validator
import Mathlib.Data.List.Infix
import Mathlib.Tactic.Lemma

/-! What a cursor has found is what there is to find. A partial match is always the longest one, so
the occurrences that are counted while a response comes in are those that one meets who looks for
the pattern from the front and goes on behind each. -/

namespace LoadEngine.Search

/-- The number of times that a pattern is met by going through a body from the front, on behind each
occurrence. An empty pattern is never met. -/
def occurrences (pattern : List UInt8) : List UInt8 → Nat
  | [] => 0
  | b :: rest =>
    if pattern ≠ [] ∧ pattern <+: b :: rest then
      occurrences pattern (rest.drop (pattern.length - 1)) + 1
    else occurrences pattern rest
termination_by body => body.length
decreasing_by all_goals simp only [List.length_drop, List.length_cons]; omega

example : occurrences [98, 97] [98, 97, 98, 97, 98] = 2 := by decide +kernel

variable {P seen : List UInt8} {byte : UInt8}

lemma occurrences_nil_pattern (body : List UInt8) : occurrences [] body = 0 := by
  induction body with
  | nil => simp [occurrences]
  | cons b rest ih => simpa [occurrences] using ih

lemma occurrences_cons_of_not_front {b : UInt8} {rest : List UInt8} (h : ¬ P <+: b :: rest) :
    occurrences P (b :: rest) = occurrences P rest := by
  rw [occurrences, if_neg fun hp => h hp.2]

lemma occurrences_of_absent {body : List UInt8} (h : ¬ P <:+: body) : occurrences P body = 0 := by
  induction body with
  | nil => simp [occurrences]
  | cons b rest ih =>
    rw [occurrences_cons_of_not_front fun hp => h hp.isInfix]
    exact ih fun hi => h (List.infix_cons hi)

lemma occurrences_pattern_append (hP : P ≠ []) (rest : List UInt8) :
    occurrences P (P ++ rest) = occurrences P rest + 1 := by
  cases P with
  | nil => exact absurd rfl hP
  | cons p ps =>
    have hfront : p :: ps ≠ [] ∧ p :: ps <+: p :: (ps ++ rest) :=
      ⟨hP, List.prefix_append (p :: ps) rest⟩
    rw [List.cons_append, occurrences, if_pos hfront]
    simp

lemma absent_cons {b : UInt8} {before : List UInt8} (hP : P ≠ [])
    (h : ¬ P <:+: (b :: before ++ P).dropLast) (rest : List UInt8) :
    ¬ P <+: b :: (before ++ P ++ rest) ∧ ¬ P <:+: (before ++ P).dropLast := by
  have hne : before ++ P ≠ [] := by simp [hP]
  rw [List.cons_append, List.dropLast_cons_of_ne_nil hne] at h
  refine ⟨fun hp => h ?_, fun hi => h (List.infix_cons hi)⟩
  have hfull : b :: (before ++ P).dropLast <+: b :: (before ++ P ++ rest) :=
    List.prefix_cons_inj b |>.mpr
      ((List.dropLast_prefix _).trans (List.prefix_append _ _))
  have hlength : P.length ≤ (b :: (before ++ P).dropLast).length := by
    simp only [List.length_cons, List.length_dropLast, List.length_append]
    omega
  exact (List.prefix_of_prefix_length_le hp hfull hlength).isInfix

lemma occurrences_append_pattern (hP : P ≠ []) {before : List UInt8}
    (h : ¬ P <:+: (before ++ P).dropLast) (rest : List UInt8) :
    occurrences P (before ++ P ++ rest) = occurrences P rest + 1 := by
  induction before with
  | nil => exact occurrences_pattern_append hP rest
  | cons b before ih =>
    obtain ⟨hnot, hrest⟩ := absent_cons hP h rest
    rw [List.cons_append, List.cons_append, occurrences_cons_of_not_front hnot]
    exact ih hrest

def unmatched (pattern : List UInt8) : List UInt8 → List UInt8
  | [] => []
  | b :: rest =>
    if pattern ≠ [] ∧ pattern <+: b :: rest then unmatched pattern (rest.drop (pattern.length - 1))
    else if occurrences pattern rest = 0 then b :: rest
    else unmatched pattern rest
termination_by body => body.length
decreasing_by all_goals simp only [List.length_drop, List.length_cons]; omega

example : unmatched [98, 97] [98, 97, 98, 97, 98] = [98] := by decide +kernel

lemma unmatched_of_absent {body : List UInt8} (h : ¬ P <:+: body) : unmatched P body = body := by
  cases body with
  | nil => rw [unmatched]
  | cons b rest =>
    have hrest : occurrences P rest = 0 :=
      occurrences_of_absent fun hi => h (List.infix_cons hi)
    rw [unmatched, if_neg fun hp => h hp.2.isInfix, if_pos hrest]

lemma unmatched_append_pattern (hP : P ≠ []) {before : List UInt8}
    (h : ¬ P <:+: (before ++ P).dropLast) (rest : List UInt8) :
    unmatched P (before ++ P ++ rest) = unmatched P rest := by
  induction before with
  | nil =>
    cases P with
    | nil => exact absurd rfl hP
    | cons p ps =>
      have hfront : p :: ps ≠ [] ∧ p :: ps <+: p :: (ps ++ rest) :=
        ⟨hP, List.prefix_append (p :: ps) rest⟩
      rw [List.nil_append, List.cons_append, unmatched, if_pos hfront]
      simp
  | cons b before ih =>
    obtain ⟨hnot, hrest⟩ := absent_cons hP h rest
    have hmet : occurrences P (before ++ P ++ rest) ≠ 0 := by
      rw [occurrences_append_pattern hP hrest]
      exact Nat.succ_ne_zero _
    rw [List.cons_append, List.cons_append, unmatched, if_neg fun hp => hnot hp.2, if_neg hmet]
    exact ih hrest

/-- The longest part from the front of the pattern, among those of the lengths up to `bound`, that
stands at the end of what was seen. -/
structure Longest (P : List UInt8) (bound : Nat) (seen : List UInt8) (k : Nat) : Prop where
  le : k ≤ bound
  suffix : P.take k <:+ seen
  max : ∀ m ≤ bound, P.take m <:+ seen → m ≤ k

lemma longest_nil {bound : Nat} (h : bound < P.length) : Longest P bound [] 0 := by
  refine ⟨Nat.zero_le _, List.nil_suffix, ?_⟩
  intro m hm hms
  have hlength := congrArg List.length (List.suffix_nil.mp hms)
  rw [List.length_take, List.length_nil] at hlength
  omega

def RightBelow (P : List UInt8) (borders : Array Nat) (n : Nat) : Prop :=
  ∀ q < n, Longest P q (P.take (q + 1)) (borders.getD q 0)

lemma take_succ_suffix_iff {m : Nat} (hm : m < P.length) :
    P.take (m + 1) <:+ seen ++ [byte] ↔ P.take m <:+ seen ∧ P[m]? = some byte := by
  rw [List.take_add_one, List.getElem?_eq_getElem hm, Option.toList_some]
  constructor
  · rintro ⟨front, h⟩
    rw [← List.append_assoc] at h
    obtain ⟨hfront, hbyte⟩ := List.append_inj' h rfl
    exact ⟨⟨front, hfront⟩, congrArg some (List.singleton_inj.mp hbyte)⟩
  · rintro ⟨⟨front, rfl⟩, hbyte⟩
    obtain rfl := Option.some.inj hbyte
    exact ⟨front, by rw [List.append_assoc]⟩

lemma fallback_spec {borders : Array Nat} (fits : Nat → Bool) {bound k : Nat}
    (hk : k < bound) (hborders : RightBelow P borders k) (hbound : bound ≤ P.length)
    (hsuffix : P.take k <:+ seen)
    (hmax : ∀ m < bound, P.take m <:+ seen → fits m = true → m ≤ k) :
    fallback borders fits k ≤ k ∧ P.take (fallback borders fits k) <:+ seen ∧
      (fallback borders fits k = 0 ∨ fits (fallback borders fits k) = true) ∧
      ∀ m < bound, P.take m <:+ seen → fits m = true → m ≤ fallback borders fits k := by
  induction k using fallback.induct borders fits with
  | case1 k hdone =>
    rw [fallback, if_pos hdone]
    exact ⟨Nat.le_refl k, hsuffix, hdone, hmax⟩
  | case2 k hstuck hlt ih =>
    obtain ⟨hpos, hfit⟩ := not_or.mp hstuck
    have hborder := hborders (k - 1) (by omega)
    rw [show k - 1 + 1 = k by omega] at hborder
    rw [fallback, if_neg hstuck, dif_pos hlt]
    have hshorter : ∀ m < bound, P.take m <:+ seen → fits m = true →
        m ≤ borders.getD (k - 1) 0 := by
      intro m hm hms hfm
      have hle := hmax m hm hms hfm
      have hne : m ≠ k := by
        rintro rfl
        exact hfit hfm
      refine hborder.max m (by omega) (List.suffix_of_suffix_length_le hms hsuffix ?_)
      simp only [List.length_take]
      omega
    obtain ⟨hle, hs, hend, hm⟩ := ih (by omega) (fun q hq => hborders q (by omega))
      (hborder.suffix.trans hsuffix) hshorter
    exact ⟨by omega, hs, hend, hm⟩
  | case3 k hstuck hge =>
    obtain ⟨hpos, -⟩ := not_or.mp hstuck
    have hborder := (hborders (k - 1) (by omega)).le
    omega

lemma extend_spec {borders : Array Nat} {fits : Nat → Bool} {bound k : Nat}
    (hbound : bound < P.length) (hborders : RightBelow P borders k)
    (hfits : ∀ m ≤ bound, fits m = true ↔ P[m]? = some byte) (h : Longest P bound seen k) :
    Longest P (bound + 1) (seen ++ [byte]) (extend borders fits k) := by
  obtain ⟨hle, hsuffix, hend, hmax⟩ := fallback_spec fits
    (Nat.lt_succ_of_le h.le) hborders (by omega) h.suffix
    fun m hm hms _ => h.max m (Nat.le_of_lt_succ hm) hms
  have hk := h.le
  unfold extend
  simp only
  by_cases hfit : fits (fallback borders fits k) = true
  · rw [if_pos hfit]
    have hbyte := (hfits _ (by omega)).mp hfit
    refine ⟨by omega, (take_succ_suffix_iff (by omega)).mpr ⟨hsuffix, hbyte⟩, ?_⟩
    intro m hm hms
    cases m with
    | zero => exact Nat.zero_le _
    | succ m =>
      obtain ⟨hms, hmb⟩ := (take_succ_suffix_iff (by omega)).mp hms
      have hmk := hmax m (by omega) hms ((hfits m (by omega)).mpr hmb)
      omega
  · rw [if_neg hfit]
    have hzero := hend.resolve_right hfit
    rw [hzero] at hfit hmax ⊢
    refine ⟨Nat.zero_le _, List.nil_suffix, ?_⟩
    intro m hm hms
    cases m with
    | zero => exact Nat.le_refl 0
    | succ m =>
      obtain ⟨hms, hmb⟩ := (take_succ_suffix_iff (by omega)).mp hms
      have hfm := (hfits m (by omega)).mpr hmb
      have hmk := hmax m (by omega) hms hfm
      rw [Nat.le_zero.mp hmk] at hfm
      exact absurd hfm hfit

lemma getD_beq_iff {pattern : Array UInt8} {i m : Nat} (hi : i < pattern.size)
    (hm : m < pattern.size) :
    (pattern.getD i 0 == pattern.getD m 0) = true ↔ pattern.toList[m]? = some pattern[i] := by
  have hbyte : pattern.toList[m]? = some pattern[m] := by simp [hm]
  rw [hbyte, Option.some.injEq, beq_iff_eq]
  simp only [Array.getD_eq_getD_getElem?, Array.getElem?_eq_getElem hi,
    Array.getElem?_eq_getElem hm, Option.getD_some]
  exact eq_comm

lemma extendBorders_spec {pattern : Array UInt8} (rest : Nat) {table : Array Nat}
    (hsize : table.size + rest = pattern.size) (hpos : 0 < table.size)
    (h : RightBelow pattern.toList table table.size) :
    RightBelow pattern.toList (extendBorders pattern rest table) pattern.size := by
  -- The invariant is that the table is right as far as it goes.
  induction rest generalizing table with
  | zero =>
    rw [Nat.add_zero] at hsize
    rw [← hsize]
    exact h
  | succ rest ih =>
    have hlt : table.size < pattern.toList.length := by
      rw [Array.length_toList]
      omega
    have hback : table.back?.getD 0 = table.getD (table.size - 1) 0 := by
      simp [Array.back?_eq_getElem?, Array.getD_eq_getD_getElem?]
    have hlast := h (table.size - 1) (by omega)
    rw [← hback, show table.size - 1 + 1 = table.size by omega] at hlast
    have hnew : Longest pattern.toList table.size (pattern.toList.take (table.size + 1))
        (extend table (fun k => pattern.getD table.size 0 == pattern.getD k 0)
          (table.back?.getD 0)) := by
      have hfits : ∀ m ≤ table.size - 1,
          (pattern.getD table.size 0 == pattern.getD m 0) = true ↔
            pattern.toList[m]? = some pattern.toList[table.size] :=
        fun m hm => getD_beq_iff hlt (by omega)
      have hlonger := extend_spec (by omega) (fun q hq => h q (by have := hlast.le; omega))
        hfits hlast
      rw [List.take_add_one, List.getElem?_eq_getElem hlt, Option.toList_some]
      rwa [show table.size - 1 + 1 = table.size by omega] at hlonger
    rw [extendBorders]
    apply ih
    · rw [Array.size_push]
      omega
    · rw [Array.size_push]
      omega
    · intro q hq
      rw [Array.size_push] at hq
      by_cases hlast : q = table.size
      · subst hlast
        simpa using hnew
      · have hlower : q < table.size := by omega
        have hsame : (table.push (extend table (fun k => pattern.getD table.size 0 ==
            pattern.getD k 0) (table.back?.getD 0))).getD q 0 = table.getD q 0 := by
          simp [Array.getD_eq_getD_getElem?, Array.getElem?_push, hlast]
        rw [hsame]
        exact h q hlower

lemma borderTable_spec (pattern : Array UInt8) :
    RightBelow pattern.toList (borderTable pattern) pattern.size := by
  unfold borderTable
  split
  · intro q hq
    omega
  · apply extendBorders_spec (pattern.size - 1)
    · simp only [List.size_toArray, List.length_cons, List.length_nil]
      omega
    · simp
    · intro q hq
      obtain rfl : q = 0 := by simpa using hq
      refine ⟨Nat.le_refl 0, List.nil_suffix, ?_⟩
      intro m hm _
      exact hm

namespace Validator

variable {v : Validator}

lemma scan_eq (v : Validator) (k n : Nat) (byte : UInt8) :
    v.scan (k, n) byte =
      if extend v.borders (fun i => v.pattern[i]? == some byte) k = v.pattern.size then (0, n + 1)
      else (extend v.borders (fun i => v.pattern[i]? == some byte) k, n) := by
  unfold scan feedByte
  simp only
  split_ifs <;> rfl

lemma extend_longest (hpos : 0 < v.pattern.size) {k : Nat} (byte : UInt8)
    (h : Longest v.pattern.toList (v.pattern.size - 1) seen k) :
    Longest v.pattern.toList v.pattern.size (seen ++ [byte])
      (extend v.borders (fun i => v.pattern[i]? == some byte) k) := by
  have hle := h.le
  have hborders : RightBelow v.pattern.toList v.borders k := by
    intro q hq
    rw [v.borders_eq]
    exact borderTable_spec v.pattern q (by omega)
  have hfits : ∀ m ≤ v.pattern.size - 1,
      (v.pattern[m]? == some byte) = true ↔ v.pattern.toList[m]? = some byte := by simp
  have hlonger := extend_spec (by rw [Array.length_toList]; omega) hborders hfits h
  rwa [show v.pattern.size - 1 + 1 = v.pattern.size by omega] at hlonger

lemma foldl_scan (hpos : 0 < v.pattern.size) (body seen : List UInt8) (k n : Nat)
    (h : Longest v.pattern.toList (v.pattern.size - 1) seen k)
    (hnone : ¬ v.pattern.toList <:+: seen) :
    (body.foldl v.scan (k, n)).2 = n + occurrences v.pattern.toList (seen ++ body) ∧
      ¬ v.pattern.toList <:+: unmatched v.pattern.toList (seen ++ body) ∧
      Longest v.pattern.toList (v.pattern.size - 1) (unmatched v.pattern.toList (seen ++ body))
        (body.foldl v.scan (k, n)).1 := by
  have hne : v.pattern.toList ≠ [] := by
    intro hnil
    have hlength := congrArg List.length hnil
    rw [Array.length_toList, List.length_nil] at hlength
    omega
  have hwhole : v.pattern.toList.take v.pattern.size = v.pattern.toList := by simp
  -- `seen` is what came since the last occurrence, and no occurrence lies in it.
  induction body generalizing seen k n with
  | nil =>
    rw [List.append_nil, occurrences_of_absent hnone, unmatched_of_absent hnone]
    exact ⟨rfl, hnone, h⟩
  | cons b rest ih =>
    have hnext := extend_longest hpos b h
    rw [List.foldl_cons, scan_eq]
    split
    · rename_i hfull
      have hsuffix := hnext.suffix
      rw [hfull, hwhole] at hsuffix
      obtain ⟨before, hbefore⟩ := hsuffix
      have hfirst : ¬ v.pattern.toList <:+: (before ++ v.pattern.toList).dropLast := by
        rwa [hbefore, List.dropLast_concat]
      have hcount := occurrences_append_pattern hne hfirst rest
      have hbehind := unmatched_append_pattern hne hfirst rest
      rw [hbefore, List.append_assoc, List.singleton_append] at hcount hbehind
      obtain ⟨hfound, hrest⟩ := ih [] 0 (n + 1)
        (longest_nil (by rw [Array.length_toList]; omega)) fun hi => hne (List.infix_nil.mp hi)
      rw [List.nil_append] at hfound hrest
      rw [hcount, hbehind, hfound]
      exact ⟨by omega, hrest⟩
    · rename_i hpart
      have hle := hnext.le
      have hlater : ¬ v.pattern.toList <:+: seen ++ [b] := by
        rw [List.infix_concat_iff]
        rintro (hs | hi)
        · rw [← hwhole] at hs
          have hmax := hnext.max v.pattern.size (Nat.le_refl _) hs
          omega
        · exact hnone hi
      have hrest := ih (seen ++ [b]) _ n
        ⟨by omega, hnext.suffix, fun m hm => hnext.max m (by omega)⟩ hlater
      rwa [List.append_assoc, List.singleton_append] at hrest

lemma foldl_scan_start (hpos : 0 < v.pattern.size) (body : List UInt8) :
    (body.foldl v.scan (0, 0)).2 = occurrences v.pattern.toList body ∧
      ¬ v.pattern.toList <:+: unmatched v.pattern.toList body ∧
      Longest v.pattern.toList (v.pattern.size - 1) (unmatched v.pattern.toList body)
        (body.foldl v.scan (0, 0)).1 := by
  have hstart : Longest v.pattern.toList (v.pattern.size - 1) [] 0 :=
    longest_nil (by rw [Array.length_toList]; omega)
  have habsent : ¬ v.pattern.toList <:+: [] := by
    intro hi
    have hlength := congrArg List.length (List.infix_nil.mp hi)
    rw [Array.length_toList, List.length_nil] at hlength
    omega
  have hscan := foldl_scan hpos body [] 0 0 hstart habsent
  rwa [Nat.zero_add, List.nil_append] at hscan

lemma feed_append (v : Validator) (c : Cursor) (a b : List UInt8) :
    v.feed c (a ++ b) = v.feed (v.feed c a) b := by
  unfold feed
  split
  · simp [Nat.add_assoc]
  · simp [List.foldl_append, Nat.add_assoc]

lemma feed_start_nil (v : Validator) : v.feed .start [] = .start := by
  unfold feed
  split <;> rfl

/-- A cursor that has seen a body has found what there is to find in it. -/
theorem feed_start_found (v : Validator) (body : List UInt8) :
    (v.feed .start body).found = occurrences v.pattern.toList body := by
  unfold feed
  split
  · rename_i hempty
    have hnil : v.pattern.toList = [] := by simpa using hempty
    rw [hnil, occurrences_nil_pattern]
    rfl
  · rename_i hne
    have hpos : 0 < v.pattern.size := by
      rw [Array.isEmpty_iff_size_eq_zero] at hne
      omega
    simpa [Cursor.start] using (foldl_scan_start hpos body).1

end Validator

end LoadEngine.Search
