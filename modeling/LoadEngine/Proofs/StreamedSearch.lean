import LoadEngine.Proofs.Occurrences
import Mathlib.Data.List.Infix
import Mathlib.Tactic.Lemma

/-! A search over a stream. However a body is cut into fragments, the cursor behind the last of
them is the one that the whole body leads to, and on the way no place of the pattern or of its table
is looked up that is not there. -/

namespace LoadEngine.Search

/-- Falling back one border after the other, for a pattern of length `size`. A partial match is
compared at its own place of the pattern, and its border is looked up at the place before. -/
inductive FallsBack (size : Nat) (table : Array Nat) (fits : Nat → Bool) : Nat → Nat → Prop
  | stop {k : Nat} : k < size → k = 0 ∨ fits k = true → FallsBack size table fits k k
  | back {k r : Nat} (hplace : k - 1 < table.size) : 0 < k → k < size → fits k = false →
    FallsBack size table fits table[k - 1] r → FallsBack size table fits k r

variable {P : List UInt8} {table : Array Nat} {size : Nat}

lemma fallback_fallsBack (fits : Nat → Bool) {k : Nat} (hk : k < size) (hsize : k ≤ table.size)
    (h : RightBelow P table k) : FallsBack size table fits k (fallback table fits k) := by
  induction k using fallback.induct table fits with
  | case1 k hdone =>
    rw [fallback, if_pos hdone]
    exact .stop hk hdone
  | case2 k hstuck hlt ih =>
    obtain ⟨hpos, hfit⟩ := not_or.mp hstuck
    have hplace : k - 1 < table.size := by omega
    have hborder : table.getD (k - 1) 0 = table[k - 1] := by
      simp [Array.getD_eq_getD_getElem?, hplace]
    rw [fallback, if_neg hstuck, dif_pos hlt]
    have hrest := ih (by omega) (by omega) fun q hq => h q (by omega)
    rw [hborder] at hrest ⊢
    exact .back hplace (by omega) hk (Bool.eq_false_iff.mpr hfit) hrest
  | case3 k hstuck hge =>
    obtain ⟨hpos, -⟩ := not_or.mp hstuck
    have hborder := (h (k - 1) (by omega)).le
    omega

variable {pattern : Array UInt8}

lemma size_extendBorders (rest : Nat) (table : Array Nat) :
    (extendBorders pattern rest table).size = table.size + rest := by
  induction rest generalizing table with
  | zero => rfl
  | succ rest ih =>
    rw [extendBorders, ih, Array.size_push]
    omega

lemma size_borderTable (pattern : Array UInt8) : (borderTable pattern).size = pattern.size := by
  unfold borderTable
  split
  · rename_i hempty
    rw [hempty]
    rfl
  · rw [size_extendBorders, List.size_toArray, List.length_singleton]
    omega

lemma extendBorders_getElem? (rest : Nat) {table : Array Nat} {q : Nat} (hq : q < table.size) :
    (extendBorders pattern rest table)[q]? = table[q]? := by
  induction rest generalizing table with
  | zero => rfl
  | succ rest ih =>
    rw [extendBorders, ih (by rw [Array.size_push]; omega), Array.getElem?_push_lt hq,
      Array.getElem?_eq_getElem hq]

lemma extendBorders_take (rest : Nat) (table : Array Nat) {i : Nat} (hi : i ≤ table.size) :
    (extendBorders pattern rest table).take i = table.take i := by
  apply Array.ext_getElem?
  intro q
  simp only [Array.take_eq_extract, Array.getElem?_extract, size_extendBorders]
  by_cases hq : q < i
  · rw [if_pos (by omega), if_pos (by omega), Nat.zero_add, extendBorders_getElem? rest (by omega)]
  · rw [if_neg (by omega), if_neg (by omega)]

def lengthens (pattern : Array UInt8) (i k : Nat) : Bool := pattern.getD i 0 == pattern.getD k 0

lemma extendBorders_written (rest : Nat) {table : Array Nat} {i : Nat} (hi : table.size ≤ i)
    (hlast : i < table.size + rest) :
    (extendBorders pattern rest table)[i]? =
      some (extend ((extendBorders pattern rest table).take i) (lengthens pattern i)
        (((extendBorders pattern rest table).take i).back?.getD 0)) := by
  induction rest generalizing table with
  | zero => omega
  | succ rest ih =>
    rw [extendBorders]
    by_cases hnow : i = table.size
    · subst hnow
      rw [extendBorders_getElem? rest (by simp), extendBorders_take rest _ (by simp)]
      have hold : ∀ k, (table.push k).take table.size = table := by simp
      rw [hold, Array.getElem?_push_size]
      rfl
    · exact ih (by rw [Array.size_push]; omega) (by rw [Array.size_push]; omega)

lemma borderTable_written {i : Nat} (hpos : 0 < i) (hi : i < pattern.size) :
    (borderTable pattern)[i]? =
      some (extend ((borderTable pattern).take i) (lengthens pattern i)
        ((borderTable pattern).getD (i - 1) 0)) := by
  have hback : (borderTable pattern).getD (i - 1) 0 =
      ((borderTable pattern).take i).back?.getD 0 := by
    have hplace : i - 1 < (borderTable pattern).size := by
      rw [size_borderTable]
      omega
    have hlast : i - 1 < i := by omega
    simp [Array.back?_eq_getElem?, size_borderTable, Nat.min_eq_left hi.le, hlast,
      Array.getElem?_eq_getElem hplace]
  rw [hback]
  unfold borderTable
  rw [if_neg (by omega)]
  apply extendBorders_written
  · exact hpos
  · simp only [List.size_toArray, List.length_singleton]
    omega

lemma borderTable_fallsBack (fits : Nat → Bool) {i : Nat} (hpos : 0 < i) (hi : i < pattern.size) :
    FallsBack pattern.size ((borderTable pattern).take i) fits
      ((borderTable pattern).getD (i - 1) 0)
      (fallback ((borderTable pattern).take i) fits ((borderTable pattern).getD (i - 1) 0)) := by
  have hright := borderTable_spec pattern
  have hlast := (hright (i - 1) (by omega)).le
  apply fallback_fallsBack (P := pattern.toList) fits (by omega)
  · simp only [Array.take_eq_extract, Array.size_extract, size_borderTable]
    omega
  · intro q hq
    have hsame : ((borderTable pattern).take i).getD q 0 = (borderTable pattern).getD q 0 := by
      have hplace : q < (borderTable pattern).size := by
        rw [size_borderTable]
        omega
      have hlow : q < i := by omega
      simp [size_borderTable, Nat.min_eq_left hi.le, hlow, Array.getElem?_eq_getElem hplace]
    rw [hsame]
    exact hright q (by omega)

lemma Longest.of_absent {seen : List UInt8} {k : Nat} (h : Longest P (P.length - 1) seen k)
    (hnone : ¬ P <:+: seen) : Longest P P.length seen k := by
  refine ⟨by have := h.le; omega, h.suffix, ?_⟩
  intro m hm hms
  by_cases hwhole : m = P.length
  · rw [hwhole, List.take_length] at hms
    exact absurd hms.isInfix hnone
  · exact h.max m (by omega) hms

namespace Validator

variable {v : Validator}

lemma foldl_feed (v : Validator) (fragments : List (List UInt8)) :
    fragments.foldl v.feed .start = v.feed .start fragments.flatten := by
  induction fragments using List.reverseRecOn with
  | nil => exact (feed_start_nil v).symm
  | append_singleton fragments fragment ih =>
    rw [List.foldl_append, List.foldl_cons, List.foldl_nil, ih, List.flatten_append,
      List.flatten_singleton, feed_append]

lemma feed_consumed (v : Validator) (c : Cursor) (body : List UInt8) :
    (v.feed c body).consumed = c.consumed + body.length := by
  unfold feed
  split <;> rfl

lemma feed_start_partial (hpos : 0 < v.pattern.size) (body : List UInt8) :
    ¬ v.pattern.toList <:+: unmatched v.pattern.toList body ∧
      Longest v.pattern.toList (v.pattern.size - 1) (unmatched v.pattern.toList body)
        (v.feed .start body).partial := by
  have hne : v.pattern.isEmpty = false := by
    simpa [Array.isEmpty_eq_false_iff, ← Array.size_pos_iff] using hpos
  unfold feed
  simpa [hne, Cursor.start] using (foldl_scan_start hpos body).2

/-- However a body is cut, its occurrences are counted as they are met from the front, the partial
match is the longest one behind the last of them, and the verdict is on that count. Each byte, and
each border as the table is written, finds what it looks up and comes to an end. -/
theorem feed_fragments {v : Validator} (hpattern : v.pattern ≠ #[])
    (fragments : List (List UInt8)) :
    fragments.foldl v.feed .start = v.feed .start fragments.flatten ∧
      (fragments.foldl v.feed .start).found = occurrences v.pattern.toList fragments.flatten ∧
      Longest v.pattern.toList v.pattern.size (unmatched v.pattern.toList fragments.flatten)
        (fragments.foldl v.feed .start).partial ∧
      (fragments.foldl v.feed .start).consumed = fragments.flatten.length ∧
      v.accepts (fragments.foldl v.feed .start) =
        v.predicate.test (occurrences v.pattern.toList fragments.flatten) ∧
      (∀ before byte, before ++ [byte] <+: fragments.flatten →
        FallsBack v.pattern.size v.borders (fun i => v.pattern[i]? == some byte)
          (v.feed .start before).partial
          (fallback v.borders (fun i => v.pattern[i]? == some byte)
            (v.feed .start before).partial)) ∧
      ∀ i, 0 < i → i < v.pattern.size →
        v.borders[i]? = some (extend (v.borders.take i) (lengthens v.pattern i)
          (v.borders.getD (i - 1) 0)) ∧
        FallsBack v.pattern.size (v.borders.take i) (lengthens v.pattern i)
          (v.borders.getD (i - 1) 0)
          (fallback (v.borders.take i) (lengthens v.pattern i) (v.borders.getD (i - 1) 0)) := by
  have hpos : 0 < v.pattern.size := Array.size_pos_iff.mpr hpattern
  have hwhole : fragments.foldl v.feed .start = v.feed .start fragments.flatten :=
    foldl_feed v fragments
  have hfound : (fragments.foldl v.feed .start).found =
      occurrences v.pattern.toList fragments.flatten := by
    rw [hwhole]
    exact feed_start_found v fragments.flatten
  obtain ⟨habsent, hlongest⟩ := feed_start_partial hpos fragments.flatten
  refine ⟨hwhole, hfound, ?_, ?_, ?_, ?_, ?_⟩
  · rw [hwhole, ← Array.length_toList]
    exact Longest.of_absent (by rwa [Array.length_toList]) habsent
  · rw [hwhole, feed_consumed]
    exact Nat.zero_add _
  · exact congrArg v.predicate.test hfound
  · intro before byte _
    have hle := (feed_start_partial hpos before).2.le
    apply fallback_fallsBack (P := v.pattern.toList)
    · omega
    · rw [v.borders_eq, size_borderTable]
      omega
    · intro q hq
      rw [v.borders_eq]
      exact borderTable_spec v.pattern q (by omega)
  · intro i hi hsize
    rw [v.borders_eq]
    exact ⟨borderTable_written hi hsize, borderTable_fallsBack _ hi hsize⟩

theorem feed_fragments_abab :
    let v := Validator.new #[97, 98, 97, 98] (.exactly 2)
    let fragments := [[120, 120, 97], [], [98, 97, 98], [121, 97, 98, 97], [98, 97, 98]]
    let c := fragments.foldl v.feed .start
    v.pattern ≠ #[] ∧ c.found = 2 ∧ Longest [97, 98, 97, 98] 4 [97, 98] c.partial ∧
      c.consumed = 13 ∧ v.accepts c = true := by
  intro v fragments c
  have hpattern : v.pattern ≠ #[] := by decide
  have hcount : occurrences v.pattern.toList fragments.flatten = 2 := by decide +kernel
  have hrest : unmatched v.pattern.toList fragments.flatten = [97, 98] := by decide +kernel
  obtain ⟨-, hfound, hpartial, hconsumed, haccepts, -⟩ := feed_fragments hpattern fragments
  rw [hcount] at hfound haccepts
  rw [hrest] at hpartial
  exact ⟨hpattern, hfound, hpartial, hconsumed, haccepts⟩

end Validator

end LoadEngine.Search
