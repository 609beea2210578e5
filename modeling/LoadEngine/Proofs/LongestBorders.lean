import LoadEngine.Proofs.StreamedSearch
import Mathlib.Order.Bounds.Basic

/-! The table of a pattern holds the longest border of each of its parts. A loop that goes over an
array of zeros and writes one place after the other ends with just this table, and it looks up and
writes no place that is not there. -/

namespace LoadEngine.Search

/-- So many bytes from the front of a word, short of the whole, also stand at its end. -/
def IsBorder (word : List UInt8) (m : Nat) : Prop := m < word.length ∧ word.take m <:+ word

/-- The loop from place `i` of a pattern on, over an array that is to become its table, with the
border of the part that ends before `i`. -/
inductive Fills (pattern : Array UInt8) : Array Nat → Nat → Nat → Array Nat → Prop
  | done {table : Array Nat} {i k : Nat} : pattern.size ≤ i → Fills pattern table i k table
  | write {table result : Array Nat} {i k r : Nat} (hplace : i < table.size) : i < pattern.size →
    FallsBack pattern.size table (lengthens pattern i) k r →
    Fills pattern (table.set i (if lengthens pattern i r then r + 1 else r)) (i + 1)
      (if lengthens pattern i r then r + 1 else r) result →
    Fills pattern table i k result

variable {P seen : List UInt8} {pattern : Array UInt8} {table table' : Array Nat} {i k r r' : Nat}

lemma FallsBack.unique {size : Nat} {fits : Nat → Bool} (h : FallsBack size table fits k r)
    (h' : FallsBack size table fits k r') : r = r' := by
  induction h with
  | stop hk hdone =>
    cases h' with
    | stop => rfl
    | back hplace hpos hk hfit hrest =>
      rw [hfit] at hdone
      exact absurd (hdone.resolve_right nofun) hpos.ne'
  | back hplace hpos hk hfit hrest ih =>
    cases h' with
    | stop hk hdone =>
      rw [hfit] at hdone
      exact absurd (hdone.resolve_right nofun) hpos.ne'
    | back hplace' hpos' hk' hfit' hrest' => exact ih hrest'

lemma Fills.unique (h : Fills pattern table i k table') {other : Array Nat}
    (h' : Fills pattern table i k other) : table' = other := by
  induction h with
  | done hi =>
    cases h' with
    | done => rfl
    | write hplace hi' => exact absurd hi' (Nat.not_lt.mpr hi)
  | write hplace hi hback hrest ih =>
    cases h' with
    | done hi' => exact absurd hi (Nat.not_lt.mpr hi')
    | write hplace' hi' hback' hrest' =>
      obtain rfl := hback.unique hback'
      exact ih hrest'

lemma Longest.unique {bound : Nat} (h : Longest P bound seen k) (h' : Longest P bound seen r) :
    k = r :=
  Nat.le_antisymm (h'.max k h.le h.suffix) (h.max r h'.le h'.suffix)

lemma longest_iff_isGreatest (hi : i < P.length) :
    Longest P i (P.take (i + 1)) k ↔ IsGreatest {m | IsBorder (P.take (i + 1)) m} k := by
  have hborder (m : Nat) : IsBorder (P.take (i + 1)) m ↔ m ≤ i ∧ P.take m <:+ P.take (i + 1) := by
    have hlength : (P.take (i + 1)).length = i + 1 := List.length_take_of_le hi
    rw [IsBorder, hlength, Nat.lt_succ_iff]
    refine and_congr_right fun hm => ?_
    rw [List.take_take, Nat.min_eq_left (hm.trans (Nat.le_succ i))]
  constructor
  · intro h
    refine ⟨(hborder k).mpr ⟨h.le, h.suffix⟩, fun m hm => ?_⟩
    obtain ⟨hle, hsuffix⟩ := (hborder m).mp hm
    exact h.max m hle hsuffix
  · rintro ⟨hk, hmax⟩
    obtain ⟨hle, hsuffix⟩ := (hborder k).mp hk
    exact ⟨hle, hsuffix, fun m hm hms => hmax ((hborder m).mpr ⟨hm, hms⟩)⟩

lemma RightBelow.eq_borderTable (h : RightBelow pattern.toList table pattern.size)
    (hsize : table.size = pattern.size) : table = borderTable pattern := by
  have hsizes : table.size = (borderTable pattern).size :=
    hsize.trans (size_borderTable pattern).symm
  apply Array.ext hsizes
  intro q hq hq'
  have hlt : q < pattern.size := hsize ▸ hq
  have hsame := (h q hlt).unique (borderTable_spec pattern q hlt)
  simpa [hq, hq'] using hsame

lemma RightBelow.set (h : RightBelow P table i) (hi : i < table.size)
    (hk : Longest P i (P.take (i + 1)) k) : RightBelow P (table.set i k) (i + 1) := by
  intro q hq
  rcases Nat.lt_succ_iff_lt_or_eq.mp hq with hlt | rfl
  · have hsame : (table.set i k).getD q 0 = table.getD q 0 := by
      simp [Array.getD_eq_getD_getElem?, hlt.ne']
    rw [hsame]
    exact h q hlt
  · simpa [hi] using hk

lemma Longest.write (h : Longest pattern.toList (i - 1) (pattern.toList.take i) k) (hpos : 0 < i)
    (hi : i < pattern.size) (hright : RightBelow pattern.toList table i) :
    Longest pattern.toList i (pattern.toList.take (i + 1))
      (extend table (lengthens pattern i) k) := by
  have hlength : i < pattern.toList.length := hi
  have hle := h.le
  have hfits (m : Nat) (hm : m ≤ i - 1) :
      lengthens pattern i m = true ↔ pattern.toList[m]? = some pattern[i] :=
    getD_beq_iff hi (by omega)
  have hlonger := extend_spec (by omega) (fun q hq => hright q (by omega)) hfits h
  rw [List.take_add_one, List.getElem?_eq_getElem hlength, Option.toList_some]
  rwa [Nat.sub_add_cancel hpos] at hlonger

lemma fills_borderTable (hsize : table.size = pattern.size) (hpos : 0 < i) (hi : i ≤ pattern.size)
    (hright : RightBelow pattern.toList table i)
    (hk : Longest pattern.toList (i - 1) (pattern.toList.take i) k) :
    Fills pattern table i k (borderTable pattern) := by
  induction hrest : pattern.size - i generalizing table i k with
  | zero =>
    obtain rfl : i = pattern.size := by omega
    rw [← hright.eq_borderTable hsize]
    exact .done (Nat.le_refl _)
  | succ rest ih =>
    have hlt : i < pattern.size := by omega
    have hle := hk.le
    have hback : FallsBack pattern.size table (lengthens pattern i) k
        (fallback table (lengthens pattern i) k) :=
      fallback_fallsBack (P := pattern.toList) _ (by omega) (by omega)
        fun q hq => hright q (by omega)
    have hnext := hk.write hpos hlt hright
    refine .write (hsize ▸ hlt) hlt hback (ih ?_ (Nat.succ_pos i) hlt ?_ hnext (by omega))
    · rw [Array.size_set]
      exact hsize
    · exact hright.set (hsize ▸ hlt) hnext

/-- Each place of the table has the length of the longest border of the part of the pattern that
ends there. The loop comes to an end, finds each place that it looks up or writes, and what it
leaves in the array is the table and nothing else. -/
theorem borderTable_longest_borders (pattern : Array UInt8) :
    (borderTable pattern).size = pattern.size ∧
    (∀ i k, (borderTable pattern)[i]? = some k ↔
      i < pattern.size ∧ IsGreatest {m | IsBorder (pattern.toList.take (i + 1)) m} k) ∧
    ∀ table, Fills pattern (Array.replicate pattern.size 0) 1 0 table ↔
      table = borderTable pattern := by
  have hsize := size_borderTable pattern
  refine ⟨hsize, fun i k => ?_, fun table => ?_⟩
  · by_cases hi : i < pattern.size
    · have hright := borderTable_spec pattern i hi
      have hplace : (borderTable pattern)[i]? = some ((borderTable pattern).getD i 0) := by
        simp [hsize, hi]
      rw [hplace, Option.some.injEq, and_iff_right hi, ← longest_iff_isGreatest hi]
      exact ⟨fun h => h ▸ hright, fun h => hright.unique h⟩
    · have hnone : (borderTable pattern)[i]? = none :=
        Array.getElem?_eq_none (hsize ▸ Nat.not_lt.mp hi)
      rw [hnone]
      exact iff_of_false nofun fun h => hi h.1
  -- The zero at the first place is right, and the loop goes from there one place at a time.
  · have hfills : Fills pattern (Array.replicate pattern.size 0) 1 0 (borderTable pattern) := by
      have hzeros : (Array.replicate pattern.size 0).size = pattern.size := Array.size_replicate
      have hfirst : Longest pattern.toList 0 (pattern.toList.take 1) 0 :=
        ⟨Nat.le_refl 0, List.nil_suffix, fun m hm _ => hm⟩
      have hright (h : 0 < pattern.size) :
          RightBelow pattern.toList (Array.replicate pattern.size 0) 1 := by
        intro q hq
        obtain rfl := Nat.lt_one_iff.mp hq
        simpa [h] using hfirst
      rcases Nat.eq_zero_or_pos pattern.size with hempty | hpos
      · have hsame : Array.replicate pattern.size 0 = borderTable pattern :=
          RightBelow.eq_borderTable (fun q hq => by omega) hzeros
        rw [← hsame]
        exact .done (by omega)
      · exact fills_borderTable hzeros Nat.one_pos hpos (hright hpos) hfirst
    exact ⟨fun h => h.unique hfills, fun h => h ▸ hfills⟩

example : borderTable #[97, 98, 97, 97, 98, 97, 98] = #[0, 0, 1, 1, 2, 3, 2] := by decide +kernel

end LoadEngine.Search
