import LoadEngine.Histogram.Basic
import Mathlib.Tactic.Lemma
import Mathlib.Tactic.Ring

/-! Which values the slots of a histogram hold. They lie side by side, so that a value lies in one
of them and the last one bounds whatever was recorded, except for the largest value of a counter,
which no slot can bound. -/

namespace LoadEngine.Histogram

lemma lt_two_pow_bitLength (n : Nat) : n < 2 ^ bitLength n := by
  unfold bitLength
  split
  · rename_i hn
    rw [hn]
    exact Nat.one_pos
  · exact Nat.lt_log2_self

lemma two_pow_le_of_bitLength {n k : Nat} (h : bitLength n = k + 1) : 2 ^ k ≤ n := by
  unfold bitLength at h
  split at h
  · cases h
  · rename_i hn
    rw [← Nat.succ.inj h]
    exact Nat.log2_self_le hn

lemma bitLength_le {m n : Nat} (h : m ≤ n) : bitLength m ≤ bitLength n := by
  unfold bitLength
  split
  · exact Nat.zero_le _
  · rename_i hm
    rw [if_neg (by omega)]
    refine Nat.add_le_add_right ((Nat.le_log2 (by omega)).mpr ?_) 1
    exact (Nat.log2_self_le hm).trans h

namespace Shape

variable {s : Shape} {v slot : Nat}

lemma resolution_pos (s : Shape) : 0 < s.resolution := by
  have hdigits : 0 < 10 ^ s.sigfig := Nat.pow_pos (by omega)
  unfold resolution bitLength
  rw [if_neg (by omega)]
  exact Nat.succ_pos _

lemma two_mul_half (s : Shape) : 2 * s.half = 2 ^ s.resolution := by
  rw [half, ← Nat.pow_succ', Nat.succ_eq_add_one, Nat.sub_add_cancel s.resolution_pos]

lemma div_octave_lt (s : Shape) (v : Nat) : v / 2 ^ s.octave v < 2 * s.half := by
  rw [two_mul_half, Nat.div_lt_iff_lt_mul (Nat.two_pow_pos _), ← Nat.pow_add]
  refine (lt_two_pow_bitLength v).trans_le (Nat.pow_le_pow_right (by omega) ?_)
  unfold octave
  omega

lemma slotOf_lt_slots (h : v ≤ s.highest) : s.slotOf v < s.slots := by
  have hoctave : s.octave v + 1 ≤ s.widths := Nat.add_le_add_right
    (Nat.sub_le_sub_right (bitLength_le h) _) 1
  calc s.slotOf v < s.octave v * s.half + 2 * s.half :=
        Nat.add_lt_add_left (s.div_octave_lt v) _
    _ = (s.octave v + 1 + 1) * s.half := by ring
    _ ≤ s.slots := Nat.mul_le_mul_right _ (Nat.add_le_add_right hoctave 1)

lemma clamp_slot (s : Shape) (v : Nat) : s.slotOf (s.clamp v) < s.slots := by
  unfold clamp
  split
  · assumption
  · exact slotOf_lt_slots (Nat.le_refl _)

lemma clamp_lt {bound : Nat} (h : v < bound) : s.clamp v < bound := by
  unfold clamp
  split
  · exact h
  · rename_i hslot
    have hlt : s.highest < v := by
      by_contra hle
      exact hslot (slotOf_lt_slots (Nat.le_of_not_lt hle))
    exact hlt.trans h

lemma slotOctave_succ (h : s.slotOctave (slot + 1) ≠ s.slotOctave slot) :
    s.slotOctave (slot + 1) = s.slotOctave slot + 1 ∧
      slot + 1 = (s.slotOctave slot + 2) * s.half := by
  have hstep := Nat.succ_div (a := slot) (b := s.half)
  unfold slotOctave at h ⊢
  split at hstep
  · rename_i hdvd
    have hmul := Nat.div_mul_cancel hdvd
    refine ⟨by omega, ?_⟩
    rw [show slot / s.half - 1 + 2 = slot / s.half + 1 by omega, ← hstep, hmul]
  · omega

lemma lowest_succ (s : Shape) (slot : Nat) :
    s.lowest (slot + 1) = s.lowest slot + 2 ^ s.slotOctave slot := by
  have hbelow : s.slotOctave slot * s.half ≤ slot :=
    (Nat.mul_le_mul_right _ (Nat.sub_le _ 1)).trans (Nat.div_mul_le_self _ _)
  have hend : s.lowest slot + 2 ^ s.slotOctave slot =
      (slot + 1 - s.slotOctave slot * s.half) * 2 ^ s.slotOctave slot := by
    rw [lowest, Nat.sub_add_comm hbelow]
    ring
  rw [hend, lowest]
  by_cases hsame : s.slotOctave (slot + 1) = s.slotOctave slot
  · rw [hsame]
  · obtain ⟨hwidth, hnext⟩ := slotOctave_succ hsame
    have hbefore : slot + 1 - s.slotOctave slot * s.half = 2 * s.half := by
      rw [hnext, ← Nat.sub_mul, Nat.add_sub_cancel_left]
    have hafter : slot + 1 - (s.slotOctave slot + 1) * s.half = s.half := by
      rw [hnext, ← Nat.sub_mul, Nat.add_sub_add_left, Nat.one_mul]
    rw [hwidth, hbefore, hafter, Nat.pow_succ]
    ring

lemma lowest_le (s : Shape) {a b : Nat} (h : a ≤ b) : s.lowest a ≤ s.lowest b := by
  induction h with
  | refl => exact Nat.le_refl _
  | @step b _ ih =>
    rw [s.lowest_succ b]
    exact ih.trans (Nat.le_add_right _ _)

def Holds (s : Shape) (slot v : Nat) : Prop :=
  s.lowest slot ≤ v ∧ v < s.lowest slot + 2 ^ s.slotOctave slot

lemma holds_slotOf (s : Shape) (v : Nat) : s.Holds (s.slotOf v) v := by
  have hhalf : 0 < s.half := Nat.two_pow_pos _
  have hoffset := s.div_octave_lt v
  have hoctave : s.slotOctave (s.slotOf v) = s.octave v := by
    rw [slotOctave, slotOf, Nat.add_comm, Nat.add_mul_div_right _ _ hhalf]
    cases ho : s.octave v with
    | zero =>
      rw [ho] at hoffset
      have hquot : v / 2 ^ 0 / s.half < 2 := (Nat.div_lt_iff_lt_mul hhalf).mpr hoffset
      omega
    | succ o =>
      -- The first binary digit of a wide value stands in the upper half.
      have hlength : bitLength v = s.resolution - 1 + (o + 1) + 1 := by
        unfold octave at ho
        have hpos := s.resolution_pos
        omega
      have hlow : s.half * 2 ^ (o + 1) ≤ v := by
        rw [half, ← Nat.pow_add]
        exact two_pow_le_of_bitLength hlength
      rw [ho] at hoffset
      have hquot : v / 2 ^ (o + 1) / s.half = 1 := by
        rw [Nat.div_eq_iff hhalf]
        have hle := (Nat.le_div_iff_mul_le (Nat.two_pow_pos _)).mpr hlow
        omega
      omega
  have hlowest : s.lowest (s.slotOf v) = v / 2 ^ s.octave v * 2 ^ s.octave v := by
    rw [lowest, hoctave, slotOf, Nat.add_sub_cancel_left]
  rw [Holds, hlowest, hoctave]
  exact ⟨Nat.div_mul_le_self _ _, Nat.lt_div_mul_add (Nat.two_pow_pos _)⟩

lemma Holds.le_of_holds {a b : Nat} (ha : s.Holds a v) (hb : s.Holds b v) : a ≤ b := by
  by_contra hlt
  have hle := s.lowest_le (Nat.lt_of_not_le hlt)
  rw [Nat.succ_eq_add_one, s.lowest_succ b] at hle
  exact absurd (hb.2.trans_le hle) (Nat.not_lt_of_le ha.1)

lemma holds_iff : s.Holds slot v ↔ s.slotOf v = slot := by
  constructor
  · intro h
    exact Nat.le_antisymm ((s.holds_slotOf v).le_of_holds h) (h.le_of_holds (s.holds_slotOf v))
  · rintro rfl
    exact s.holds_slotOf v

lemma highestOf_le (s : Shape) {a b : Nat} (h : a ≤ b) : s.highestOf a ≤ s.highestOf b := by
  induction h with
  | refl => exact Nat.le_refl _
  | @step b _ ih =>
    have hend : s.lowest b + 2 ^ s.slotOctave b ≤
        s.lowest (b + 1) + 2 ^ s.slotOctave (b + 1) := by
      rw [← s.lowest_succ b]
      exact Nat.le_add_right _ _
    exact ih.trans (Nat.sub_le_sub_right (min_le_min_left _ hend) 1)

lemma highestWith_le_top (h : s.slotOf v < s.slots) (hv : v < Nanos.maxCount) :
    s.highestWith v ≤ s.top := by
  rw [highestWith, if_neg (Nat.ne_of_lt hv)]
  exact s.highestOf_le (Nat.le_sub_one_of_lt h)

end Shape

end LoadEngine.Histogram
