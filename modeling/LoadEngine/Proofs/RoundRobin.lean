import LoadEngine.Proofs.ClosedPopulation
import LoadEngine.Proofs.StartLimit
import Mathlib.Data.Int.CardIntervalMod
import Mathlib.Data.List.GetD

/-! Starts are dealt out in turn across batches. Each batch begins with the shard behind the one
that the last batch ended with, so the batches together give every shard what one batch of all
their starts would give it. -/

namespace LoadEngine

lemma share_eq_count {parts i : Nat} (hi : i < parts) (n : Nat) :
    share n parts i = n.count (· ≡ i [MOD parts]) := by
  rw [Nat.count_modEq_card _ (Nat.zero_lt_of_lt hi), Nat.mod_eq_of_lt hi]
  rfl

lemma share_add {parts i j : Nat} (m n : Nat) (hi : i < parts) (hj : j < parts)
    (hturn : (m + i) % parts = j) : share m parts j + share n parts i = share (m + n) parts j := by
  have hshift (t : Nat) : m + t ≡ j [MOD parts] ↔ t ≡ i [MOD parts] := by
    have hplace : m + i ≡ j [MOD parts] := by rw [Nat.ModEq, hturn, Nat.mod_eq_of_lt hj]
    constructor
    · intro h
      exact Nat.ModEq.add_left_cancel' m (h.trans hplace.symm)
    · intro h
      exact (h.add_left m).trans hplace
  rw [share_eq_count hj, share_eq_count hi, share_eq_count hj, Nat.count_add]
  simp only [hshift]

lemma turn_inj {first parts i j : Nat} (hi : i < parts) (hj : j < parts)
    (h : (first + i) % parts = (first + j) % parts) : i = j :=
  Nat.ModEq.eq_of_lt_of_lt (Nat.ModEq.add_left_cancel' first h) hi hj

lemma exists_turn {parts j : Nat} (first : Nat) (hj : j < parts) :
    ∃ i < parts, (first + i) % parts = j := by
  have hpos : 0 < parts := Nat.zero_lt_of_lt hj
  refine ⟨(j + (parts - first % parts)) % parts, Nat.mod_lt _ hpos, ?_⟩
  have hfirst : first % parts + (j + (parts - first % parts)) = j + parts := by
    have hlt := Nat.mod_lt first hpos
    omega
  rw [Nat.add_mod_mod, ← Nat.mod_add_mod, hfirst, Nat.add_mod_right, Nat.mod_eq_of_lt hj]

lemma dealOut_eq_map (takers : List Nat) (first count : Nat) :
    dealOut takers first count = (dealOut (List.range takers.length) 0 count).map fun s =>
      (takers.getD ((first + s.1) % takers.length) 0, s.2) := by
  rw [dealOut_eq, dealOut_eq, List.map_filterMap, List.length_range]
  refine List.filterMap_congr fun i hi => ?_
  have hlt := List.mem_range.mp hi
  rw [Nat.zero_add, Nat.mod_eq_of_lt hlt]
  split
  · simp [hlt]
  · rfl

lemma dealtTo_map {f : Nat → Nat} {i : Nat} {starts : Starts}
    (h : ∀ s ∈ starts, f s.1 = f i → s.1 = i) :
    dealtTo (f i) (starts.map fun s => (f s.1, s.2)) = dealtTo i starts := by
  induction starts with
  | nil => rfl
  | cons s rest ih =>
    obtain ⟨hs, hrest⟩ := List.forall_mem_cons.mp h
    have hsame : f s.1 = f i ↔ s.1 = i := ⟨hs, congrArg f⟩
    rw [List.map_cons, dealtTo_cons, dealtTo_cons, ih hrest]
    simp only [hsame]

variable {takers : List Nat}

lemma getD_turn_inj (htakers : takers.Nodup) {first i j : Nat} (hi : i < takers.length)
    (hj : j < takers.length)
    (h : takers.getD ((first + i) % takers.length) 0 =
      takers.getD ((first + j) % takers.length) 0) : i = j := by
  have hpos : 0 < takers.length := Nat.zero_lt_of_lt hi
  rw [List.getD_eq_getElem _ _ (Nat.mod_lt _ hpos), List.getD_eq_getElem _ _ (Nat.mod_lt _ hpos),
    htakers.getElem_inj_iff] at h
  exact turn_inj hi hj h

lemma map_fst_dealOut_range (n count : Nat) :
    (dealOut (List.range n) 0 count).map Prod.fst =
      (List.range n).filter fun i => 0 < share count n i := by
  rw [dealOut_eq, List.map_filterMap, List.length_range, ← List.filterMap_eq_filter]
  refine List.filterMap_congr fun i hi => ?_
  have hlt := List.mem_range.mp hi
  rw [Nat.zero_add, Nat.mod_eq_of_lt hlt]
  by_cases hshare : 0 < share count n i
  · simp [Option.guard, hshare, hlt]
  · simp [Option.guard, hshare]

lemma dealOut_nodup (htakers : takers.Nodup) (first count : Nat) :
    ((dealOut takers first count).map Prod.fst).Nodup := by
  have hrow : ((dealOut takers first count).map Prod.fst) =
      ((dealOut (List.range takers.length) 0 count).map Prod.fst).map fun i =>
        takers.getD ((first + i) % takers.length) 0 := by
    rw [dealOut_eq_map, List.map_map, List.map_map]
    rfl
  rw [hrow, map_fst_dealOut_range]
  refine List.Nodup.map_on (fun i hi j hj h => ?_) (List.nodup_range.filter _)
  have hi := List.mem_range.mp (List.mem_filter.mp hi).1
  have hj := List.mem_range.mp (List.mem_filter.mp hj).1
  exact getD_turn_inj htakers hi hj h

lemma dealtTo_taker (htakers : takers.Nodup) {first i j : Nat} (count : Nat)
    (hi : i < takers.length) (hj : j < takers.length) (hturn : (first + i) % takers.length = j) :
    dealtTo takers[j] (dealOut takers first count) = share count takers.length i := by
  have hname : takers[j] = takers.getD ((first + i) % takers.length) 0 := by
    rw [hturn, List.getD_eq_getElem _ _ hj]
  have hothers : ∀ s ∈ dealOut (List.range takers.length) 0 count,
      takers.getD ((first + s.1) % takers.length) 0 =
        takers.getD ((first + i) % takers.length) 0 → s.1 = i := by
    intro s hs
    exact getD_turn_inj htakers (List.mem_range.mp (mem_dealOut hs).1) hi
  rw [dealOut_eq_map, hname, dealtTo_map (f := fun i => takers.getD ((first + i) % takers.length) 0)
    hothers, dealtTo_dealOut, if_pos hi]

lemma dealOut_zero (takers : List Nat) (first : Nat) : dealOut takers first 0 = [] := by
  rw [dealOut_eq]
  refine List.filterMap_eq_nil_iff.mpr fun i _ => ?_
  simp [share]

namespace PhaseRun

variable {p p' q : PhaseRun} {starts dealt : Starts} {now : Nanos}

lemma takers_nodup (p : PhaseRun) : p.takers.Nodup := List.nodup_range.filter _

structure Turns (p p' : PhaseRun) (starts : Starts) : Prop where
  shares : p'.shares = p.shares
  starts_eq : starts =
    dealOut p.takers (p.cursor % p.takers.length) (starts.map Prod.snd).sum
  cursor : p'.cursor % p.takers.length =
    (p.cursor + (starts.map Prod.snd).sum) % p.takers.length

lemma Turns.none (hshares : p'.shares = p.shares) (hcursor : p'.cursor = p.cursor) :
    Turns p p' [] := by
  refine ⟨hshares, ?_, ?_⟩
  · exact (dealOut_zero _ _).symm
  · rw [hcursor]
    rfl

lemma Turns.congr {q' : PhaseRun} (h : Turns p p' starts) (hshares : p.shares = q.shares)
    (hcursor : p.cursor = q.cursor) (hshares' : q'.shares = p'.shares)
    (hcursor' : q'.cursor = p'.cursor) : Turns q q' starts := by
  have htakers : p.takers = q.takers := takers_eq hshares.symm
  refine ⟨hshares'.trans (h.shares.trans hshares), ?_, ?_⟩
  · rw [← htakers, ← hcursor]
    exact h.starts_eq
  · rw [hcursor', ← htakers, ← hcursor]
    exact h.cursor

lemma issue_turns (p : PhaseRun) (count : Nat) : Turns p (p.issue count).1 (p.issue count).2 := by
  simp only [issue]
  split
  · exact .none rfl rfl
  · rename_i h
    obtain ⟨-, htakers⟩ := not_or.mp h
    refine ⟨rfl, ?_, ?_⟩
    · rw [sum_dealOut _ _ _ htakers]
    · rw [sum_dealOut _ _ _ htakers, Nat.mod_mod, Nat.add_mod_mod, Nat.mod_add_mod]

lemma finishIfDone_cursor (p : PhaseRun) (now : Nanos) :
    (p.finishIfDone now).cursor = p.cursor := by
  rcases p.finishIfDone_eq now with h | ⟨-, -, h⟩ <;> rw [h]

lemma start_turns (h : p.start now = .ok (p', starts)) : Turns p p' starts := by
  obtain ⟨-, rfl, rfl⟩ := start_eq_ok h
  refine (issue_turns _ p.initialStarts).congr rfl rfl ?_ ?_
  · exact finishIfDone_shares _ now
  · exact finishIfDone_cursor _ now

lemma startOwed_turns (p : PhaseRun) (arrived : Nat) :
    Turns p (p.startOwed arrived).1 (p.startOwed arrived).2 := by
  simp only [startOwed]
  split
  · exact .none rfl rfl
  · exact (issue_turns _ _).congr rfl rfl rfl rfl

lemma tick_turns (p : PhaseRun) (now : Nanos) : Turns p (p.tick now).1 (p.tick now).2 := by
  by_cases hrun : p.status = .running
  · cases hc : p.phase.arrivals with
    | none =>
      have he : p.tick now = (p.finishIfDone now, []) := by
        simp only [tick, hrun, if_true, hc]
      rw [he]
      exact .none (finishIfDone_shares p now) (finishIfDone_cursor p now)
    | some curve =>
      rw [tick_of_arrivals hrun hc]
      refine (p.startOwed_turns _).congr rfl rfl ?_ ?_
      · exact finishIfDone_shares _ now
      · exact finishIfDone_cursor _ now
  · rw [tick, if_neg hrun]
    exact .none rfl rfl

lemma onEnded_turns (p : PhaseRun) (shard : Nat) (how : SessionEnd) (now : Nanos) :
    Turns p (p.onEnded shard how now).1 [] := by
  by_cases hrun : p.status = .running
  · obtain ⟨inFlight, throttled, he⟩ := onEnded_of_running hrun shard how now
    rw [he]
    exact .none (finishIfDone_shares _ now) (finishIfDone_cursor _ now)
  · rw [onEnded, if_neg hrun]
    exact .none rfl rfl

/-- Of the starts to be sent those that were dealt out in turn. -/
def Request.inTurn (starts : Starts) : Request → Starts
  | .start | .react .tick => starts
  | _ => []

lemma serve_turns (p : PhaseRun) (now : Nanos) (what : Request) :
    Turns p (p.serve now what).1 (what.inTurn (p.serve now what).2) := by
  cases what with
  | start =>
    simp only [serve, Request.inTurn]
    cases hstart : p.start now with
    | error e => exact .none rfl rfl
    | ok r => exact start_turns hstart
  | react what =>
    cases what with
    | tick => exact p.tick_turns now
    | started started blocked => exact .none rfl rfl
    | ended shard how => exact p.onEnded_turns shard how now
  | finish =>
    simp only [serve, Request.inTurn]
    cases hfinish : p.finish now with
    | error e => exact .none rfl rfl
    | ok q => rcases finish_eq_ok hfinish with rfl | ⟨-, rfl⟩ <;> exact .none rfl rfl
  | beginTermination =>
    cases hp : p.status with
    | notStarted | running | finished | terminating | terminated =>
      simp only [serve, PhaseRun.beginTermination, hp]
      exact .none rfl rfl
  | complete statistics maxUsed => exact .none rfl rfl

/-- What becomes of a phase, and all starts that were dealt out in turn on the way. -/
inductive Deals (p : PhaseRun) : Starts → PhaseRun → Prop
  | nothing : Deals p [] p
  | issue {dealt : Starts} {q : PhaseRun} (h : Deals p dealt q) (count : Nat) :
    Deals p (dealt ++ (q.issue count).2) (q.issue count).1
  | serve {dealt : Starts} {q : PhaseRun} (h : Deals p dealt q) (now : Nanos) (what : Request) :
    Deals p (dealt ++ what.inTurn (q.serve now what).2) (q.serve now what).1

structure EvenShares (p q : PhaseRun) (dealt : Starts) : Prop where
  shares : q.shares = p.shares
  named : ∀ s ∈ dealt, s.1 ∈ p.takers
  cursor : q.cursor % p.takers.length = (dealt.map Prod.snd).sum % p.takers.length
  dealt_eq : ∀ j (hj : j < p.takers.length), dealtTo p.takers[j] dealt =
    share (dealt.map Prod.snd).sum p.takers.length j

lemma EvenShares.turns (h : p.EvenShares q dealt) (hturns : Turns q p' starts) :
    p.EvenShares p' (dealt ++ starts) := by
  have htakers : q.takers = p.takers := takers_eq h.shares.symm
  have hcursor := hturns.cursor
  have hstarts := hturns.starts_eq
  rw [htakers] at hcursor hstarts
  refine ⟨hturns.shares.trans h.shares, ?_, ?_, fun j hj => ?_⟩
  · refine List.forall_mem_append.mpr ⟨h.named, ?_⟩
    rw [hstarts]
    exact fun s hs => (mem_dealOut hs).1
  · rw [hcursor, ← Nat.mod_add_mod, h.cursor, Nat.mod_add_mod, List.map_append, List.sum_append]
  · obtain ⟨i, hi, hturn⟩ := exists_turn (dealt.map Prod.snd).sum hj
    have hplace : (q.cursor % p.takers.length + i) % p.takers.length = j := by
      rw [h.cursor, Nat.mod_add_mod, hturn]
    have hnext : dealtTo p.takers[j] starts =
        share (starts.map Prod.snd).sum p.takers.length i := by
      conv_lhs => rw [hstarts]
      exact dealtTo_taker p.takers_nodup _ hi hj hplace
    rw [dealtTo_append, h.dealt_eq j hj, hnext, List.map_append, List.sum_append]
    exact share_add _ _ hi hj hturn

lemma Deals.even (hcursor : p.cursor = 0) (h : p.Deals dealt q) : p.EvenShares q dealt := by
  induction h with
  | nothing =>
    refine ⟨rfl, List.forall_mem_nil _, ?_, fun j _ => ?_⟩
    · rw [hcursor]
      rfl
    · simp [dealtTo, share]
  | issue _ count ih => exact ih.turns (issue_turns _ count)
  | serve _ now what ih => exact ih.turns (serve_turns _ now what)

lemma dealtTo_eq_zero {shard : Nat} (h : ∀ s ∈ starts, s.1 ≠ shard) :
    dealtTo shard starts = 0 := by
  have hnone : starts.filter (fun s => s.1 == shard) = [] :=
    List.filter_eq_nil_iff.mpr fun s hs => by simpa using h s hs
  rw [dealtTo, hnone]
  rfl

lemma sum_issue (htakers : p.takers ≠ []) (count : Nat) :
    ((p.issue count).2.map Prod.snd).sum = p.grant count := by
  simp only [issue]
  split
  · rename_i h
    exact (h.resolve_right htakers).symm
  · exact sum_dealOut _ _ _ htakers

lemma EvenShares.dealtTo_congr {p₁ q₁ : PhaseRun} {dealt₁ : Starts} (h : p.EvenShares q dealt)
    (h₁ : p₁.EvenShares q₁ dealt₁) (hshares : p₁.shares = p.shares)
    (hsum : (dealt₁.map Prod.snd).sum = (dealt.map Prod.snd).sum) (shard : Nat) :
    dealtTo shard dealt₁ = dealtTo shard dealt := by
  have htakers : p₁.takers = p.takers := takers_eq hshares.symm
  have hnamed := h₁.named
  have hdealt := h₁.dealt_eq
  simp only [htakers, hsum] at hnamed hdealt
  by_cases hshard : shard ∈ p.takers
  · obtain ⟨j, hj, rfl⟩ := List.mem_iff_getElem.mp hshard
    rw [hdealt j hj, h.dealt_eq j hj]
  · have hnone {starts : Starts} (hs : ∀ s ∈ starts, s.1 ∈ p.takers) :
        dealtTo shard starts = 0 := by
      refine dealtTo_eq_zero fun s hmem he => hshard ?_
      rw [← he]
      exact hs s hmem
    rw [hnone hnamed, hnone h.named]

lemma EvenShares.le_add_one (h : p.EvenShares q dealt) {a b : Nat} (ha : a ∈ p.takers)
    (hb : b ∈ p.takers) : dealtTo a dealt ≤ dealtTo b dealt + 1 := by
  obtain ⟨i, hi, rfl⟩ := List.mem_iff_getElem.mp ha
  obtain ⟨j, hj, rfl⟩ := List.mem_iff_getElem.mp hb
  rw [h.dealt_eq i hi, h.dealt_eq j hj, share, share]
  split_ifs <;> omega

/-- A batch names shards that have room, each of them once and with some starts, as many as were
granted altogether. All batches together give every shard its even share, just as one batch of so
many starts does; so however they are cut, no shard is ahead of another by more than one start. -/
theorem dealt_in_turn (hcursor : p.cursor = 0) (htakers : p.takers ≠ []) (h : p.Deals dealt q) :
    (∀ count, (∀ s ∈ (q.issue count).2, 0 < p.shareOf s.1 ∧ 0 < s.2) ∧
      ((q.issue count).2.map Prod.fst).Nodup ∧
      ((q.issue count).2.map Prod.snd).sum = q.grant count) ∧
    (∀ j (hj : j < p.takers.length), dealtTo p.takers[j] dealt =
      (dealt.map Prod.snd).sum / p.takers.length +
        if j < (dealt.map Prod.snd).sum % p.takers.length then 1 else 0) ∧
    (∀ (one : PhaseRun) (count : Nat), one.shares = p.shares → one.cursor = 0 →
      one.grant count = (dealt.map Prod.snd).sum →
      ∀ shard, dealtTo shard (one.issue count).2 = dealtTo shard dealt) ∧
    ∀ a ∈ p.takers, ∀ b ∈ p.takers, dealtTo a dealt ≤ dealtTo b dealt + 1 := by
  have heven := h.even hcursor
  have hsame : q.takers = p.takers := takers_eq heven.shares.symm
  refine ⟨fun count => ⟨fun s hs => ?_, ?_, ?_⟩, heven.dealt_eq, ?_, ?_⟩
  · have hbatch := (q.issue_turns count).starts_eq
    rw [hbatch, hsame] at hs
    obtain ⟨htaker, hpos⟩ := mem_dealOut hs
    exact ⟨of_decide_eq_true (List.mem_filter.mp htaker).2, hpos⟩
  · rw [(q.issue_turns count).starts_eq]
    exact dealOut_nodup q.takers_nodup _ _
  · exact sum_issue (hsame ▸ htakers) count
  · intro one count hshares hfirst hgrant
    -- One batch of as many starts begins at the same place of the round.
    have hone : one.EvenShares (one.issue count).1 (one.issue count).2 :=
      (Deals.nothing.issue count).even hfirst
    refine heven.dealtTo_congr hone hshares ?_
    rw [sum_issue (takers_eq hshares.symm ▸ htakers), hgrant]
  · exact fun a ha b hb => heven.le_add_one ha hb

def narrowRow : PhaseRun := { new narrow 3 with shares := [2, 0, 1] }

theorem narrowRow_dealt_in_turn : ∃ q, narrowRow.cursor = 0 ∧ narrowRow.takers = [0, 2] ∧
    narrowRow.Deals [(0, 1), (2, 2), (0, 1), (0, 1)] q ∧
    dealtTo 0 [(0, 1), (2, 2), (0, 1), (0, 1)] = 3 ∧
    dealtTo 2 [(0, 1), (2, 2), (0, 1), (0, 1)] = 2 := by
  have hfirst := (Deals.nothing (p := narrowRow)).issue 1
  have hsecond := (hfirst.serve 0 (.react (.started 0 1))).issue 5
  have hthird := (hsecond.serve 1 (.react (.started 2 1))).issue 9
  refine ⟨_, rfl, rfl, hthird, ?_⟩
  obtain ⟨-, hdealt, -⟩ := dealt_in_turn rfl (by decide) hthird
  exact ⟨hdealt 0 (by decide), hdealt 1 (by decide)⟩

end PhaseRun

end LoadEngine
