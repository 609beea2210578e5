import LoadEngine.Session.Tag

/-!
Timer queues. A queue is kept in the order in which its timers fire: by time, and among timers of
one time by the order of scheduling.
-/

namespace LoadEngine

/-- Places a timer behind those that are due no later. -/
def insertTimer (timer : Timer) : List Timer → List Timer
  | [] => [timer]
  | t :: rest => if timer.due < t.due then timer :: t :: rest else t :: insertTimer timer rest

theorem insertTimer_cons (timer t : Timer) (rest : List Timer) : insertTimer timer (t :: rest) =
    if timer.due < t.due then timer :: t :: rest else t :: insertTimer timer rest := rfl

theorem mem_insertTimer {timer t : Timer} {l : List Timer} :
    t ∈ insertTimer timer l ↔ t = timer ∨ t ∈ l := by
  induction l with
  | nil => exact List.mem_singleton.trans (by simp)
  | cons u rest ih =>
    rw [insertTimer_cons]
    split
    · simp
    · simp only [List.mem_cons, ih]
      constructor <;> rintro (h | h | h) <;> simp [h]

theorem sorted_insertTimer {timer : Timer} {l : List Timer}
    (h : l.Pairwise fun t u => t.due ≤ u.due) :
    (insertTimer timer l).Pairwise fun t u => t.due ≤ u.due := by
  induction l with
  | nil => exact List.pairwise_singleton _ _
  | cons t rest ih =>
    rw [List.pairwise_cons] at h
    rw [insertTimer_cons]
    split
    · rename_i hlt
      refine List.pairwise_cons.2 ⟨fun u hu => ?_, List.pairwise_cons.2 h⟩
      rcases List.mem_cons.1 hu with rfl | hu
      · exact Nat.le_of_lt hlt
      · exact Nat.le_trans (Nat.le_of_lt hlt) (h.1 u hu)
    · rename_i hle
      refine List.pairwise_cons.2 ⟨fun u hu => ?_, ih h.2⟩
      rcases mem_insertTimer.1 hu with rfl | hu
      · exact Nat.le_of_not_lt hle
      · exact h.1 u hu

structure Timers where
  toList : List Timer
  sorted : toList.Pairwise fun t u => t.due ≤ u.due
deriving DecidableEq

namespace Timers

def empty : Timers := ⟨[], .nil⟩

def schedule (q : Timers) (timer : Timer) : Timers :=
  ⟨insertTimer timer q.toList, sorted_insertTimer q.sorted⟩

def size (q : Timers) : Nat := q.toList.length

def next? (q : Timers) : Option Nanos := q.toList.head?.map Timer.due

def popDue? (q : Timers) (now : Nanos) : Option (Timer × Timers) :=
  match q with
  | ⟨[], _⟩ => none
  | ⟨timer :: rest, sorted⟩ =>
    if timer.due ≤ now then some (timer, ⟨rest, (List.pairwise_cons.1 sorted).2⟩) else none

end Timers

end LoadEngine
