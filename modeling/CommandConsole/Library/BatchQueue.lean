import Mathlib.Data.List.Nodup

/-! # Queues served in batches from the front

Each service takes the first items of the queue. Those that are refused stay at
the front, so they fill up the batches that follow.
-/
namespace Library.BatchQueue
set_option autoImplicit false

variable {α : Type} (size : Nat) (refused : α → Bool)

def serve (queue : List α) : List α := (queue.take size).filter refused ++ queue.drop size

def serveFor (queue : List α) : Nat → List α
  | 0 => queue
  | n + 1 => serve size refused (serveFor queue n)

theorem serveFor_serve (queue : List α) (n : Nat) :
    serveFor size refused (serve size refused queue) n = serve size refused (serveFor size refused queue n) := by
  induction n with
  | zero => rfl
  | succ n ih => rw [serveFor, ih, serveFor]

/-- How many items of the queue have been in one of the first `n` batches. -/
def reached (queue : List α) : Nat → Nat
  | 0 => 0
  | n + 1 => reached queue n + (size - (queue.take (reached queue n)).countP refused)

theorem filter_take_append (front back : List α) (h : ∀ a ∈ front, refused a = true) :
    serve size refused (front ++ back) =
      front ++ ((back.take (size - front.length)).filter refused ++ back.drop (size - front.length)) := by
  unfold serve
  rw [List.take_append, List.drop_append, List.filter_append]
  have hTake : (front.take size).filter refused = front.take size :=
    List.filter_eq_self.mpr fun a ha => h a (List.mem_of_mem_take ha)
  rw [hTake]
  by_cases hFits : front.length ≤ size
  · rw [List.take_of_length_le hFits, List.drop_of_length_le hFits, List.nil_append, List.append_assoc]
  · have hRoom : size - front.length = 0 := by omega
    simp only [hRoom, List.take_zero, List.filter_nil, List.append_nil, List.drop_zero, List.nil_append]
    rw [← List.append_assoc, List.take_append_drop]

/-- What waits after some services: the refused items met so far, then the items that were in no batch. -/
theorem serveFor_eq (queue : List α) (n : Nat) :
    serveFor size refused queue n =
      (queue.take (reached size refused queue n)).filter refused ++
        queue.drop (reached size refused queue n) := by
  induction n with
  | zero => simp [serveFor, reached]
  | succ n ih =>
    rw [serveFor, ih, filter_take_append _ _ _ _ fun a ha => (List.mem_filter.mp ha).2,
      ← List.countP_eq_length_filter, reached, List.take_add, List.filter_append, List.append_assoc,
      List.drop_drop]

theorem all_refused_iff (queue : List α) (n : Nat) :
    (∀ a ∈ serveFor size refused queue n, refused a = true) ↔
      ∀ a ∈ queue.drop (reached size refused queue n), refused a = true := by
  rw [serveFor_eq]
  constructor
  · intro h a ha
    exact h a (List.mem_append_right _ ha)
  · intro h a ha
    obtain hMet | hRest := List.mem_append.mp ha
    · exact (List.mem_filter.mp hMet).2
    · exact h a hRest

theorem reached_map {β : Type} (f : β → α) (queue : List β) (n : Nat) :
    reached size refused (queue.map f) n = reached size (fun item => refused (f item)) queue n := by
  induction n with
  | zero => rfl
  | succ n ih =>
    rw [reached, ih, reached, ← List.map_take, List.countP_map]
    rfl

/-- A queue without repetitions loses just the items of the batch that are not refused. -/
theorem filter_served [DecidableEq α] {queue : List α} (hNodup : queue.Nodup) :
    queue.filter (fun a => !(decide (a ∈ queue.take size) && !refused a)) = serve size refused queue := by
  have hSplit := List.take_append_drop size queue
  have hDisjoint := List.disjoint_take_drop hNodup (Nat.le_refl size)
  conv_lhs => arg 2; rw [← hSplit]
  rw [List.filter_append, serve]
  congr 1
  · refine List.filter_congr fun a ha => ?_
    simp [ha]
  · refine List.filter_eq_self.mpr fun a ha => ?_
    have hOut : a ∉ queue.take size := fun h => hDisjoint h ha
    simp [hOut]

end Library.BatchQueue
