import Mathlib.Data.List.Count

/-! # Stamps of a counter

A counter goes up by one with every entry about it that is appended to a log. A
stamp is the value that was read when the log had a certain length. It equals
the counter as long as no entry about the counter has been appended since.
-/
namespace Library
set_option autoImplicit false

variable {ε : Type} {about : ε → Bool} {base : Int} {log : List ε}

/-- The counter that stood at `base` before the log. -/
def counted (about : ε → Bool) (base : Int) (log : List ε) : Int := base + log.countP about

theorem counted_append (more : List ε) :
    counted about base (log ++ more) = counted about base log + more.countP about := by
  rw [counted, counted, List.countP_append, Int.natCast_add, Int.add_assoc]

/-- The value was read when the log had `readAt` entries. -/
structure Stamp (about : ε → Bool) (base : Int) (log : List ε) (readAt : Nat) (value : Int) : Prop where
  bound : readAt ≤ log.length
  value_eq : value = counted about base (log.take readAt)

namespace Stamp

variable {readAt : Nat} {value : Int}

theorem read : Stamp about base log log.length (counted about base log) := ⟨Nat.le_refl _, by rw [List.take_length]⟩

theorem append (h : Stamp about base log readAt value) (more : List ε) :
    Stamp about base (log ++ more) readAt value := by
  refine ⟨?_, ?_⟩
  · rw [List.length_append]
    exact Nat.le_add_right_of_le h.bound
  · rw [List.take_append_of_le_length h.bound]
    exact h.value_eq

/-- The counter has moved by the number of entries since. -/
theorem since (h : Stamp about base log readAt value) :
    counted about base log = value + (log.drop readAt).countP about := by
  rw [h.value_eq, ← counted_append, List.take_append_drop]

theorem current (h : Stamp about base log readAt value) (hValue : value = counted about base log)
    {entry : ε} (hEntry : entry ∈ log.drop readAt) : about entry = false := by
  have hNone : (log.drop readAt).countP about = 0 := by
    have hSince := h.since
    omega
  simpa using List.countP_eq_zero.mp hNone entry hEntry

/-- When the counter has moved by one, the entry that moved it is the only one. -/
theorem next (h : Stamp about base log readAt value) (hValue : value + 1 = counted about base log)
    {own entry : ε} (hOwn : own ∈ log.drop readAt) (hAbout : about own = true)
    (hEntry : entry ∈ log.drop readAt) (hEntryAbout : about entry = true) : entry = own := by
  have hOne : ((log.drop readAt).filter about).length = 1 := by
    have hSince := h.since
    rw [← List.countP_eq_length_filter]
    omega
  obtain ⟨only, hOnly⟩ := List.length_eq_one_iff.mp hOne
  have hMem : ∀ other ∈ log.drop readAt, about other = true → other = only := by
    intro other hOther hOtherAbout
    have hFiltered : other ∈ (log.drop readAt).filter about := List.mem_filter.mpr ⟨hOther, hOtherAbout⟩
    rw [hOnly] at hFiltered
    exact List.mem_singleton.mp hFiltered
  rw [hMem entry hEntry hEntryAbout, hMem own hOwn hAbout]

end Stamp

end Library
