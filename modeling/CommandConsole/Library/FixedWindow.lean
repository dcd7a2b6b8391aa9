import Mathlib.Data.List.Basic

/-! # Fixed windows

A window opens with the first event that no earlier window holds. The times of the events stand newest first.
-/
namespace Library.FixedWindow
set_option autoImplicit false

/-- When the window of the newest event was opened. -/
def opened (length : Nat) : List Nat → Option Nat
  | [] => none
  | now :: earlier =>
    match opened length earlier with
    | some start => if now < start + length then some start else some now
    | none => some now

/-- How many of the events fall into the window of the newest one. -/
def held (length : Nat) (times : List Nat) : Nat :=
  match opened length times with
  | some start => times.countP (start ≤ ·)
  | none => 0

variable {length now start : Nat} {times : List Nat}

theorem opened_eq_none (h : opened length times = none) : times = [] := by
  cases times with
  | nil => rfl
  | cons now earlier =>
    rw [opened] at h
    split at h
    · split at h <;> cases h
    · cases h

theorem opened_mem (h : opened length times = some start) : start ∈ times := by
  induction times with
  | nil => cases h
  | cons now earlier ih =>
    rw [opened] at h
    split at h
    next first hFirst =>
      split at h
      · cases h
        exact List.mem_cons_of_mem _ (ih hFirst)
      · cases h
        exact List.mem_cons_self
    next =>
      cases h
      exact List.mem_cons_self

/-- The window of the newest event has not passed for any of the events. -/
theorem lt_of_opened (hLength : 0 < length) (hTimes : times.Pairwise (· ≥ ·)) (h : opened length times = some start) :
    ∀ time ∈ times, time < start + length := by
  cases times with
  | nil => cases h
  | cons now earlier =>
    rw [List.pairwise_cons] at hTimes
    have hNow : now < start + length := by
      rw [opened] at h
      split at h
      · split at h
        next hWithin =>
          cases h
          exact hWithin
        · cases h
          omega
      · cases h
        omega
    rintro time (_ | ⟨_, hMem⟩)
    · exact hNow
    · have := hTimes.1 time hMem
      omega

theorem opened_within (h : opened length times = some start) (hNow : now < start + length) :
    opened length (now :: times) = some start := by
  simp only [opened, h, if_pos hNow]

theorem opened_after (h : ∀ start, opened length times = some start → start + length ≤ now) :
    opened length (now :: times) = some now := by
  rw [opened]
  split
  next start hStart => rw [if_neg (by have := h start hStart; omega)]
  next => rfl

theorem held_within (hTimes : (now :: times).Pairwise (· ≥ ·)) (h : opened length times = some start)
    (hNow : now < start + length) : held length (now :: times) = held length times + 1 := by
  have hStart : start ≤ now := (List.pairwise_cons.mp hTimes).1 start (opened_mem h)
  simp only [held, opened_within h hNow, h]
  rw [List.countP_cons_of_pos (by simpa using hStart)]

theorem held_after (hLength : 0 < length) (hTimes : (now :: times).Pairwise (· ≥ ·))
    (h : ∀ start, opened length times = some start → start + length ≤ now) : held length (now :: times) = 1 := by
  have hEarlier : times.countP (now ≤ ·) = 0 := by
    rw [List.countP_eq_zero]
    intro time hMem hLate
    rw [decide_eq_true_eq] at hLate
    cases hOpened : opened length times with
    | none => rw [opened_eq_none hOpened] at hMem; cases hMem
    | some start =>
      have hTime := lt_of_opened hLength (List.pairwise_cons.mp hTimes).2 hOpened time hMem
      have hPassed := h start hOpened
      omega
  simp only [held, opened_after h]
  rw [List.countP_cons_of_pos (by simp), hEarlier]

/-- The number of events in the window of the newest one, and when that window passes. -/
def summary (length : Nat) (times : List Nat) : Option (Nat × Nat) :=
  (opened length times).map fun start => (held length times, start + length)

/-- What a counter with an expiry makes of one more event. -/
def next (length now : Nat) : Option (Nat × Nat) → Nat × Nat
  | some (count, expiry) => if now < expiry then (count + 1, expiry) else (1, now + length)
  | none => (1, now + length)

theorem summary_cons (hLength : 0 < length) (hTimes : (now :: times).Pairwise (· ≥ ·)) :
    summary length (now :: times) = some (next length now (summary length times)) := by
  cases hOpened : opened length times with
  | none =>
    have hNone : ∀ start, opened length times = some start → start + length ≤ now := by
      intro start hStart
      rw [hOpened] at hStart
      cases hStart
    simp only [summary, next, opened_after hNone, held_after hLength hTimes hNone, hOpened, Option.map_some,
      Option.map_none]
  | some start =>
    by_cases hNow : now < start + length
    · simp only [summary, next, opened_within hOpened hNow, held_within hTimes hOpened hNow, hOpened, Option.map_some,
        if_pos hNow]
    · have hAfter : ∀ start, opened length times = some start → start + length ≤ now := by
        intro start' hStart
        rw [hOpened] at hStart
        cases hStart
        omega
      simp only [summary, next, opened_after hAfter, held_after hLength hTimes hAfter, hOpened, Option.map_some,
        if_neg hNow]

theorem pos_of_summary {count expiry : Nat} (h : summary length times = some (count, expiry)) : 0 < count := by
  rw [summary, Option.map_eq_some_iff] at h
  obtain ⟨start, hStart, hSummary⟩ := h
  cases hSummary
  simp only [held, hStart]
  exact List.countP_pos_iff.mpr ⟨start, opened_mem hStart, by simp⟩

end Library.FixedWindow
