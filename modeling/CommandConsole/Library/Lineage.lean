import Mathlib.Data.List.Pairwise
import CommandConsole.Library.EventLog

/-! # Versioned lineages in an append-only ledger

A ledger holds snapshots, and of the snapshots with one id the last one counts. A snapshot
that is superseded names its successor. A ledger is linear when it grows only by new current
snapshots and by snapshots that supersede what is current in favour of a new one.
-/
namespace Library
set_option autoImplicit false

variable {κ : Type}

inductive Standing (κ : Type) where
  | current
  | superseded (successor : κ)
  | retired
  deriving DecidableEq

structure Version (κ : Type) where
  id : κ
  version : Nat
  standing : Standing κ
  deriving DecidableEq

section Statement

variable [DecidableEq κ]

/-- The last snapshot with the id. -/
def latest? (id : κ) (versions : List (Version κ)) : Option (Version κ) :=
  versions.reverse.find? fun version => version.id = id

/-- From successor to successor. -/
inductive Follows (versions : List (Version κ)) : κ → κ → Prop where
  | here (id : κ) : Follows versions id id
  | next {id successor last : κ} {version : Version κ} (hLatest : latest? id versions = some version)
      (hStanding : version.standing = .superseded successor) (hRest : Follows versions successor last) :
      Follows versions id last

structure Lineages (versions : List (Version κ)) : Prop where
  oneSuccessor : ∀ left ∈ versions, ∀ right ∈ versions, left.id = right.id → ∀ successor other,
    left.standing = .superseded successor → right.standing = .superseded other → successor = other
  notReopened : versions.Pairwise fun earlier later =>
    earlier.id = later.id → earlier.standing ≠ .current → later.standing ≠ .current
  succeeded : ∀ version ∈ versions, ∀ successor, version.standing = .superseded successor →
    ∃ next, latest? successor versions = some next ∧ next.version = version.version + 1
  ends : ∀ version ∈ versions, ∃ last, Follows versions version.id last ∧
    (∃ current, latest? last versions = some current ∧ current.standing = .current) ∧
    ∀ other, Follows versions version.id other →
      (∃ current, latest? other versions = some current ∧ current.standing = .current) → other = last

end Statement

section Linear

/-- A record has a current snapshot, and at most one more, which supersedes it. -/
structure Linear (versions : List (Version κ)) : Prop where
  snapshots : versions.Pairwise fun earlier later => earlier.id = later.id →
    earlier.standing = .current ∧ later.standing ≠ .current ∧ later.version = earlier.version
  successors : ∀ version ∈ versions, ∀ successor, version.standing = .superseded successor →
    ∃ next ∈ versions, next.id = successor ∧ next.version = version.version + 1
  noneRetired : ∀ version ∈ versions, version.standing ≠ .retired

/-- What a linear ledger may be extended by. -/
inductive Extension (versions : List (Version κ)) : List (Version κ) → Prop where
  | none : Extension versions []
  | add (new : Version κ) (hFresh : ∀ version ∈ versions, version.id ≠ new.id) (hCurrent : new.standing = .current) :
      Extension versions [new]
  | supersede (old new : Version κ) (hOld : old ∈ versions) (hStanding : old.standing = .current)
      (hOnly : ∀ version ∈ versions, version.id = old.id → version.standing = .current)
      (hFresh : ∀ version ∈ versions, version.id ≠ new.id) (hCurrent : new.standing = .current)
      (hVersion : new.version = old.version + 1) :
      Extension versions [{ old with standing := .superseded new.id }, new]

variable {versions change : List (Version κ)}

theorem linear_nil : Linear ([] : List (Version κ)) :=
  ⟨.nil, fun _ hMem => (nomatch hMem), fun _ hMem => (nomatch hMem)⟩

section Latest

variable [DecidableEq κ]

theorem latest?_eq_some {id : κ} {version : Version κ} (h : latest? id versions = some version) :
    version ∈ versions ∧ version.id = id :=
  ⟨List.mem_reverse.mp (List.mem_of_find?_eq_some h), by simpa using List.find?_some h⟩

/-- What counts for the id of a snapshot is the snapshot itself or the one that supersedes it. -/
theorem Linear.latest (h : Linear versions) {version : Version κ} (hMem : version ∈ versions) :
    ∃ last, latest? version.id versions = some last ∧ (last = version ∨
      version.standing = .current ∧ last.standing ≠ .current ∧ last.version = version.version) := by
  obtain ⟨last, hLast, hOrder⟩ := find?_of_pairwise (fun other : Version κ => decide (other.id = version.id))
    (List.pairwise_reverse.mpr h.snapshots) (List.mem_reverse.mpr hMem) (decide_eq_true rfl)
  have hLast : latest? version.id versions = some last := hLast
  exact ⟨last, hLast, hOrder.imp_right fun hRel => hRel (latest?_eq_some hLast).2.symm⟩

theorem Linear.current_only (h : Linear versions) {id : κ} {last : Version κ} (hLast : latest? id versions = some last)
    (hCurrent : last.standing = .current) {version : Version κ} (hMem : version ∈ versions) (hId : version.id = id) :
    version = last := by
  obtain ⟨other, hOther, hOrder⟩ := h.latest hMem
  rw [hId, hLast] at hOther
  obtain rfl := Option.some.inj hOther
  rcases hOrder with hSame | ⟨-, hNot, -⟩
  · exact hSame.symm
  · exact absurd hCurrent hNot

theorem Linear.version_eq (h : Linear versions) {left right : Version κ} (hLeft : left ∈ versions)
    (hRight : right ∈ versions) (hId : left.id = right.id) : left.version = right.version := by
  have hVersion : ∀ version ∈ versions, ∀ last, latest? version.id versions = some last →
      last.version = version.version := by
    intro version hMem last hLast
    obtain ⟨other, hOther, hOrder⟩ := h.latest hMem
    obtain rfl := Option.some.inj (hLast.symm.trans hOther)
    rcases hOrder with rfl | ⟨-, -, hSame⟩
    · rfl
    · exact hSame
  obtain ⟨last, hLast, -⟩ := h.latest hLeft
  rw [← hVersion left hLeft last hLast, hVersion right hRight last (hId ▸ hLast)]

theorem Linear.extend (h : Linear versions) (hChange : Extension versions change) : Linear (versions ++ change) := by
  cases hChange with
  | none =>
    rw [List.append_nil]
    exact h
  | add new hFresh hCurrent =>
    refine ⟨List.pairwise_append.mpr ⟨h.snapshots, List.pairwise_singleton _ _, ?_⟩, ?_, ?_⟩
    · intro earlier hEarlier later hLater hId
      obtain rfl := List.mem_singleton.mp hLater
      exact absurd hId (hFresh earlier hEarlier)
    · intro version hMem successor hStanding
      rcases List.mem_append.mp hMem with hOld | hNew
      · obtain ⟨next, hNext, hRest⟩ := h.successors version hOld successor hStanding
        exact ⟨next, List.mem_append_left _ hNext, hRest⟩
      · obtain rfl := List.mem_singleton.mp hNew
        cases hCurrent.symm.trans hStanding
    · intro version hMem
      rcases List.mem_append.mp hMem with hOld | hNew
      · exact h.noneRetired version hOld
      · obtain rfl := List.mem_singleton.mp hNew
        exact hCurrent ▸ nofun
  | supersede old new hOld hStanding hOnly hFresh hCurrent hVersion =>
    refine ⟨List.pairwise_append.mpr ⟨h.snapshots, ?_, ?_⟩, ?_, ?_⟩
    · refine List.pairwise_pair.mpr fun hId => ?_
      exact absurd hId (hFresh old hOld)
    · intro earlier hEarlier later hLater hId
      rcases List.mem_cons.mp hLater with rfl | hNew
      · have hSame : old.version = earlier.version := h.version_eq hOld hEarlier hId.symm
        exact ⟨hOnly earlier hEarlier hId, nofun, hSame⟩
      · obtain rfl := List.mem_singleton.mp hNew
        exact absurd hId (hFresh earlier hEarlier)
    · intro version hMem successor hSuccessor
      rcases List.mem_append.mp hMem with hOld' | hNew
      · obtain ⟨next, hNext, hRest⟩ := h.successors version hOld' successor hSuccessor
        exact ⟨next, List.mem_append_left _ hNext, hRest⟩
      · rcases List.mem_cons.mp hNew with rfl | hNew
        · obtain rfl : new.id = successor := by simpa using hSuccessor
          exact ⟨new, by simp, rfl, hVersion⟩
        · obtain rfl := List.mem_singleton.mp hNew
          cases hCurrent.symm.trans hSuccessor
    · intro version hMem
      rcases List.mem_append.mp hMem with hOld' | hNew
      · exact h.noneRetired version hOld'
      · rcases List.mem_cons.mp hNew with rfl | hNew
        · nofun
        · obtain rfl := List.mem_singleton.mp hNew
          exact hCurrent ▸ nofun

end Latest

end Linear

section Ends

variable {versions : List (Version κ)}

theorem exists_bound (versions : List (Version κ)) : ∃ bound, ∀ version ∈ versions, version.version ≤ bound := by
  induction versions with
  | nil => exact ⟨0, fun _ hMem => (nomatch hMem)⟩
  | cons first rest ih =>
    obtain ⟨bound, hBound⟩ := ih
    refine ⟨max first.version bound, fun version hMem => ?_⟩
    rcases List.mem_cons.mp hMem with rfl | hRest
    · exact Nat.le_max_left _ _
    · exact Nat.le_trans (hBound version hRest) (Nat.le_max_right _ _)

variable [DecidableEq κ]

/-- The ends of what follows from one id are one. -/
theorem Follows.end_unique {id first second : κ} (hFirst : Follows versions id first)
    (hSecond : Follows versions id second)
    (hEnd : ∃ current, latest? first versions = some current ∧ current.standing = .current)
    (hEnd' : ∃ current, latest? second versions = some current ∧ current.standing = .current) : first = second := by
  induction hFirst with
  | here id =>
    cases hSecond with
    | here => rfl
    | next hLatest hStanding _ =>
      obtain ⟨current, hCurrent, hOpen⟩ := hEnd
      obtain rfl := Option.some.inj (hLatest.symm.trans hCurrent)
      cases hStanding.symm.trans hOpen
  | next hLatest hStanding _ ih =>
    cases hSecond with
    | here =>
      obtain ⟨current, hCurrent, hOpen⟩ := hEnd'
      obtain rfl := Option.some.inj (hLatest.symm.trans hCurrent)
      cases hStanding.symm.trans hOpen
    | next hLatest' hStanding' hRest =>
      obtain rfl := Option.some.inj (hLatest.symm.trans hLatest')
      cases hStanding.symm.trans hStanding'
      exact ih hRest hEnd

/-- Versions go up from successor to successor, so there is a last one. -/
theorem Linear.reaches_end (h : Linear versions) {bound : Nat} (hBound : ∀ version ∈ versions, version.version ≤ bound)
    (gap : Nat) {version : Version κ} (hMem : version ∈ versions) (hGap : bound - version.version ≤ gap) :
    ∃ last, Follows versions version.id last ∧
      ∃ current, latest? last versions = some current ∧ current.standing = .current := by
  induction gap generalizing version with
  | zero =>
    obtain ⟨last, hLast, -⟩ := h.latest hMem
    obtain ⟨hLastMem, hLastId⟩ := latest?_eq_some hLast
    cases hStanding : last.standing with
    | current => exact ⟨version.id, .here _, last, hLast, hStanding⟩
    | superseded successor =>
      obtain ⟨next, hNext, -, hVersion⟩ := h.successors last hLastMem successor hStanding
      have hSame := h.version_eq hLastMem hMem hLastId
      have hLe := hBound next hNext
      omega
    | retired => exact absurd hStanding (h.noneRetired last hLastMem)
  | succ gap ih =>
    obtain ⟨last, hLast, -⟩ := h.latest hMem
    obtain ⟨hLastMem, hLastId⟩ := latest?_eq_some hLast
    cases hStanding : last.standing with
    | current => exact ⟨version.id, .here _, last, hLast, hStanding⟩
    | superseded successor =>
      obtain ⟨next, hNext, hId, hVersion⟩ := h.successors last hLastMem successor hStanding
      have hSame := h.version_eq hLastMem hMem hLastId
      obtain ⟨end_, hFollows, hEnd⟩ := ih hNext (by omega)
      exact ⟨end_, .next hLast hStanding (hId ▸ hFollows), hEnd⟩
    | retired => exact absurd hStanding (h.noneRetired last hLastMem)

theorem Linear.lineages (h : Linear versions) : Lineages versions := by
  refine ⟨?_, ?_, ?_, ?_⟩
  · intro left hLeft right hRight hId successor other hSuccessor hOther
    by_cases hSame : left = right
    · subst hSame
      simpa using hSuccessor.symm.trans hOther
    · obtain ⟨last, hLast, hOrder⟩ := h.latest hLeft
      obtain ⟨last', hLast', hOrder'⟩ := h.latest hRight
      obtain rfl := Option.some.inj (hLast.symm.trans (hId ▸ hLast'))
      rcases hOrder with rfl | ⟨hCurrent, -⟩
      · rcases hOrder' with rfl | ⟨hCurrent, -⟩
        · exact absurd rfl hSame
        · cases hCurrent.symm.trans hOther
      · cases hCurrent.symm.trans hSuccessor
  · exact h.snapshots.imp fun hRel hId _ => (hRel hId).2.1
  · intro version hMem successor hStanding
    obtain ⟨next, hNext, rfl, hVersion⟩ := h.successors version hMem successor hStanding
    obtain ⟨last, hLast, -⟩ := h.latest hNext
    obtain ⟨hLastMem, hLastId⟩ := latest?_eq_some hLast
    exact ⟨last, hLast, (h.version_eq hLastMem hNext hLastId).trans hVersion⟩
  · intro version hMem
    obtain ⟨bound, hBound⟩ := exists_bound versions
    obtain ⟨last, hFollows, hEnd⟩ := h.reaches_end hBound _ hMem (Nat.le_refl _)
    exact ⟨last, hFollows, hEnd, fun other hOther hOtherEnd => hOther.end_unique hFollows hOtherEnd hEnd⟩

end Ends

end Library
