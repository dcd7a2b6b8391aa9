import Mathlib.Data.List.Pairwise
import Mathlib.Data.List.Basic

/-! # Relational tables with a primary key and an optional unique column

The rows are kept in insertion order. A table carries the proof that its
primary key is unique and that no two rows share a non-null unique value, so
the constraint check of an upsert is the only place where a write can fail.
-/
namespace Library
set_option autoImplicit false

instance lawfulOptionString : LawfulBEq (Option String) := inferInstance

instance lawfulStringPair : LawfulBEq (String × String) := inferInstance

variable {ρ κ υ : Type}

/-- Two rows that may stand in one table: null unique values never collide. -/
def Distinct (key : ρ → κ) (alt : ρ → Option υ) (left right : ρ) : Prop :=
  key left ≠ key right ∧ ∀ value, alt left = some value → alt right ≠ some value

instance Distinct.symm (key : ρ → κ) (alt : ρ → Option υ) : Std.Symm (Distinct key alt) where
  symm _ _ h := ⟨fun hKey => h.1 hKey.symm, fun value hRight hLeft => h.2 value hLeft hRight⟩

structure Table (key : ρ → κ) (alt : ρ → Option υ) where
  rows : List ρ
  unique : rows.Pairwise (Distinct key alt)

namespace Table

variable {key : ρ → κ} {alt : ρ → Option υ}

theorem ext_rows {left right : Table key alt} (h : left.rows = right.rows) : left = right := by
  cases left
  cases right
  cases h
  rfl

theorem eq_of_key_eq (table : Table key alt) {left right : ρ} (hLeft : left ∈ table.rows)
    (hRight : right ∈ table.rows) (hKey : key left = key right) : left = right := by
  by_contra hNe
  exact (table.unique.forall hLeft hRight hNe).1 hKey

def empty : Table key alt where
  rows := []
  unique := .nil

/-- An UPDATE that touches neither the primary key nor the unique column. -/
def modify (table : Table key alt) (change : ρ → ρ) (hKey : ∀ row, key (change row) = key row)
    (hAlt : ∀ row, alt (change row) = alt row) : Table key alt where
  rows := table.rows.map change
  unique := by
    rw [List.pairwise_map]
    apply table.unique.imp
    intro left right h
    exact ⟨by rw [hKey, hKey]; exact h.1, by rw [hAlt, hAlt]; exact h.2⟩

/-- A DELETE of the rows that fail the test. -/
def keep (table : Table key alt) (test : ρ → Bool) : Table key alt where
  rows := table.rows.filter test
  unique := table.unique.filter test

/-- UPDATE .. WHERE of columns outside the constraints. -/
def update (table : Table key alt) (test : ρ → Bool) (change : ρ → ρ)
    (hKey : ∀ row, key (change row) = key row := by intro row; rfl)
    (hAlt : ∀ row, alt (change row) = alt row := by intro row; rfl) : Table key alt :=
  table.modify (fun row => if test row then change row else row)
    (fun row => by split <;> simp only [hKey]) (fun row => by split <;> simp only [hAlt])

@[simp] theorem rows_empty : (empty : Table key alt).rows = [] := rfl

@[simp] theorem rows_modify (table : Table key alt) (change : ρ → ρ)
    (hKey : ∀ row, key (change row) = key row) (hAlt : ∀ row, alt (change row) = alt row) :
    (table.modify change hKey hAlt).rows = table.rows.map change := rfl

@[simp] theorem rows_update (table : Table key alt) (test : ρ → Bool) (change : ρ → ρ)
    (hKey : ∀ row, key (change row) = key row) (hAlt : ∀ row, alt (change row) = alt row) :
    (table.update test change hKey hAlt).rows =
      table.rows.map fun row => if test row then change row else row := rfl

@[simp] theorem rows_keep (table : Table key alt) (test : ρ → Bool) :
    (table.keep test).rows = table.rows.filter test := rfl

variable [DecidableEq κ]

def find? (table : Table key alt) (k : κ) : Option ρ := table.rows.find? fun row => key row = k

theorem find?_eq_some (table : Table key alt) (k : κ) (row : ρ) :
    table.find? k = some row ↔ row ∈ table.rows ∧ key row = k := by
  constructor
  · intro h
    exact ⟨List.mem_of_find?_eq_some h, by simpa using List.find?_some h⟩
  · rintro ⟨hRow, rfl⟩
    cases hFind : table.find? (key row) with
    | none =>
      have hNone := List.find?_eq_none.mp hFind row hRow
      simp at hNone
    | some other =>
      have hOther : key other = key row := by simpa using List.find?_some hFind
      rw [table.eq_of_key_eq (List.mem_of_find?_eq_some hFind) hRow hOther]

theorem find?_eq_none (table : Table key alt) (k : κ) :
    table.find? k = none ↔ ∀ row ∈ table.rows, key row ≠ k := by
  simp [find?, List.find?_eq_none]

theorem find?_key {table : Table key alt} {k : κ} {row : ρ} (h : table.find? k = some row) :
    key row = k := ((table.find?_eq_some k row).mp h).2

theorem find?_mem {table : Table key alt} {k : κ} {row : ρ} (h : table.find? k = some row) :
    row ∈ table.rows := ((table.find?_eq_some k row).mp h).1

/-- SELECT .. WHERE key = k. -/
theorem filter_key (table : Table key alt) (k : κ) :
    (table.rows.filter fun row => key row = k) = (table.find? k).toList := by
  have hUnique := table.unique
  unfold find?
  generalize table.rows = all at hUnique ⊢
  induction all with
  | nil => rfl
  | cons row rows ih =>
    rw [List.pairwise_cons] at hUnique
    by_cases hKey : key row = k
    · have hRest : (rows.filter fun other => key other = k) = [] := by
        rw [List.filter_eq_nil_iff]
        intro other hOther hOtherKey
        exact (hUnique.1 other hOther).1 (hKey.trans (of_decide_eq_true hOtherKey).symm)
      rw [List.filter_cons_of_pos (by simpa using hKey), hRest, List.find?_cons_of_pos (by simpa using hKey)]
      rfl
    · rw [List.filter_cons_of_neg (by simpa using hKey), List.find?_cons_of_neg (by simpa using hKey)]
      exact ih hUnique.2

@[simp] theorem find?_empty (k : κ) : (empty : Table key alt).find? k = none := rfl

theorem find?_modify (table : Table key alt) (change : ρ → ρ)
    (hKey : ∀ row, key (change row) = key row) (hAlt : ∀ row, alt (change row) = alt row) (k : κ) :
    (table.modify change hKey hAlt).find? k = (table.find? k).map change := by
  simp only [find?, rows_modify, List.find?_map]
  congr 1
  congr 1
  funext row
  simp [hKey]

theorem find?_update (table : Table key alt) (test : ρ → Bool) (change : ρ → ρ)
    (hKey : ∀ row, key (change row) = key row) (hAlt : ∀ row, alt (change row) = alt row) (k : κ) :
    (table.update test change hKey hAlt).find? k =
      (table.find? k).map fun row => if test row then change row else row :=
  find?_modify table _ _ _ k

theorem find?_keep (table : Table key alt) (test : ρ → Bool) (k : κ) :
    (table.keep test).find? k = (table.find? k).filter test := by
  cases hFind : table.find? k with
  | none =>
    rw [Option.filter_none, find?_eq_none]
    intro row hRow
    exact (table.find?_eq_none k).mp hFind row (List.mem_of_mem_filter hRow)
  | some row =>
    have hMem := (table.find?_eq_some k row).mp hFind
    by_cases hTest : test row = true
    · rw [Option.filter_some_pos hTest, find?_eq_some]
      exact ⟨List.mem_filter.mpr ⟨hMem.1, hTest⟩, hMem.2⟩
    · rw [Option.filter_some_neg (by simpa using hTest), find?_eq_none]
      intro other hOther hKey
      obtain ⟨hOther, hOtherTest⟩ := List.mem_filter.mp hOther
      rw [table.eq_of_key_eq hOther hMem.1 (hKey.trans hMem.2.symm)] at hOtherTest
      exact hTest hOtherTest

variable [DecidableEq υ]

/-- The unique column of another row already holds the value. -/
def conflicts (table : Table key alt) (row : ρ) : Bool :=
  (alt row).isSome && table.rows.any fun other => key other ≠ key row && alt other = alt row

theorem conflicts_eq_false (table : Table key alt) (row : ρ) :
    table.conflicts row = false ↔
      ∀ other ∈ table.rows, key other ≠ key row → ∀ value, alt row = some value →
        alt other ≠ some value := by
  cases hAlt : alt row with
  | none => simp [conflicts, hAlt]
  | some value =>
    simp only [conflicts, hAlt, Option.isSome_some, Bool.true_and, List.any_eq_false,
      Bool.and_eq_true, decide_eq_true_eq, not_and, Option.some.injEq, forall_eq']

/-- The row in place of the one with its key, at the end when there is none. -/
def placed (rows : List ρ) (key : ρ → κ) (row : ρ) : List ρ :=
  if rows.any fun other => key other = key row then
    rows.map fun other => if key other = key row then row else other
  else rows ++ [row]

theorem mem_placed (rows : List ρ) (row other : ρ) :
    other ∈ placed rows key row ↔ other = row ∨ (other ∈ rows ∧ key other ≠ key row) := by
  unfold placed
  split
  · rename_i hAny
    obtain ⟨old, hOld, hKey⟩ := List.any_eq_true.mp hAny
    have hKey : key old = key row := by simpa using hKey
    rw [List.mem_map]
    constructor
    · rintro ⟨prior, hPrior, hEq⟩
      split at hEq
      · exact .inl hEq.symm
      · rename_i hNe
        exact .inr ⟨hEq ▸ hPrior, hEq ▸ hNe⟩
    · rintro (rfl | ⟨hOther, hNe⟩)
      · exact ⟨old, hOld, by rw [if_pos hKey]⟩
      · exact ⟨other, hOther, by rw [if_neg hNe]⟩
  · rename_i hAny
    have hNone : ∀ prior ∈ rows, key prior ≠ key row := by simpa using hAny
    rw [List.mem_append, List.mem_singleton]
    constructor
    · rintro (hOther | hEq)
      · exact .inr ⟨hOther, hNone other hOther⟩
      · exact .inl hEq
    · rintro (hEq | ⟨hOther, _⟩)
      · exact .inr hEq
      · exact .inl hOther

theorem placed_unique (table : Table key alt) (row : ρ) (h : table.conflicts row = false) :
    (placed table.rows key row).Pairwise (Distinct key alt) := by
  have hFree := (table.conflicts_eq_false row).mp h
  have hNew : ∀ other ∈ table.rows, key other ≠ key row → Distinct key alt other row :=
    fun other hOther hNe => ⟨hNe, fun value hValue hRow => hFree other hOther hNe value hRow hValue⟩
  unfold placed
  split
  · rw [List.pairwise_map]
    apply table.unique.imp_of_mem
    intro left right hLeft hRight hDistinct
    by_cases hl : key left = key row <;> by_cases hr : key right = key row
    · exact absurd (hl.trans hr.symm) hDistinct.1
    · simp only [hl, hr, if_true, if_false]
      exact (Distinct.symm key alt).symm _ _ (hNew right hRight hr)
    · simp only [hl, hr, if_true, if_false]
      exact hNew left hLeft hl
    · simpa only [hl, hr, if_false] using hDistinct
  · rename_i hAny
    have hNone : ∀ prior ∈ table.rows, key prior ≠ key row := by simpa using hAny
    rw [List.pairwise_append]
    refine ⟨table.unique, List.pairwise_singleton _ _, ?_⟩
    intro left hLeft right hRight
    rw [List.mem_singleton.mp hRight]
    exact hNew left hLeft (hNone left hLeft)

/-- INSERT .. ON CONFLICT (key) DO UPDATE: `none` when the unique column is taken. -/
def upsert (table : Table key alt) (row : ρ) : Option (Table key alt) :=
  if h : table.conflicts row = false then some ⟨placed table.rows key row, placed_unique table row h⟩
  else none

theorem upsert_eq_some {table : Table key alt} {row : ρ} {next : Table key alt} :
    table.upsert row = some next ↔
      table.conflicts row = false ∧ next.rows = placed table.rows key row := by
  unfold upsert
  split
  · rename_i h
    simp only [h, true_and, Option.some.injEq]
    exact ⟨fun hNext => hNext ▸ rfl, fun hRows => ext_rows hRows.symm⟩
  · rename_i h
    simp [h]

theorem mem_upsert {table next : Table key alt} {row : ρ} (h : table.upsert row = some next)
    (other : ρ) : other ∈ next.rows ↔ other = row ∨ (other ∈ table.rows ∧ key other ≠ key row) := by
  rw [(upsert_eq_some.mp h).2, mem_placed]

theorem find?_upsert {table next : Table key alt} {row : ρ} (h : table.upsert row = some next)
    (k : κ) : next.find? k = if k = key row then some row else table.find? k := by
  split
  · rename_i hKey
    rw [find?_eq_some, mem_upsert h]
    exact ⟨.inl rfl, hKey.symm⟩
  · rename_i hKey
    cases hFind : table.find? k with
    | none =>
      rw [find?_eq_none]
      intro other hOther hEq
      rcases (mem_upsert h other).mp hOther with rfl | ⟨hOther, _⟩
      · exact hKey hEq.symm
      · exact (table.find?_eq_none k).mp hFind other hOther hEq
    | some old =>
      obtain ⟨hOld, hOldKey⟩ := (table.find?_eq_some k old).mp hFind
      rw [find?_eq_some, mem_upsert h]
      exact ⟨.inr ⟨hOld, fun hEq => hKey (hOldKey.symm.trans hEq)⟩, hOldKey⟩

/-- A plain INSERT, which a row with the same key refuses too. -/
def insert (table : Table key alt) (row : ρ) : Option (Table key alt) :=
  if (table.find? (key row)).isSome then none else table.upsert row

theorem find?_insert {table next : Table key alt} {row : ρ} (h : table.insert row = some next) (k : κ) :
    next.find? k = if k = key row then some row else table.find? k := by
  unfold insert at h
  split at h
  · cases h
  · exact find?_upsert h k

theorem insert_eq_some {table next : Table key alt} {row : ρ} (h : table.insert row = some next) :
    table.find? (key row) = none ∧ table.conflicts row = false ∧ next.rows = table.rows ++ [row] := by
  unfold insert at h
  split at h
  · cases h
  · rename_i hFind
    have hFind : table.find? (key row) = none := by simpa using hFind
    obtain ⟨hFree, hRows⟩ := upsert_eq_some.mp h
    refine ⟨hFind, hFree, ?_⟩
    rw [hRows, placed, if_neg]
    simpa using (table.find?_eq_none (key row)).mp hFind

end Table

/-- A table whose only constraint is its primary key. -/
abbrev PlainTable (key : ρ → κ) := Table key fun _ => (none : Option Unit)

namespace PlainTable

variable {key : ρ → κ} [DecidableEq κ]

theorem conflicts_eq_false (table : PlainTable key) (row : ρ) :
    Table.conflicts table row = false := rfl

def put (table : PlainTable key) (row : ρ) : PlainTable key :=
  ⟨Table.placed table.rows key row, Table.placed_unique table row (conflicts_eq_false table row)⟩

/-- A row with a new key goes to the end. -/
theorem rows_put {table : PlainTable key} {row : ρ} (h : table.find? (key row) = none) :
    (put table row).rows = table.rows ++ [row] := by
  refine if_neg ?_
  simpa using (table.find?_eq_none (key row)).mp h

theorem mem_put (table : PlainTable key) (row other : ρ) :
    other ∈ (put table row).rows ↔ other = row ∨ (other ∈ table.rows ∧ key other ≠ key row) :=
  Table.mem_placed table.rows row other

theorem find?_put (table : PlainTable key) (row : ρ) (k : κ) :
    (put table row).find? k = if k = key row then some row else table.find? k :=
  Table.find?_upsert (Table.upsert_eq_some.mpr ⟨conflicts_eq_false table row, rfl⟩) k

end PlainTable
end Library
