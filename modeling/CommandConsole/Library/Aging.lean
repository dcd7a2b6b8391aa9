import CommandConsole.Library.Table

/-! # Rows that age in place

A commit may change rows where they stand and append new ones. What one row may
become is a relation; the key of a row stays.
-/
namespace Library
set_option autoImplicit false

variable {ρ κ υ : Type}

/-- The rows have moved along the relation, and `more` rows stand after them. -/
def Aged (R : ρ → ρ → Prop) (rows more later : List ρ) : Prop :=
  ∃ change : ρ → ρ, later = rows.map change ++ more ∧ ∀ row, R row (change row)

namespace Aged

variable {R : ρ → ρ → Prop} {rows more later : List ρ}

theorem refl [Std.Refl R] (rows : List ρ) : Aged R rows [] rows := ⟨id, by simp, fun row => Std.Refl.refl row⟩

theorem take (h : Aged R rows more later) {n : Nat} (hBound : n ≤ rows.length) :
    ∃ change : ρ → ρ, later.take n = (rows.take n).map change ∧ ∀ row, R row (change row) := by
  obtain ⟨change, rfl, hChange⟩ := h
  refine ⟨change, ?_, hChange⟩
  rw [List.take_append_of_le_length (by rwa [List.length_map]), List.map_take]

theorem length_eq (h : Aged R rows more later) : later.length = rows.length + more.length := by
  obtain ⟨change, rfl, -⟩ := h
  rw [List.length_append, List.length_map]

/-- A test that no row comes to pass is passed by no more of the old rows. -/
theorem countP_le (h : Aged R rows more later) {test : ρ → Bool}
    (hTest : ∀ row next, R row next → test next = true → test row = true) :
    later.countP test ≤ rows.countP test + more.countP test := by
  obtain ⟨change, rfl, hChange⟩ := h
  rw [List.countP_append, List.countP_map]
  exact Nat.add_le_add_right (List.countP_mono_left fun row _ hRow => hTest row _ (hChange row) hRow) _

end Aged

namespace Table

variable {key : ρ → κ} {alt : ρ → Option υ}

theorem aged_update {R : ρ → ρ → Prop} [Std.Refl R] (table : Table key alt) (test : ρ → Bool) (change : ρ → ρ)
    (hKey : ∀ row, key (change row) = key row) (hAlt : ∀ row, alt (change row) = alt row)
    (hChange : ∀ row, R row (change row)) (more : List ρ) :
    Aged R table.rows more ((table.update test change hKey hAlt).rows ++ more) := by
  refine ⟨fun row => if test row then change row else row, rfl, ?_⟩
  intro row
  dsimp only
  split
  · exact hChange row
  · exact Std.Refl.refl row

variable [DecidableEq κ] {table later : Table key alt} {more : List ρ}

theorem find?_of_rows {change : ρ → ρ} (hRows : later.rows = table.rows.map change ++ more)
    (hKey : ∀ row, key (change row) = key row) {k : κ} {row : ρ} (h : table.find? k = some row) :
    later.find? k = some (change row) := by
  obtain ⟨hMem, rfl⟩ := (find?_eq_some _ _ _).mp h
  refine (find?_eq_some _ _ _).mpr ⟨?_, hKey row⟩
  rw [hRows]
  exact List.mem_append_left _ (List.mem_map_of_mem hMem)

theorem find?_aged {R : ρ → ρ → Prop} (h : Aged R table.rows more later.rows)
    (hKey : ∀ row next, R row next → key next = key row) {k : κ} {row : ρ} (hRow : table.find? k = some row) :
    ∃ next, later.find? k = some next ∧ R row next := by
  obtain ⟨change, hRows, hChange⟩ := h
  exact ⟨change row, find?_of_rows hRows (fun row => hKey row _ (hChange row)) hRow, hChange row⟩

end Table

end Library
