import Mathlib.Data.List.Basic

/-! # Calls by position

A machine keeps its calls in a list: a new one comes last, and a call that goes on is replaced where
it stands.
-/
namespace Library
set_option autoImplicit false

variable {α : Type}

theorem slot_append {calls : List α} {new call : α} {i : Nat} (h : (calls ++ [new])[i]? = some call) :
    calls[i]? = some call ∨ i = calls.length ∧ call = new := by
  rw [List.getElem?_append] at h
  split at h
  · exact .inl h
  · rename_i hLast
    have hBound := (List.getElem?_eq_some_iff.mp h).1
    rw [List.length_singleton] at hBound
    exact .inr ⟨by omega, List.mem_singleton.mp (List.mem_of_getElem? h)⟩

theorem slot_set {calls : List α} {new call : α} {index i : Nat} (h : (calls.set index new)[i]? = some call) :
    i = index ∧ call = new ∨ i ≠ index ∧ calls[i]? = some call := by
  rw [List.getElem?_set] at h
  split at h
  · rename_i hHere
    split at h
    · exact .inl ⟨hHere.symm, (Option.some.inj h).symm⟩
    · cases h
  · rename_i hOther
    exact .inr ⟨Ne.symm hOther, h⟩

theorem slot_eraseIdx {calls : List α} {call : α} {index i : Nat} (h : calls[i]? = some call) (hOther : i ≠ index) :
    call ∈ calls.eraseIdx index :=
  List.mem_eraseIdx_iff_getElem?.mpr ⟨i, hOther, h⟩

end Library
