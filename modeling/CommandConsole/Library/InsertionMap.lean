import Mathlib.Logic.Function.Basic

/-! # Maps that keep the order of insertion

A list of entries with a lookup; setting a key that is there already keeps its place.
-/
namespace Library
set_option autoImplicit false

namespace InsertionMap

variable {κ α : Type} [DecidableEq κ]

def get (key : κ) : List (κ × α) → Option α
  | [] => none
  | entry :: rest => if entry.1 = key then some entry.2 else get key rest

def set (key : κ) (value : α) : List (κ × α) → List (κ × α)
  | [] => [(key, value)]
  | entry :: rest => if entry.1 = key then (key, value) :: rest else entry :: set key value rest

def delete (key : κ) (entries : List (κ × α)) : List (κ × α) := entries.filter fun entry => entry.1 ≠ key

theorem get_set (key : κ) (value : α) (entries : List (κ × α)) :
    (fun other => get other (set key value entries)) = Function.update (fun other => get other entries) key (some value) := by
  funext other
  rw [Function.update_apply]
  induction entries with
  | nil =>
    rw [set, get, get]
    simp only [get, eq_comm]
  | cons entry rest ih =>
    rw [set]
    by_cases hKey : entry.1 = key
    · rw [if_pos hKey, get, get, hKey]
      by_cases hOther : other = key
      · rw [if_pos hOther.symm, if_pos hOther]
      · rw [if_neg (Ne.symm hOther), if_neg hOther, if_neg (Ne.symm hOther)]
    · rw [if_neg hKey, get, get]
      by_cases hHere : entry.1 = other
      · rw [if_pos hHere, if_pos hHere, if_neg fun hOther => hKey (hHere.trans hOther)]
      · rw [if_neg hHere, if_neg hHere, ih]

theorem get_set_self (key : κ) (value : α) (entries : List (κ × α)) : get key (set key value entries) = some value := by
  have hSet := congrFun (get_set key value entries) key
  rwa [Function.update_self] at hSet

theorem get_set_of_ne {key other : κ} (h : other ≠ key) (value : α) (entries : List (κ × α)) :
    get other (set key value entries) = get other entries := by
  have hSet := congrFun (get_set key value entries) other
  rwa [Function.update_of_ne h] at hSet

theorem set_of_get {key : κ} {value : α} {entries : List (κ × α)} (h : get key entries = some value) :
    set key value entries = entries := by
  induction entries with
  | nil => cases h
  | cons entry rest ih =>
    rw [get] at h
    rw [set]
    split at h
    · rename_i hKey
      rw [if_pos hKey, ← Option.some.inj h, ← hKey]
    · rename_i hKey
      rw [if_neg hKey, ih h]

theorem set_of_get_none {key : κ} (value : α) {entries : List (κ × α)} (h : get key entries = none) :
    set key value entries = entries ++ [(key, value)] := by
  induction entries with
  | nil => rfl
  | cons entry rest ih =>
    rw [get] at h
    split at h
    · cases h
    · rename_i hKey
      rw [set, if_neg hKey, ih h, List.cons_append]

/-- A value that is set where neither it nor the one before it has a property. -/
theorem filter_set {p : α → Bool} {key : κ} {old value : α} {entries : List (κ × α)} (h : get key entries = some old)
    (hOld : p old = false) (hValue : p value = false) :
    ((set key value entries).map Prod.snd).filter p = (entries.map Prod.snd).filter p := by
  induction entries with
  | nil => cases h
  | cons entry rest ih =>
    rw [get] at h
    rw [set]
    split at h
    · rename_i hKey
      obtain rfl := Option.some.inj h
      simp [if_pos hKey, hOld, hValue]
    · rename_i hKey
      rw [if_neg hKey, List.map_cons, List.map_cons, List.filter_cons, List.filter_cons, ih h]

theorem filter_set_sublist {p : α → Bool} {key : κ} {value : α} {entries : List (κ × α)} (h : p value = false) :
    (((set key value entries).map Prod.snd).filter p).Sublist ((entries.map Prod.snd).filter p) := by
  induction entries with
  | nil => simp [set, h]
  | cons entry rest ih =>
    rw [set]
    split
    · rw [List.map_cons, List.map_cons, List.filter_cons_of_neg (by simp [h])]
      exact (List.sublist_cons_self _ _).filter p
    · simp only [List.map_cons, List.filter_cons]
      split
      · exact ih.cons_cons _
      · exact ih

theorem get_delete_self (key : κ) (entries : List (κ × α)) : get key (delete key entries) = none := by
  induction entries with
  | nil => rfl
  | cons entry rest ih =>
    rw [delete, List.filter_cons]
    split
    next hOther => rw [get, if_neg (of_decide_eq_true hOther), ← delete, ih]
    next => exact ih

theorem mem_of_get {key : κ} {value : α} {entries : List (κ × α)} (h : get key entries = some value) :
    (key, value) ∈ entries := by
  induction entries with
  | nil => cases h
  | cons entry rest ih =>
    rw [get] at h
    split at h
    · rename_i hKey
      obtain rfl := Option.some.inj h
      rw [← hKey]
      exact List.mem_cons_self
    · exact List.mem_cons_of_mem _ (ih h)

theorem mem_set {key : κ} {value : α} {entries : List (κ × α)} {entry : κ × α} (h : entry ∈ set key value entries) :
    entry = (key, value) ∨ entry ∈ entries := by
  induction entries with
  | nil => exact .inl (List.mem_singleton.mp h)
  | cons first rest ih =>
    rw [set] at h
    split at h
    · exact (List.mem_cons.mp h).imp_right (List.mem_cons_of_mem _)
    · rcases List.mem_cons.mp h with rfl | hRest
      · exact .inr List.mem_cons_self
      · exact (ih hRest).imp_right (List.mem_cons_of_mem _)

theorem map_fst_set (key : κ) (value : α) (entries : List (κ × α)) :
    (set key value entries).map Prod.fst =
      if key ∈ entries.map Prod.fst then entries.map Prod.fst else entries.map Prod.fst ++ [key] := by
  induction entries with
  | nil => rfl
  | cons entry rest ih =>
    rw [set]
    by_cases hKey : entry.1 = key
    · rw [if_pos hKey, if_pos (by simp [hKey]), List.map_cons, List.map_cons, hKey]
    · rw [if_neg hKey, List.map_cons, List.map_cons, ih]
      by_cases hRest : key ∈ rest.map Prod.fst
      · rw [if_pos hRest, if_pos (List.mem_cons_of_mem _ hRest)]
      · rw [if_neg hRest, if_neg fun h => (List.mem_cons.mp h).elim (fun hSame => hKey hSame.symm) hRest]
        rfl

theorem nodup_set {key : κ} {value : α} {entries : List (κ × α)} (h : (entries.map Prod.fst).Nodup) :
    ((set key value entries).map Prod.fst).Nodup := by
  rw [map_fst_set]
  split
  · exact h
  · rename_i hNew
    refine List.nodup_append.mpr ⟨h, by simp, fun a ha b hb hSame => ?_⟩
    obtain rfl := List.mem_singleton.mp hb
    exact hNew (hSame ▸ ha)

theorem get_of_mem {key : κ} {value : α} {entries : List (κ × α)} (h : (entries.map Prod.fst).Nodup)
    (hMem : (key, value) ∈ entries) : get key entries = some value := by
  induction entries with
  | nil => cases hMem
  | cons entry rest ih =>
    rw [List.map_cons, List.nodup_cons] at h
    rw [get]
    rcases List.mem_cons.mp hMem with rfl | hRest
    · exact if_pos rfl
    · have hOther : entry.1 ≠ key := by
        rintro rfl
        exact h.1 (List.mem_map.mpr ⟨_, hRest, rfl⟩)
      rw [if_neg hOther, ih h.2 hRest]

end InsertionMap
end Library
