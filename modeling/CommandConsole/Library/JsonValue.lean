import Mathlib.Data.List.Lex
import Mathlib.Data.List.Sort
import Mathlib.Algebra.GroupWithZero.Nat

/-! # JavaScript values and their JSON part

A value is a tree of arrays and objects; an object lists its own properties in the order in which
they are enumerated. Two values are the same when they differ in the order of object keys only.
-/
namespace Library
set_option autoImplicit false

/-- The UTF-16 code units of a string. -/
abbrev Text := List Nat

instance : LawfulBEq Text := inferInstance

def isDigit (unit : Nat) : Bool := 0x30 ≤ unit && unit ≤ 0x39

namespace Numeral

def isUnit (unit : Nat) : Bool :=
  isDigit unit || unit == 0x2B || unit == 0x2D || unit == 0x2E || unit == 0x45 || unit == 0x65

def afterDigits : Text → Option Text
  | unit :: rest => if isDigit unit then some (rest.dropWhile isDigit) else none
  | [] => none

def afterSign : Text → Text
  | 0x2D :: rest => rest
  | text => text

def afterInteger : Text → Option Text
  | 0x30 :: rest => some rest
  | text => afterDigits text

def afterFraction : Text → Option Text
  | 0x2E :: rest => afterDigits rest
  | text => some text

def afterExponent : Text → Option Text
  | unit :: rest =>
    if unit == 0x45 || unit == 0x65 then
      match rest with
      | 0x2B :: digits => afterDigits digits
      | 0x2D :: digits => afterDigits digits
      | digits => afterDigits digits
    else some (unit :: rest)
  | [] => some []

/-- The numbers of the JSON grammar. -/
def accepts (text : Text) : Bool :=
  text.all isUnit &&
    (((afterInteger (afterSign text)).bind afterFraction).bind afterExponent) == some []

end Numeral

/-- A finite number, as it is printed; zero and negative zero are printed alike. -/
structure Numeral where
  text : Text
  valid : Numeral.accepts text = true
  deriving DecidableEq

theorem Numeral.text_ne_nil (numeral : Numeral) : numeral.text ≠ [] := by
  intro hNil
  have hValid := numeral.valid
  rw [hNil] at hValid
  exact absurd hValid (by decide)

inductive Value where
  | undefined
  | function
  | null
  | bool (value : Bool)
  | notFinite
  | number (value : Numeral)
  | string (value : Text)
  | date (iso : Text)
  | array (items : List Value)
  | object (members : List (Text × Value))

namespace Value

def isAtom : Value → Bool
  | array _ => false
  | object _ => false
  | _ => true

@[elab_as_elim]
theorem induction {P : Value → Prop} (value : Value) (atom : ∀ value, value.isAtom → P value)
    (array : ∀ items, (∀ item ∈ items, P item) → P (array items))
    (object : ∀ members, (∀ member ∈ members, P member.2) → P (object members)) : P value := by
  refine Value.rec (motive_1 := P) (motive_2 := fun items => ∀ item ∈ items, P item)
    (motive_3 := fun members => ∀ member ∈ members, P member.2) (motive_4 := fun member => P member.2)
    (atom _ rfl) (atom _ rfl) (atom _ rfl) (fun _ => atom _ rfl) (atom _ rfl) (fun _ => atom _ rfl)
    (fun _ => atom _ rfl) (fun _ => atom _ rfl) array object ?_ ?_ ?_ ?_ ?_ value
  · exact fun _ h => absurd h List.not_mem_nil
  · exact fun _ _ hHead hTail => List.forall_mem_cons.mpr ⟨hHead, hTail⟩
  · exact fun _ h => absurd h List.not_mem_nil
  · exact fun _ _ hHead hTail => List.forall_mem_cons.mpr ⟨hHead, hTail⟩
  · exact fun _ _ h => h

theorem sizeOf_item {items : List Value} {item : Value} (h : item ∈ items) : sizeOf item < sizeOf (array items) := by
  have hItem := List.sizeOf_lt_of_mem h
  rw [array.sizeOf_spec]
  omega

theorem sizeOf_member {members : List (Text × Value)} {member : Text × Value} (h : member ∈ members) :
    sizeOf member.2 < sizeOf (object members) := by
  have hMember := List.sizeOf_lt_of_mem h
  have hPair : sizeOf member = 1 + sizeOf member.1 + sizeOf member.2 := rfl
  rw [object.sizeOf_spec]
  omega

/-- Every value in the tree that is no array and no object passes the one test, the keys of every
object the other. -/
def every (atom : Value → Bool) (keys : List Text → Bool) : Value → Bool
  | array items => (items.map (every atom keys)).all id
  | object members => keys (members.map Prod.fst) && (members.map fun member => every atom keys member.2).all id
  | value => atom value
termination_by value => sizeOf value
decreasing_by
  · exact sizeOf_item ‹_›
  · exact sizeOf_member ‹_›

/-- Every object, from the inside out, gets the members that the function makes of its own. -/
def rebuild (f : List (Text × Value) → List (Text × Value)) : Value → Value
  | array items => array (items.map (rebuild f))
  | object members => object (f (members.map fun member => (member.1, rebuild f member.2)))
  | value => value
termination_by value => sizeOf value
decreasing_by
  · exact sizeOf_item ‹_›
  · exact sizeOf_member ‹_›

def jsonAtom : Value → Bool
  | null => true
  | bool _ => true
  | number _ => true
  | string _ => true
  | _ => false

/-- A value that `JSON.parse` can return, its properties in any order. -/
def isJson (value : Value) : Bool := every jsonAtom (fun keys => decide keys.Nodup) value

def size : Value → Nat
  | array items => 1 + (items.map size).sum
  | object members => 1 + (members.map fun member => 1 + size member.2).sum
  | _ => 1
termination_by value => sizeOf value
decreasing_by
  · exact sizeOf_item ‹_›
  · exact sizeOf_member ‹_›

section Every

variable {atom : Value → Bool} {keys : List Text → Bool}

theorem every_array {items : List Value} :
    every atom keys (array items) ↔ ∀ item ∈ items, every atom keys item := by
  rw [every, List.all_map, List.all_eq_true]
  rfl

theorem every_object {members : List (Text × Value)} :
    every atom keys (object members) ↔
      keys (members.map Prod.fst) ∧ ∀ member ∈ members, every atom keys member.2 := by
  rw [every, List.all_map, Bool.and_eq_true, List.all_eq_true]
  rfl

theorem every_atom {value : Value} (h : value.isAtom) : every atom keys value = atom value := by
  cases value with
  | array items => cases h
  | object members => cases h
  | _ => rw [every] <;> nofun

theorem isJson_array {items : List Value} : isJson (array items) ↔ ∀ item ∈ items, isJson item := every_array

theorem isJson_object {members : List (Text × Value)} :
    isJson (object members) ↔ (members.map Prod.fst).Nodup ∧ ∀ member ∈ members, isJson member.2 := by
  rw [isJson, every_object, decide_eq_true_eq]
  rfl

end Every

section Rebuild

variable {f : List (Text × Value) → List (Text × Value)}

theorem rebuild_array {items : List Value} : rebuild f (array items) = array (items.map (rebuild f)) := by
  rw [rebuild]

theorem rebuild_object {members : List (Text × Value)} :
    rebuild f (object members) = object (f (members.map fun member => (member.1, rebuild f member.2))) := by
  rw [rebuild]

theorem rebuild_atom {value : Value} (h : value.isAtom) : rebuild f value = value := by
  cases value with
  | array items => cases h
  | object members => cases h
  | _ => rw [rebuild] <;> nofun

theorem rebuild_keys (members : List (Text × Value)) :
    (members.map fun member => (member.1, rebuild f member.2)).map Prod.fst = members.map Prod.fst := by
  rw [List.map_map]
  rfl

end Rebuild

theorem size_array {items : List Value} : size (array items) = 1 + (items.map size).sum := by
  rw [size]

theorem size_object {members : List (Text × Value)} :
    size (object members) = 1 + (members.map fun member => 1 + size member.2).sum := by
  rw [size]

/-- Equal up to the order of object keys, at any depth. -/
inductive Same : Value → Value → Prop where
  | refl (value : Value) : Same value value
  | trans {u v w : Value} : Same u v → Same v w → Same u w
  | item (before after : List Value) {u v : Value} :
      Same u v → Same (array (before ++ u :: after)) (array (before ++ v :: after))
  | member (before after : List (Text × Value)) (key : Text) {u v : Value} :
      Same u v → Same (object (before ++ (key, u) :: after)) (object (before ++ (key, v) :: after))
  | order {members others : List (Text × Value)} : members.Perm others → Same (object members) (object others)

namespace Same

theorem symm {u v : Value} (h : Same u v) : Same v u := by
  induction h with
  | refl value => exact refl value
  | trans _ _ ihLeft ihRight => exact trans ihRight ihLeft
  | item before after _ ih => exact item before after ih
  | member before after key _ ih => exact member before after key ih
  | order hPerm => exact order hPerm.symm

theorem array_map {f : Value → Value} {items : List Value} (h : ∀ item ∈ items, Same item (f item)) :
    Same (Value.array items) (Value.array (items.map f)) := by
  have hPrefix (before : List Value) : Same (Value.array (before ++ items)) (Value.array (before ++ items.map f)) := by
    induction items generalizing before with
    | nil => exact refl _
    | cons head tail ih =>
      obtain ⟨hHead, hTail⟩ := List.forall_mem_cons.mp h
      have hRest := ih hTail (before ++ [f head])
      rw [List.append_assoc, List.append_assoc] at hRest
      exact trans (item before tail hHead) hRest
  exact hPrefix []

theorem object_map {f : Value → Value} {members : List (Text × Value)}
    (h : ∀ member ∈ members, Same member.2 (f member.2)) :
    Same (Value.object members) (Value.object (members.map fun member => (member.1, f member.2))) := by
  have hPrefix (before : List (Text × Value)) : Same (Value.object (before ++ members))
      (Value.object (before ++ members.map fun member => (member.1, f member.2))) := by
    induction members generalizing before with
    | nil => exact refl _
    | cons head tail ih =>
      obtain ⟨hHead, hTail⟩ := List.forall_mem_cons.mp h
      have hRest := ih hTail (before ++ [(head.1, f head.2)])
      rw [List.append_assoc, List.append_assoc] at hRest
      exact trans (member before tail head.1 hHead) hRest
  exact hPrefix []

theorem array_of_forall₂ {items others : List Value} (h : List.Forall₂ Same items others) :
    Same (Value.array items) (Value.array others) := by
  have hPrefix (before : List Value) : Same (Value.array (before ++ items)) (Value.array (before ++ others)) := by
    induction h generalizing before with
    | nil => exact refl _
    | @cons head other tail rest hHead _ ih =>
      have hRest := ih (before ++ [other])
      rw [List.append_assoc, List.append_assoc] at hRest
      exact trans (item before tail hHead) hRest
  exact hPrefix []

theorem object_of_forall₂ {members others : List (Text × Value)}
    (h : List.Forall₂ (fun a b => a.1 = b.1 ∧ Same a.2 b.2) members others) :
    Same (Value.object members) (Value.object others) := by
  have hPrefix (before : List (Text × Value)) :
      Same (Value.object (before ++ members)) (Value.object (before ++ others)) := by
    induction h generalizing before with
    | nil => exact refl _
    | @cons head other tail rest hHead _ ih =>
      obtain ⟨key, u⟩ := head
      obtain ⟨key', v⟩ := other
      obtain ⟨hKey, hValue⟩ := hHead
      obtain rfl : key = key' := hKey
      have hRest := ih (before ++ [(key, v)])
      rw [List.append_assoc, List.append_assoc] at hRest
      exact trans (member before tail key hValue) hRest
  exact hPrefix []

theorem size_eq {u v : Value} (h : Same u v) : u.size = v.size := by
  induction h with
  | refl value => rfl
  | trans _ _ ihLeft ihRight => exact ihLeft.trans ihRight
  | item before after _ ih =>
    simp only [size_array, List.map_append, List.map_cons, ih]
  | member before after key _ ih =>
    simp only [size_object, List.map_append, List.map_cons, ih]
  | order hPerm => rw [size_object, size_object, (hPerm.map _).sum_nat]

/-- A test of the keys that does not look at their order. -/
theorem every_iff {atom : Value → Bool} {keys : List Text → Bool} {u v : Value} (h : Same u v)
    (hKeys : ∀ ks ls : List Text, ks.Perm ls → (keys ks ↔ keys ls)) : every atom keys u ↔ every atom keys v := by
  induction h with
  | refl value => rfl
  | trans _ _ ihLeft ihRight => exact ihLeft.trans ihRight
  | item before after _ ih =>
    simp only [every_array, List.forall_mem_append, List.forall_mem_cons, ih]
  | member before after key _ ih =>
    simp only [every_object, List.forall_mem_append, List.forall_mem_cons, ih, List.map_append, List.map_cons]
  | order hPerm =>
    simp only [every_object, hKeys _ _ (hPerm.map _), hPerm.mem_iff]

end Same

theorem sum_rebuilt {α : Type} (f g : α → Nat) (items : List α) (h : ∀ item ∈ items, f item ≤ g item) :
    (items.map f).sum ≤ (items.map g).sum ∧
      ((items.map f).sum = (items.map g).sum → ∀ item ∈ items, f item = g item) := by
  induction items with
  | nil => exact ⟨le_refl _, fun _ => nofun⟩
  | cons head tail ih =>
    obtain ⟨hHead, hTail⟩ := List.forall_mem_cons.mp h
    obtain ⟨hLe, hEq⟩ := ih hTail
    simp only [List.map_cons, List.sum_cons, List.forall_mem_cons]
    exact ⟨Nat.add_le_add hHead hLe, fun hSum => ⟨by omega, hEq (by omega)⟩⟩

theorem sum_filter {α : Type} (f : α → Nat) (p : α → Bool) (items : List α) (h : ∀ item, 1 ≤ f item) :
    ((items.filter p).map f).sum + (items.filter fun item => !p item).length ≤ (items.map f).sum := by
  induction items with
  | nil => exact le_refl _
  | cons head tail ih =>
    have hHead := h head
    rw [List.filter_cons, List.filter_cons]
    cases p head <;> simp <;> omega

section Rebuilt

variable {atom : Value → Bool} {keys : List Text → Bool} {f : List (Text × Value) → List (Text × Value)}

theorem same_rebuild {value : Value} (h : every atom keys value)
    (hf : ∀ members : List (Text × Value), keys (members.map Prod.fst) → (f members).Perm members) :
    Same value (rebuild f value) := by
  induction value using Value.induction with
  | atom value hAtom =>
    rw [rebuild_atom hAtom]
    exact Same.refl value
  | array items ih =>
    rw [rebuild_array]
    exact Same.array_map fun item hItem => ih item hItem (every_array.mp h item hItem)
  | object members ih =>
    obtain ⟨hKeys, hMembers⟩ := every_object.mp h
    rw [rebuild_object]
    refine Same.trans (Same.object_map fun member hMember => ih member hMember (hMembers member hMember))
      (Same.order (hf _ ?_).symm)
    rw [rebuild_keys]
    exact hKeys

theorem rebuild_eq {u v : Value} (hSame : Same u v) (h : every atom keys u)
    (hKeys : ∀ ks ls : List Text, ks.Perm ls → (keys ks ↔ keys ls))
    (hf : ∀ members others : List (Text × Value), keys (members.map Prod.fst) → members.Perm others →
      f members = f others) : rebuild f u = rebuild f v := by
  induction hSame with
  | refl value => rfl
  | trans hLeft _ ihLeft ihRight => exact (ihLeft h).trans (ihRight ((hLeft.every_iff hKeys).mp h))
  | item before after _ ih =>
    simp only [every_array, List.forall_mem_append, List.forall_mem_cons] at h
    simp only [rebuild_array, List.map_append, List.map_cons, ih h.2.1]
  | member before after key _ ih =>
    simp only [every_object, List.forall_mem_append, List.forall_mem_cons] at h
    simp only [rebuild_object, List.map_append, List.map_cons, ih h.2.2.1]
  | order hPerm =>
    rw [rebuild_object, rebuild_object, hf _ _ _ (hPerm.map _)]
    rw [rebuild_keys]
    exact (every_object.mp h).1

theorem every_rebuild {others : List Text → Bool} {value : Value} (h : every atom keys value)
    (hf : ∀ members : List (Text × Value), keys (members.map Prod.fst) →
      others ((f members).map Prod.fst) ∧ f members ⊆ members) : every atom others (rebuild f value) := by
  induction value using Value.induction with
  | atom value hAtom =>
    rw [rebuild_atom hAtom, every_atom hAtom]
    rw [every_atom hAtom] at h
    exact h
  | array items ih =>
    rw [rebuild_array, every_array, List.forall_mem_map]
    exact fun item hItem => ih item hItem (every_array.mp h item hItem)
  | object members ih =>
    obtain ⟨hKeys, hMembers⟩ := every_object.mp h
    obtain ⟨hOthers, hSubset⟩ := hf (members.map fun member => (member.1, rebuild f member.2)) (by
      rw [rebuild_keys]
      exact hKeys)
    rw [rebuild_object, every_object]
    refine ⟨hOthers, fun member hMember => ?_⟩
    obtain ⟨older, hOlder, rfl⟩ := List.mem_map.mp (hSubset hMember)
    exact ih older hOlder (hMembers older hOlder)

/-- Rebuilding that only drops members makes a value smaller, unless there is nothing to drop. -/
theorem size_rebuild {p : Text → Bool} {value : Value} (h : every atom keys value)
    (hf : ∀ members : List (Text × Value), keys (members.map Prod.fst) →
      (f members).Perm (members.filter fun member => p member.1)) :
    size (rebuild f value) ≤ size value ∧
      (size (rebuild f value) = size value → every (fun _ => true) (fun keys => keys.all p) value) := by
  induction value using Value.induction with
  | atom value hAtom =>
    rw [rebuild_atom hAtom, every_atom hAtom]
    exact ⟨le_refl _, fun _ => rfl⟩
  | array items ih =>
    obtain ⟨hLe, hEq⟩ := sum_rebuilt (fun item => size (rebuild f item)) size items
      fun item hItem => (ih item hItem (every_array.mp h item hItem)).1
    rw [rebuild_array, size_array, size_array, List.map_map]
    refine ⟨Nat.add_le_add_left hLe 1, fun hSize => every_array.mpr fun item hItem => ?_⟩
    exact (ih item hItem (every_array.mp h item hItem)).2 (hEq (Nat.add_left_cancel hSize) item hItem)
  | object members ih =>
    obtain ⟨hKeys, hMembers⟩ := every_object.mp h
    obtain ⟨hLe, hEq⟩ := sum_rebuilt (fun member => 1 + size (rebuild f member.2)) (fun member => 1 + size member.2)
      members fun member hMember => Nat.add_le_add_left (ih member hMember (hMembers member hMember)).1 1
    have hPerm := hf (members.map fun member => (member.1, rebuild f member.2)) (by
      rw [rebuild_keys]
      exact hKeys)
    have hDropped := sum_filter (fun member => 1 + size member.2) (fun member => p member.1)
      (members.map fun member => (member.1, rebuild f member.2)) fun member => Nat.le_add_right 1 _
    rw [List.map_map] at hDropped
    rw [rebuild_object, size_object, size_object, (hPerm.map _).sum_nat]
    refine ⟨Nat.add_le_add_left ((Nat.le_of_add_right_le hDropped).trans hLe) 1, fun hSize => ?_⟩
    have hSum := Nat.add_left_cancel hSize
    have hNone : (members.map fun member => (member.1, rebuild f member.2)).filter (fun member => !p member.1) = [] :=
      List.eq_nil_of_length_eq_zero (by
        simp only [Function.comp_def] at hDropped
        omega)
    have hSame := hEq (by
      simp only [Function.comp_def] at hDropped
      omega)
    rw [List.filter_eq_nil_iff, List.forall_mem_map] at hNone
    refine every_object.mpr ⟨List.all_eq_true.mpr (List.forall_mem_map.mpr fun member hMember => ?_),
      fun member hMember => (ih member hMember (hMembers member hMember)).2 ?_⟩
    · simpa using hNone member hMember
    · exact Nat.add_left_cancel (hSame member hMember)

end Rebuilt

end Value
end Library
