import CommandConsole.Library.JsonValue

/-! # The own properties of an object

Properties are enumerated with the array indices first, in ascending order, and the other keys after
them in the order in which they were created. An assignment to the key "__proto__" changes the
prototype and creates no property.
-/
namespace Library
set_option autoImplicit false

namespace Value

abbrev Members := List (Text × Value)

def units (text : String) : Text := text.toList.map Char.toNat

theorem Numeral.accepts_one : Numeral.accepts (units "1") = true := by decide

/-- The number that a key stands for when it is an array index. -/
def arrayIndex? (key : Text) : Option Nat :=
  if key.all isDigit && key != [] && (key == [0x30] || key.head? != some 0x30) then
    let index := key.foldl (fun index unit => 10 * index + (unit - 0x30)) 0
    if index < 4294967295 then some index else none
  else none

/-- A new key is enumerated before this older one. -/
def overtakes (key older : Text) : Bool :=
  match arrayIndex? key, arrayIndex? older with
  | some index, some other => index < other
  | some _, none => true
  | none, _ => false

/-- The own property is created, or its value replaced. -/
def define (key : Text) (value : Value) : Members → Members
  | [] => [(key, value)]
  | (older, item) :: members =>
    if older = key then (key, value) :: members
    else if overtakes key older then (key, value) :: (older, item) :: members
    else (older, item) :: define key value members

def protoKey : Text := units "__proto__"

/-- `object[key] = value` on a plain object. -/
def assign (key : Text) (value : Value) (members : Members) : Members :=
  if key = protoKey then members else define key value members

/-- Properties created one after the other. -/
def defineAll (members : Members) : Members :=
  members.foldl (fun object member => define member.1 member.2 object) []

def assignAll (members : Members) : Members :=
  members.foldl (fun object member => assign member.1 member.2 object) []

/-- Ascending order of the keys' code units. -/
def sortKeys (members : Members) : Members := members.insertionSort fun a b => a.1 ≤ b.1

theorem sortKeys_perm (members : Members) : (sortKeys members).Perm members :=
  List.perm_insertionSort _ members

theorem sortKeys_sorted (members : Members) : (sortKeys members).Pairwise fun a b => a.1 ≤ b.1 := by
  have hTotal : Std.Total fun a b : Text × Value => a.1 ≤ b.1 := ⟨fun a b => le_total a.1 b.1⟩
  have hTrans : IsTrans (Text × Value) fun a b => a.1 ≤ b.1 := ⟨fun a b c hab hbc => le_trans hab hbc⟩
  exact List.pairwise_insertionSort _ members

theorem eq_of_key {members : Members} (h : (members.map Prod.fst).Nodup) {a b : Text × Value}
    (ha : a ∈ members) (hb : b ∈ members) (hKey : a.1 = b.1) : a = b :=
  List.inj_on_of_nodup_map h ha hb hKey

theorem eq_of_sorted {members others : Members} (h : (members.map Prod.fst).Nodup) (hPerm : members.Perm others)
    (hLeft : members.Pairwise fun a b => a.1 ≤ b.1) (hRight : others.Pairwise fun a b => a.1 ≤ b.1) :
    members = others :=
  hPerm.eq_of_pairwise (fun _ _ ha hb hab hba => eq_of_key h ha (hPerm.mem_iff.mpr hb) (le_antisymm hab hba))
    hLeft hRight

/-- A new key leaves the other properties as they are. -/
theorem define_perm {key : Text} {value : Value} {members : Members} (h : key ∉ members.map Prod.fst) :
    (define key value members).Perm ((key, value) :: members) := by
  induction members with
  | nil => exact List.Perm.refl _
  | cons head tail ih =>
    obtain ⟨older, item⟩ := head
    rw [List.map_cons, List.mem_cons, not_or] at h
    rw [define, if_neg fun hSame => h.1 hSame.symm]
    split
    · exact List.Perm.refl _
    · exact ((ih h.2).cons _).trans (List.Perm.swap _ _ _)

/-- A key that every older one comes before is enumerated last. -/
theorem define_last {key : Text} {value : Value} {members : Members}
    (h : ∀ older ∈ members.map Prod.fst, older ≠ key ∧ overtakes key older = false) :
    define key value members = members ++ [(key, value)] := by
  induction members with
  | nil => rfl
  | cons head tail ih =>
    obtain ⟨older, item⟩ := head
    rw [List.map_cons, List.forall_mem_cons] at h
    rw [define, if_neg h.1.1, if_neg (ne_of_eq_of_ne h.1.2 Bool.false_ne_true), ih h.2, List.cons_append]

theorem defineAll_perm {members : Members} (h : (members.map Prod.fst).Nodup) :
    (defineAll members).Perm members := by
  have hFold (rest object : Members) (hKeys : ((object ++ rest).map Prod.fst).Nodup) :
      (rest.foldl (fun object member => define member.1 member.2 object) object).Perm (object ++ rest) := by
    induction rest generalizing object with
    | nil =>
      rw [List.append_nil]
      exact List.Perm.refl _
    | cons head tail ih =>
      have hFresh : head.1 ∉ object.map Prod.fst := by
        rw [List.map_append, List.nodup_append] at hKeys
        exact fun hOld => hKeys.2.2 _ hOld _ List.mem_cons_self rfl
      have hMoved : (define head.1 head.2 object ++ tail).Perm (object ++ head :: tail) :=
        ((define_perm hFresh).append_right tail).trans List.perm_middle.symm
      rw [List.foldl_cons]
      exact (ih _ ((hMoved.map Prod.fst).nodup_iff.mpr hKeys)).trans hMoved
  exact hFold members [] h

theorem assignAll_eq (members : Members) :
    assignAll members = defineAll (members.filter fun member => member.1 ≠ protoKey) := by
  rw [assignAll, defineAll, List.foldl_filter]
  congr 1
  funext object member
  rw [assign]
  by_cases hProto : member.1 = protoKey
  · rw [if_pos hProto, if_neg (by simp [hProto])]
  · rw [if_neg hProto, if_pos (by simp [hProto])]

theorem filter_nodup {members : Members} (p : Text × Value → Bool) (h : (members.map Prod.fst).Nodup) :
    ((members.filter p).map Prod.fst).Nodup :=
  h.sublist (List.filter_sublist.map Prod.fst)

theorem assignAll_perm {members : Members} (h : (members.map Prod.fst).Nodup) :
    (assignAll members).Perm (members.filter fun member => member.1 ≠ protoKey) := by
  rw [assignAll_eq]
  exact defineAll_perm (filter_nodup _ h)

/-- Sorting before the assignment makes the order of the members immaterial. -/
theorem assignAll_sortKeys_eq {members others : Members} (h : (members.map Prod.fst).Nodup)
    (hPerm : (members.filter fun member => member.1 ≠ protoKey).Perm
      (others.filter fun member => member.1 ≠ protoKey)) :
    assignAll (sortKeys members) = assignAll (sortKeys others) := by
  rw [assignAll_eq, assignAll_eq]
  congr 1
  refine eq_of_sorted (filter_nodup _ (((sortKeys_perm members).map Prod.fst).nodup_iff.mpr h)) ?_
    ((sortKeys_sorted members).filter _) ((sortKeys_sorted others).filter _)
  exact ((sortKeys_perm members).filter _).trans (hPerm.trans ((sortKeys_perm others).filter _).symm)

/-- The order in which an engine enumerates the keys of an object. -/
def Enumerated (members : Members) : Prop :=
  (members.map Prod.fst).Pairwise fun older key => older ≠ key ∧ overtakes key older = false

theorem Enumerated.nodup {members : Members} (h : Enumerated members) : (members.map Prod.fst).Nodup :=
  h.imp And.left

theorem defineAll_eq {members : Members} (h : Enumerated members) : defineAll members = members := by
  have hFold (rest object : Members) (hKeys : Enumerated (object ++ rest)) :
      rest.foldl (fun object member => define member.1 member.2 object) object = object ++ rest := by
    induction rest generalizing object with
    | nil => rw [List.foldl_nil, List.append_nil]
    | cons head tail ih =>
      have hLast : ∀ older ∈ object.map Prod.fst, older ≠ head.1 ∧ overtakes head.1 older = false := by
        rw [Enumerated, List.map_append, List.pairwise_append] at hKeys
        exact fun older hOlder => hKeys.2.2 older hOlder head.1 List.mem_cons_self
      rw [List.foldl_cons, define_last hLast, ih, List.append_assoc]
      · rfl
      · rw [List.append_assoc]
        exact hKeys
  exact hFold members [] h

end Value
end Library
