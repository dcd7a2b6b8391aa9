import CommandConsole.Library.JsonText

/-! # Writing values as JSON and reading them back

`JSON.stringify` drops what JSON cannot say; `JSON.parse` returns the rest.
-/
namespace Library
set_option autoImplicit false

namespace Value

/-- No object of the tree has a key twice. -/
def distinctKeys (value : Value) : Bool := every (fun _ => true) (fun keys => decide keys.Nodup) value

/-- What is left of a value in its JSON text; none where there is no text. -/
def kept : Value → Option Value
  | undefined => none
  | function => none
  | null => some null
  | bool value => some (bool value)
  | notFinite => some null
  | number value => some (number value)
  | string value => some (string value)
  | date iso => some (string iso)
  | array items => some (array ((items.map kept).map fun item => item.getD null))
  | object members => some (object ((members.map fun member => (member.1, kept member.2)).filterMap
      fun member => member.2.map fun item => (member.1, item)))
termination_by value => sizeOf value
decreasing_by
  · exact sizeOf_item ‹_›
  · exact sizeOf_member ‹_›

theorem kept_array {items : List Value} :
    kept (array items) = some (array (items.map fun item => (kept item).getD null)) := by
  rw [kept, List.map_map]
  rfl

theorem kept_object {members : Members} : kept (object members) =
    some (object (members.filterMap fun member => (kept member.2).map fun item => (member.1, item))) := by
  rw [kept, List.filterMap_map]
  rfl

theorem isJson_null : isJson null = true := by
  rw [isJson, every_atom rfl]
  rfl

theorem keys_kept (members : Members) :
    ((members.filterMap fun member => (kept member.2).map fun item => (member.1, item)).map Prod.fst).Sublist
      (members.map Prod.fst) := by
  induction members with
  | nil => exact .slnil
  | cons member rest ih =>
    rw [List.filterMap_cons]
    cases kept member.2 with
    | none => exact ih.cons _
    | some item => exact ih.cons_cons _

theorem isJson_kept {value left : Value} (h : distinctKeys value) (hKept : kept value = some left) : isJson left := by
  induction value using Value.induction generalizing left with
  | atom value hAtom =>
    cases value <;> rw [kept] at hKept <;> cases hKept <;> first | (rw [isJson, every_atom rfl]; rfl) | cases hAtom
  | array items ih =>
    rw [kept_array, Option.some_inj] at hKept
    subst hKept
    rw [isJson_array, List.forall_mem_map]
    intro item hItem
    cases hLeft : kept item with
    | none => exact isJson_null
    | some left => exact ih item hItem (every_array.mp h item hItem) hLeft
  | object members ih =>
    rw [kept_object, Option.some_inj] at hKept
    subst hKept
    obtain ⟨hKeys, hMembers⟩ := every_object.mp h
    refine isJson_object.mpr ⟨(keys_kept members).nodup (of_decide_eq_true hKeys), ?_⟩
    intro member hMember
    obtain ⟨older, hOlder, hSome⟩ := List.mem_filterMap.mp hMember
    obtain ⟨left, hLeft, rfl⟩ := Option.map_eq_some_iff.mp hSome
    exact ih older hOlder (hMembers older hOlder) hLeft

theorem stringify_eq {value : Value} (h : distinctKeys value) : stringify value = (kept value).map text := by
  induction value using Value.induction with
  | atom value hAtom =>
    cases value with
    | array items => cases hAtom
    | object members => cases hAtom
    | null => rw [kept, stringify, Option.map_some, text_null]
    | notFinite => rw [kept, stringify, Option.map_some, text_null]
    | bool value => rw [kept, stringify, Option.map_some, text_bool]
    | number value => rw [kept, stringify, Option.map_some, text_number]
    | string value => rw [kept, stringify, Option.map_some, text_string]
    | date iso => rw [kept, stringify, Option.map_some, text_string]
    | undefined => rw [kept, stringify, Option.map_none]
    | function => rw [kept, stringify, Option.map_none]
  | array items ih =>
    rw [kept_array, Option.map_some, text_array, stringify_array, List.map_map]
    congr 2
    refine List.map_congr_left fun item hItem => ?_
    rw [text, ih item hItem (every_array.mp h item hItem), Function.comp_apply]
    cases kept item with
    | none => rw [Option.map_none, Option.getD_none, Option.getD_none, text_null]
    | some left => rfl
  | object members ih =>
    obtain ⟨hKeys, hMembers⟩ := every_object.mp h
    rw [kept_object, Option.map_some, stringify_object, text_object, List.map_filterMap]
    · congr 2
      refine List.filterMap_congr fun member hMember => ?_
      rw [ih member hMember (hMembers member hMember), Option.map_map, Option.map_map]
      rfl
    · intro member hMember
      obtain ⟨older, hOlder, hSome⟩ := List.mem_filterMap.mp hMember
      obtain ⟨left, hLeft, rfl⟩ := Option.map_eq_some_iff.mp hSome
      exact isJson_kept (hMembers older hOlder) hLeft

theorem distinctKeys_of_isJson {value : Value} (h : isJson value) : distinctKeys value := by
  induction value using Value.induction with
  | atom value hAtom => exact every_atom hAtom
  | array items ih => exact every_array.mpr fun item hItem => ih item hItem (isJson_array.mp h item hItem)
  | object members ih =>
    obtain ⟨hKeys, hMembers⟩ := isJson_object.mp h
    exact every_object.mpr ⟨decide_eq_true hKeys, fun member hMember => ih member hMember (hMembers member hMember)⟩

theorem distinctKeys_rebuild {value : Value} (h : isJson value) : distinctKeys (rebuild defineAll value) := by
  refine ((rebuild_defineAll_same h).every_iff fun ks ls hPerm => ?_).mp (distinctKeys_of_isJson h)
  rw [decide_eq_true_eq, decide_eq_true_eq, hPerm.nodup_iff]

/-- `JSON.parse(JSON.stringify(value))`. -/
theorem readBack {value : Value} (h : distinctKeys value) :
    (stringify value).bind parse = (kept value).map (rebuild defineAll) := by
  rw [stringify_eq h]
  cases hKept : kept value with
  | none => rfl
  | some left => rw [Option.map_some, Option.bind_some, parse_text (isJson_kept h hKept), Option.map_some]

end Value
end Library
