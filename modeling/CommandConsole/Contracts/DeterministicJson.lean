import CommandConsole.Library.JsonText

/-! # Deterministic JSON

The canonical text of a value, the value read back from it, its hash, and the serializer of the plan
normalization. They identify JSON values up to the order of keys, except where a key is "__proto__".
-/
namespace CommandConsole.Contracts
open Library Value
set_option autoImplicit false

def normalize : Value → Value
  | array items => array (items.map normalize)
  | object members => object (assignAll (sortKeys (members.map fun member => (member.1, normalize member.2))))
  | date iso => string iso
  | value => value
termination_by value => sizeOf value
decreasing_by
  · exact sizeOf_item ‹_›
  · exact sizeOf_member ‹_›

def toDeterministicJson (value : Value) : Option Text := stringify (normalize value)

def normalizeDeterministicValue (value : Value) : Option Value := (toDeterministicJson value).bind parse

def canonicalSerialize (value : Value) : Option Text := toDeterministicJson value

def hashPayloadDeterministically {Digest : Type} (sha256 : Text → Digest) (value : Value) : Option Digest :=
  (canonicalSerialize value).map sha256

/-- The properties assigned to the result in the order of `localeCompare`, if no item throws. -/
def assignSanitized (localeCompare : Text → Text → Int) (members : List (Text × Option Value)) : Option Members :=
  let ordered := members.insertionSort fun a b => localeCompare a.1 b.1 ≤ 0
  (ordered.mapM fun (member : Text × Option Value) => member.2.map fun item => (member.1, item)).map assignAll

/-- None where it throws PLAN_NORMALIZATION_NON_DETERMINISTIC. -/
def sanitize (localeCompare : Text → Text → Int) : Value → Option Value
  | undefined => some null
  | function => none
  | array items => ((items.map (sanitize localeCompare)).mapM id).map array
  | object members =>
    (assignSanitized localeCompare (members.map fun member => (member.1, sanitize localeCompare member.2))).map object
  | date _ => some (object [])
  | value => some value
termination_by value => sizeOf value
decreasing_by
  · exact sizeOf_item ‹_›
  · exact sizeOf_member ‹_›

def serializeDeterministically (localeCompare : Text → Text → Int) (value : Value) : Option Text :=
  (sanitize localeCompare value).bind canonicalSerialize

def lacksKey (key : Text) (value : Value) : Bool :=
  every (fun _ => true) (fun keys => keys.all fun other => decide (other ≠ key)) value

theorem normalize_array {items : List Value} : normalize (array items) = array (items.map normalize) := by
  rw [normalize]

theorem normalize_object {members : Members} : normalize (object members) =
    object (assignAll (sortKeys (members.map fun member => (member.1, normalize member.2)))) := by
  rw [normalize]

/-- On a JSON value, normalizing only sorts and assigns. -/
theorem normalize_json {value : Value} (h : isJson value) :
    normalize value = rebuild (fun members => assignAll (sortKeys members)) value := by
  induction value using Value.induction with
  | atom value hAtom =>
    obtain rfl | ⟨value, rfl⟩ | ⟨value, rfl⟩ | ⟨value, rfl⟩ := jsonAtom_cases hAtom h <;>
      rw [normalize, rebuild] <;> (intros; contradiction)
  | array items ih =>
    rw [normalize_array, rebuild_array, List.map_congr_left fun item hItem => ih item hItem (isJson_array.mp h item hItem)]
  | object members ih =>
    have hMembers : (members.map fun member => (member.1, normalize member.2)) =
        members.map fun member => (member.1, rebuild (fun members => assignAll (sortKeys members)) member.2) :=
      List.map_congr_left fun member hMember => by rw [ih member hMember ((isJson_object.mp h).2 member hMember)]
    rw [normalize_object, rebuild_object, hMembers]

theorem assigned_perm {members : Members} (h : (members.map Prod.fst).Nodup) :
    (assignAll (sortKeys members)).Perm (members.filter fun member => decide (member.1 ≠ protoKey)) := by
  have hSorted := ((sortKeys_perm members).map Prod.fst).nodup_iff.mpr h
  exact (assignAll_perm hSorted).trans ((sortKeys_perm members).filter _)

theorem isJson_normalize {value : Value} (h : isJson value) : isJson (normalize value) := by
  rw [normalize_json h]
  refine every_rebuild h fun members hKeys => ?_
  have hNodup := of_decide_eq_true hKeys
  have hPerm := assigned_perm hNodup
  refine ⟨decide_eq_true ((hPerm.map Prod.fst).nodup_iff.mpr (filter_nodup _ hNodup)), fun member hMember => ?_⟩
  exact (List.mem_filter.mp (hPerm.mem_iff.mp hMember)).1

theorem toDeterministicJson_json {value : Value} (h : isJson value) :
    toDeterministicJson value = some (text (normalize value)) :=
  stringify_json (isJson_normalize h)

theorem normalize_lacks {value : Value} (h : isJson value) :
    size (normalize value) ≤ size value ∧ (size (normalize value) = size value → lacksKey protoKey value) := by
  rw [normalize_json h]
  exact size_rebuild h fun members hKeys => assigned_perm (of_decide_eq_true hKeys)

theorem every_and {value : Value} {keys : List Text → Bool} (h : isJson value) (hKeys : every (fun _ => true) keys value) :
    every jsonAtom (fun names => decide names.Nodup && keys names) value := by
  induction value using Value.induction with
  | atom value hAtom =>
    rw [isJson, every_atom hAtom] at h
    rw [every_atom hAtom]
    exact h
  | array items ih =>
    exact every_array.mpr fun item hItem => ih item hItem (isJson_array.mp h item hItem) (every_array.mp hKeys item hItem)
  | object members ih =>
    obtain ⟨hNodup, hMembers⟩ := isJson_object.mp h
    obtain ⟨hNames, hItems⟩ := every_object.mp hKeys
    refine every_object.mpr ⟨?_, fun member hMember => ih member hMember (hMembers member hMember) (hItems member hMember)⟩
    rw [Bool.and_eq_true, decide_eq_true_eq]
    exact ⟨hNodup, hNames⟩

theorem same_normalize {value : Value} (h : isJson value) (hLacks : lacksKey protoKey value) :
    Same value (normalize value) := by
  rw [normalize_json h]
  refine same_rebuild (every_and h hLacks) fun members hKeys => ?_
  rw [Bool.and_eq_true, decide_eq_true_eq, List.all_map, List.all_eq_true] at hKeys
  have hAll := List.filter_eq_self.mpr hKeys.2
  exact (assigned_perm hKeys.1).trans (List.Perm.of_eq hAll)

theorem normalize_eq_of_same {u v : Value} (hu : isJson u) (h : Same u v) : normalize u = normalize v := by
  have hKeys (ks ls : List Text) (hPerm : ks.Perm ls) : decide ks.Nodup = true ↔ decide ls.Nodup = true := by
    rw [decide_eq_true_eq, decide_eq_true_eq, hPerm.nodup_iff]
  rw [normalize_json hu, normalize_json ((h.every_iff hKeys).mp hu)]
  refine rebuild_eq h hu hKeys fun members others hNodup hPerm => ?_
  exact assignAll_sortKeys_eq (of_decide_eq_true hNodup) (hPerm.filter _)

theorem mapM_some {α β γ : Type} {f : α → Option β} {g : β → γ} {target : α → γ} {items : List α}
    (h : ∀ item ∈ items, ∃ result, f item = some result ∧ g result = target item) :
    ∃ results, items.mapM f = some results ∧ results.map g = items.map target := by
  induction items with
  | nil => exact ⟨[], rfl, rfl⟩
  | cons head tail ih =>
    obtain ⟨hHead, hTail⟩ := List.forall_mem_cons.mp h
    obtain ⟨result, hResult, hTarget⟩ := hHead
    obtain ⟨results, hResults, hTargets⟩ := ih hTail
    refine ⟨result :: results, ?_, ?_⟩
    · rw [List.mapM_cons, hResult, hResults]
      rfl
    · rw [List.map_cons, List.map_cons, hTarget, hTargets]

theorem assignSanitized_some (localeCompare : Text → Text → Int) {pairs : List (Text × Option Value)}
    (h : ∀ pair ∈ pairs, ∃ item, pair.2 = some item) :
    ∃ members : Members, assignSanitized localeCompare pairs = some (assignAll members) ∧
      (members.map fun member => (member.1, some member.2)).Perm pairs := by
  have hPerm := List.perm_insertionSort (fun a b => localeCompare a.1 b.1 ≤ 0) pairs
  have hItems : ∀ pair ∈ pairs.insertionSort fun a b => localeCompare a.1 b.1 ≤ 0,
      ∃ member : Text × Value, (pair.2.map fun item => (pair.1, item)) = some member ∧
        (member.1, some member.2) = id pair := by
    intro pair hPair
    obtain ⟨item, hItem⟩ := h pair (hPerm.mem_iff.mp hPair)
    exact ⟨(pair.1, item), by rw [hItem]; rfl, by rw [← hItem]; rfl⟩
  obtain ⟨members, hMembers, hPairs⟩ := mapM_some hItems
  refine ⟨members, ?_, ?_⟩
  · rw [assignSanitized, hMembers]
    rfl
  · rw [hPairs, List.map_id]
    exact hPerm

/-- The sanitizer loses no more than normalizing does. -/
theorem sanitize_json (localeCompare : Text → Text → Int) {value : Value} (h : isJson value) :
    ∃ sanitized, sanitize localeCompare value = some sanitized ∧ normalize sanitized = normalize value := by
  induction value using Value.induction with
  | atom value hAtom =>
    obtain rfl | ⟨value, rfl⟩ | ⟨value, rfl⟩ | ⟨value, rfl⟩ := jsonAtom_cases hAtom h <;>
      exact ⟨_, by rw [sanitize] <;> nofun, rfl⟩
  | array items ih =>
    obtain ⟨results, hResults, hTargets⟩ := mapM_some fun item hItem => ih item hItem (isJson_array.mp h item hItem)
    refine ⟨array results, ?_, ?_⟩
    · rw [sanitize, List.mapM_map, Function.id_comp, hResults]
      rfl
    · rw [normalize_array, normalize_array, hTargets]
  | object members ih =>
    obtain ⟨hNodup, hMembers⟩ := isJson_object.mp h
    obtain ⟨results, hResults, hPairs⟩ : ∃ results : Members,
        assignSanitized localeCompare (members.map fun member => (member.1, sanitize localeCompare member.2)) =
          some (assignAll results) ∧
        (results.map fun member => (member.1, some member.2)).Perm
          (members.map fun member => (member.1, sanitize localeCompare member.2)) := by
      refine assignSanitized_some localeCompare (List.forall_mem_map.mpr fun member hMember => ?_)
      obtain ⟨item, hItem, -⟩ := ih member hMember (hMembers member hMember)
      exact ⟨item, hItem⟩
    refine ⟨object (assignAll results), ?_, ?_⟩
    · rw [sanitize, hResults]
      rfl
    · have hNormal : (results.map fun member => (member.1, normalize member.2)).Perm
          (members.map fun member => (member.1, normalize member.2)) := by
        have hMapped := hPairs.map fun pair => (pair.1, (pair.2.map normalize).getD null)
        rw [List.map_map, List.map_map] at hMapped
        refine hMapped.trans (List.Perm.of_eq (List.map_congr_left fun member hMember => ?_))
        obtain ⟨item, hItem, hSame⟩ := ih member hMember (hMembers member hMember)
        simp only [Function.comp_apply, hItem, Option.map_some, Option.getD_some, hSame]
      have hKeys : (results.map Prod.fst).Nodup := by
        have hMapped := hNormal.map Prod.fst
        rw [List.map_map, List.map_map] at hMapped
        exact hMapped.nodup_iff.mpr hNodup
      have hAssigned := (assignAll_perm hKeys).map fun member => (member.1, normalize member.2)
      rw [normalize_object, normalize_object]
      congr 1
      refine assignAll_sortKeys_eq ?_ ?_
      · have hFiltered := hAssigned.map Prod.fst
        rw [List.map_map (l := results.filter _)] at hFiltered
        exact hFiltered.nodup_iff.mpr (filter_nodup _ hKeys)
      · refine (hAssigned.filter _).trans (List.Perm.trans (List.Perm.of_eq ?_) (hNormal.filter _))
        rw [List.filter_map, List.filter_map, List.filter_filter]
        congr 1
        refine List.filter_congr fun member _ => ?_
        exact Bool.and_self _

theorem serializeDeterministically_json (localeCompare : Text → Text → Int) {value : Value} (h : isJson value) :
    serializeDeterministically localeCompare value = toDeterministicJson value := by
  obtain ⟨sanitized, hSome, hSame⟩ := sanitize_json localeCompare h
  rw [serializeDeterministically, hSome, Option.bind_some, canonicalSerialize, toDeterministicJson, hSame,
    toDeterministicJson]

theorem normalizeDeterministicValue_json {value : Value} (h : isJson value) :
    ∃ result, normalizeDeterministicValue value = some result ∧ Same (normalize value) result :=
  ⟨_, by rw [normalizeDeterministicValue, toDeterministicJson_json h, Option.bind_some,
    parse_text (isJson_normalize h)], rebuild_defineAll_same (isJson_normalize h)⟩

theorem same_of_deterministic {u v : Value} (hu : isJson u) (hv : isJson v) (hLacksU : lacksKey protoKey u)
    (hLacksV : lacksKey protoKey v) (h : toDeterministicJson u = toDeterministicJson v) : Same u v := by
  rw [toDeterministicJson_json hu, toDeterministicJson_json hv, Option.some_inj] at h
  have hNormal := same_of_text (isJson_normalize hu) (isJson_normalize hv) h
  exact ((same_normalize hu hLacksU).trans hNormal).trans (same_normalize hv hLacksV).symm

/-- The functions agree on a value and give it back. -/
structure Preserved (localeCompare : Text → Text → Int) (value : Value) : Prop where
  normalized : ∃ result, normalizeDeterministicValue value = some result ∧ Same value result
  serialized : serializeDeterministically localeCompare value = toDeterministicJson value

structure Identified {Digest : Type} (localeCompare : Text → Text → Int) (sha256 : Text → Digest) (u v : Value) :
    Prop where
  text_iff : toDeterministicJson u = toDeterministicJson v ↔ Same u v
  hash_same : hashPayloadDeterministically sha256 u = hashPayloadDeterministically sha256 v → Same u v
  left : Preserved localeCompare u
  right : Preserved localeCompare v

theorem preserved_iff {localeCompare : Text → Text → Int} {value : Value} (h : isJson value) :
    Preserved localeCompare value ↔ lacksKey protoKey value := by
  obtain ⟨result, hResult, hSame⟩ := normalizeDeterministicValue_json h
  constructor
  · rintro ⟨⟨other, hOther, hBack⟩, -⟩
    rw [hResult] at hOther
    obtain rfl := Option.some.inj hOther
    exact (normalize_lacks h).2 (hSame.size_eq.trans hBack.size_eq.symm)
  · intro hLacks
    exact ⟨⟨result, hResult, (same_normalize h hLacks).trans hSame⟩, serializeDeterministically_json localeCompare h⟩

def one : Value := number ⟨units "1", Numeral.accepts_one⟩

/-- A hash with its true value on one text. -/
def tabledSha256 (text : Text) : Text :=
  if text = units "\x7b\"a\":[true],\"b\":1\x7d" then units "708747538ba81fd60b5aac8c646370de5e24abf70ab1872f67458a5a4f3af05d" else 0x78 :: text

theorem tabledSha256_injective : Function.Injective tabledSha256 := by
  intro s t hSame
  unfold tabledSha256 at hSame
  split at hSame <;> split at hSame
  · rename_i hs ht
    rw [hs, ht]
  · exact absurd (List.cons.inj hSame).1 (by decide)
  · exact absurd (List.cons.inj hSame).1 (by decide)
  · exact (List.cons.inj hSame).2

end CommandConsole.Contracts
