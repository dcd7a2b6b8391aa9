import CommandConsole.Audit.EvidenceHashing

/-! # Canonical records

Records are canonicalized before they are hashed: strings are composed, undefined becomes null
and the keys are sorted. The canonical text of a record is read back as a value that has the
same canonical text.
-/
namespace CommandConsole.Proposals
open Library Value Audit
set_option autoImplicit false

/-- What the records use of the language: `localeCompare`, `normalize("NFC")` and SHA-256 in hex. -/
structure Platform where
  localeCompare : Text → Text → Int
  nfc : Text → Text
  sha256 : Text → Text
  total : ∀ a b, localeCompare a b ≤ 0 ∨ localeCompare b a ≤ 0
  transitive : ∀ a b c, localeCompare a b ≤ 0 → localeCompare b c ≤ 0 → localeCompare a c ≤ 0
  nfc_nfc : ∀ text, nfc (nfc text) = nfc text

section Canonicalizer

variable (platform : Platform)

/-- The records hold no functions, which are the values where it throws. -/
def canonicalizeRecommendationValue : Value → Value
  | undefined => null
  | string text => string (platform.nfc text)
  | array items => array (items.map canonicalizeRecommendationValue)
  | object members => object (defineAll (sortLocale platform.localeCompare
      (members.map fun member => (member.1, canonicalizeRecommendationValue member.2))))
  | date _ => object []
  | value => value
termination_by value => sizeOf value
decreasing_by
  · exact sizeOf_item ‹_›
  · exact sizeOf_member ‹_›

def canonicalizeRecommendationToString (value : Value) : Text :=
  text (canonicalizeRecommendationValue platform value)

def hashRecommendationValue (scope : Text) (value : Value) : Text :=
  platform.sha256 (scope ++ 0x3A :: canonicalizeRecommendationToString platform value)

end Canonicalizer

section Stability

/-- A record: JSON, but that undefined may stand anywhere, and no key is an array index. -/
def recordAtom : Value → Bool
  | undefined => true
  | value => jsonAtom value

def isRecord (value : Value) : Bool :=
  every recordAtom (fun keys => decide keys.Nodup && keys.all fun key => decide (arrayIndex? key = none)) value

theorem enumerated_of_names {members : Members} (hDistinct : (members.map Prod.fst).Nodup)
    (hNames : ∀ key ∈ members.map Prod.fst, arrayIndex? key = none) : Enumerated members := by
  refine hDistinct.imp_of_mem fun {older key} _ hKey hNe => ⟨hNe, ?_⟩
  rw [overtakes, hNames key hKey]

variable (platform : Platform)

theorem canonicalize_array (items : List Value) : canonicalizeRecommendationValue platform (array items) =
    array (items.map (canonicalizeRecommendationValue platform)) := by
  rw [canonicalizeRecommendationValue]

theorem canonicalize_object (members : Members) : canonicalizeRecommendationValue platform (object members) =
    object (defineAll (sortLocale platform.localeCompare
      (members.map fun member => (member.1, canonicalizeRecommendationValue platform member.2)))) := by
  rw [canonicalizeRecommendationValue]

theorem sortLocale_sorted {α : Type} (members : List (Text × α)) :
    (sortLocale platform.localeCompare members).Pairwise fun a b => platform.localeCompare a.1 b.1 ≤ 0 := by
  have hTotal : Std.Total fun a b : Text × α => platform.localeCompare a.1 b.1 ≤ 0 :=
    ⟨fun a b => platform.total a.1 b.1⟩
  have hTrans : IsTrans (Text × α) fun a b => platform.localeCompare a.1 b.1 ≤ 0 :=
    ⟨fun a b c => platform.transitive a.1 b.1 c.1⟩
  exact List.pairwise_insertionSort _ members

theorem sortLocale_idem {α : Type} {members : List (Text × α)}
    (h : members.Pairwise fun a b => platform.localeCompare a.1 b.1 ≤ 0) :
    sortLocale platform.localeCompare members = members := h.insertionSort_eq

/-- A value that its own canonical text gives back, and that is canonical. -/
structure Steady (value : Value) : Prop where
  json : isJson value = true
  built : rebuild defineAll value = value
  canonical : canonicalizeRecommendationValue platform value = value

theorem steady_atom {value : Value} (hAtom : value.isAtom) (hJson : jsonAtom value)
    (hCanonical : canonicalizeRecommendationValue platform value = value) : Steady platform value :=
  ⟨by rw [isJson, every_atom hAtom, hJson], rebuild_atom hAtom, hCanonical⟩

theorem canonicalize_plain {value : Value} (hAtom : value.isAtom) (hJson : jsonAtom value)
    (hString : ∀ text, value ≠ string text) : canonicalizeRecommendationValue platform value = value := by
  cases value with
  | array items => cases hAtom
  | object members => cases hAtom
  | undefined => cases hJson
  | date iso => cases hJson
  | string text => exact absurd rfl (hString text)
  | _ => rw [canonicalizeRecommendationValue] <;> nofun

theorem steady_canonicalize {value : Value} (h : isRecord value) :
    Steady platform (canonicalizeRecommendationValue platform value) := by
  induction value using Value.induction with
  | atom value hAtom =>
    rw [isRecord, every_atom hAtom] at h
    cases value with
    | array items => cases hAtom
    | object members => cases hAtom
    | undefined =>
      rw [canonicalizeRecommendationValue]
      exact steady_atom platform rfl rfl (canonicalize_plain platform rfl rfl fun _ hText => Value.noConfusion hText)
    | string text =>
      rw [canonicalizeRecommendationValue]
      exact steady_atom platform rfl rfl (by rw [canonicalizeRecommendationValue, platform.nfc_nfc])
    | null | bool truth | number numeral =>
      have hSame := canonicalize_plain platform hAtom h fun _ hText => Value.noConfusion hText
      rw [hSame]
      exact steady_atom platform rfl rfl hSame
    | _ => cases h
  | array items ih =>
    have hItems := every_array.mp h
    rw [canonicalize_array]
    refine ⟨isJson_array.mpr ?_, ?_, ?_⟩
    · rw [List.forall_mem_map]
      exact fun item hItem => (ih item hItem (hItems item hItem)).json
    · rw [rebuild_array, List.map_map]
      congr 1
      exact List.map_congr_left fun item hItem => (ih item hItem (hItems item hItem)).built
    · rw [canonicalize_array, List.map_map]
      congr 1
      exact List.map_congr_left fun item hItem => (ih item hItem (hItems item hItem)).canonical
  | object members ih =>
    obtain ⟨hKeys, hMembers⟩ := every_object.mp h
    rw [Bool.and_eq_true, decide_eq_true_eq, List.all_eq_true] at hKeys
    obtain ⟨hDistinct, hNames⟩ := hKeys
    rw [canonicalize_object]
    generalize hSorted : sortLocale platform.localeCompare
      (members.map fun member => (member.1, canonicalizeRecommendationValue platform member.2)) = sorted
    have hPerm : sorted.Perm (members.map fun member => (member.1, canonicalizeRecommendationValue platform member.2)) :=
      hSorted ▸ List.perm_insertionSort _ _
    have hKeysPerm : (sorted.map Prod.fst).Perm (members.map Prod.fst) := by
      have hMapped := hPerm.map Prod.fst
      rw [List.map_map] at hMapped
      exact hMapped
    have hEnumerated : Enumerated sorted :=
      enumerated_of_names (hKeysPerm.nodup_iff.mpr hDistinct)
        fun key hKey => of_decide_eq_true (hNames key (hKeysPerm.mem_iff.mp hKey))
    have hSteady : ∀ member ∈ sorted, Steady platform member.2 := by
      intro member hMember
      obtain ⟨older, hOlder, rfl⟩ := List.mem_map.mp (hPerm.mem_iff.mp hMember)
      exact ih older hOlder (hMembers older hOlder)
    rw [defineAll_eq hEnumerated]
    refine ⟨isJson_object.mpr ⟨hEnumerated.nodup, fun member hMember => (hSteady member hMember).json⟩, ?_, ?_⟩
    · rw [rebuild_object]
      have hSame : (sorted.map fun member => (member.1, rebuild defineAll member.2)) = sorted := by
        refine (List.map_congr_left fun member hMember => ?_).trans (List.map_id sorted)
        rw [(hSteady member hMember).built]
        rfl
      rw [hSame, defineAll_eq hEnumerated]
    · rw [canonicalize_object]
      have hSame : (sorted.map fun member => (member.1, canonicalizeRecommendationValue platform member.2)) = sorted := by
        refine (List.map_congr_left fun member hMember => ?_).trans (List.map_id sorted)
        rw [(hSteady member hMember).canonical]
        rfl
      rw [hSame, sortLocale_idem platform (hSorted ▸ sortLocale_sorted platform _), defineAll_eq hEnumerated]

theorem parse_canonical {value : Value} (h : isRecord value) :
    parse (canonicalizeRecommendationToString platform value) = some (canonicalizeRecommendationValue platform value) := by
  have hSteady := steady_canonicalize platform h
  rw [canonicalizeRecommendationToString, parse_text hSteady.json, hSteady.built]

theorem canonical_parsed {value : Value} (h : isRecord value) :
    canonicalizeRecommendationToString platform (canonicalizeRecommendationValue platform value) =
      canonicalizeRecommendationToString platform value := by
  rw [canonicalizeRecommendationToString, (steady_canonicalize platform h).canonical, canonicalizeRecommendationToString]

end Stability

end CommandConsole.Proposals
