import CommandConsole.Library.JsonDelimited

/-! # Hashes of evidence

Evidence is written with the keys of every object in the order of `localeCompare` and hashed.
Two pieces of evidence in which undefined is at most the value of a property have one text only
if they differ in the order of keys alone.
-/
namespace CommandConsole.Audit
open Library Value
set_option autoImplicit false

section Hashing

variable (localeCompare : Text → Text → Int) (sha256 : Text → Text)

/-- The members in the order of `localeCompare`, which the values have no part in. -/
def sortLocale {α : Type} (members : List (Text × α)) : List (Text × α) :=
  members.insertionSort fun a b => localeCompare a.1 b.1 ≤ 0

/-- None where `JSON.stringify` returns undefined. A list leaves such an item blank, an object spells it. -/
def stableSerialize : Value → Option Text
  | array items => some (brackets ((items.map stableSerialize).map fun text => text.getD []))
  | object members => some (braces ((sortLocale localeCompare (members.map fun member =>
      (member.1, stableSerialize member.2))).map fun member => memberText member.1 (member.2.getD (units "undefined"))))
  | date _ => some (braces [])
  | value => stringify value
termination_by value => sizeOf value
decreasing_by
  · exact sizeOf_item ‹_›
  · exact sizeOf_member ‹_›

/-- None where it throws. -/
def hashEvidence (value : Value) : Option Text := (stableSerialize localeCompare value).map sha256

end Hashing

section Serialization

variable (localeCompare : Text → Text → Int)

theorem sortLocale_map {α β : Type} (f : α → β) (members : List (Text × α)) :
    (sortLocale localeCompare members).map (fun member => (member.1, f member.2)) =
      sortLocale localeCompare (members.map fun member => (member.1, f member.2)) :=
  List.map_insertionSort _ _ _ _ fun _ _ _ _ => Iff.rfl

theorem mem_sortLocale {α : Type} {members : List (Text × α)} {member : Text × α} :
    member ∈ sortLocale localeCompare members ↔ member ∈ members := List.mem_insertionSort _

theorem stableSerialize_array (items : List Value) : stableSerialize localeCompare (array items) =
    some (brackets (items.map fun item => (stableSerialize localeCompare item).getD [])) := by
  rw [stableSerialize, List.map_map]
  rfl

/-- The text of a value where it stands in an object. -/
def memberEvidence (value : Value) : Text := (stableSerialize localeCompare value).getD (units "undefined")

theorem stableSerialize_object (members : Members) : stableSerialize localeCompare (object members) =
    some (braces ((sortLocale localeCompare (members.map fun member => (member.1, memberEvidence localeCompare member.2))).map
      fun member => memberText member.1 member.2)) := by
  have hSort := sortLocale_map localeCompare (fun text : Option Text => text.getD (units "undefined"))
    (members.map fun member => (member.1, stableSerialize localeCompare member.2))
  rw [List.map_map] at hSort
  rw [stableSerialize, Option.some_inj]
  congr 1
  have hTexts : (fun member : Text × Option Text => memberText member.1 (member.2.getD (units "undefined"))) =
      (fun member : Text × Text => memberText member.1 member.2) ∘
        fun member => (member.1, member.2.getD (units "undefined")) := rfl
  rw [hTexts, ← List.map_map, hSort]
  rfl

theorem delimited_undefined : Delimited (units "undefined") := delimited_plain (by decide)

theorem stableSerialize_atom {value : Value} (hAtom : value.isAtom) (hDate : ∀ iso, value ≠ date iso) :
    stableSerialize localeCompare value = stringify value := by
  cases value with
  | array items => cases hAtom
  | object members => cases hAtom
  | date iso => exact absurd rfl (hDate iso)
  | _ => rw [stableSerialize] <;> nofun

/-- What holds of the texts of the atoms and survives brackets and braces holds of every text of evidence. -/
theorem evidence_invariant {P : Text → Prop} (hBlank : P []) (hUndefined : P (units "undefined"))
    (hAtoms : ∀ (value : Value) (text : Text), value.isAtom → stringify value = some text → P text)
    (hArray : ∀ texts : List Text, (∀ text ∈ texts, P text) → P (brackets texts))
    (hObject : ∀ members : List (Text × Text), (∀ member ∈ members, P member.2) →
      P (braces (members.map fun member => memberText member.1 member.2)))
    {value : Value} {text : Text} (h : stableSerialize localeCompare value = some text) : P text := by
  induction value using Value.induction generalizing text with
  | atom value hAtom =>
    by_cases hDate : ∃ iso, value = date iso
    · obtain ⟨iso, rfl⟩ := hDate
      rw [stableSerialize, Option.some_inj] at h
      exact h ▸ hObject [] fun member hMember => absurd hMember List.not_mem_nil
    · rw [stableSerialize_atom localeCompare hAtom fun iso hIso => hDate ⟨iso, hIso⟩] at h
      exact hAtoms value text hAtom h
  | array items ih =>
    rw [stableSerialize_array, Option.some_inj] at h
    subst h
    refine hArray _ (List.forall_mem_map.mpr fun item hItem => ?_)
    cases hText : stableSerialize localeCompare item with
    | none => exact hBlank
    | some text => exact ih item hItem hText
  | object members ih =>
    rw [stableSerialize_object, Option.some_inj] at h
    subst h
    refine hObject _ fun member hMember => ?_
    obtain ⟨older, hOlder, rfl⟩ := List.mem_map.mp ((mem_sortLocale _).mp hMember)
    dsimp only [memberEvidence]
    cases hText : stableSerialize localeCompare older.2 with
    | none => exact hUndefined
    | some text => exact ih older hOlder hText

theorem delimited_evidence {value : Value} {text : Text} (h : stableSerialize localeCompare value = some text) :
    Delimited text := by
  refine evidence_invariant localeCompare delimited_nil delimited_undefined (fun _ _ hAtom => delimited_stringify hAtom)
    (fun _ => delimited_brackets) (fun members hMembers => ?_) h
  exact delimited_braces (List.forall_mem_map.mpr fun member hMember => delimited_memberText (hMembers member hMember))

theorem wellFormed_evidence {value : Value} {text : Text} (h : stableSerialize localeCompare value = some text) :
    WellFormed text := by
  have hClosed {first last : Nat} {texts : List Text} (hFirst : first < 0x80) (hLast : last < 0x80)
      (hTexts : ∀ text ∈ texts, WellFormed text) : WellFormed (first :: (commas texts ++ [last])) :=
    (wellFormed_low (List.forall_mem_singleton.mpr hFirst)).append
      ((wellFormed_commas hTexts).append (wellFormed_low (List.forall_mem_singleton.mpr hLast)))
  refine evidence_invariant localeCompare WellFormed.nil (wellFormed_low (by decide)) ?_
    (fun texts => hClosed (by decide) (by decide)) (fun members hMembers => ?_) h
  · exact fun value text hAtom => wellFormed_stringify hAtom
  · refine hClosed (by decide) (by decide) (List.forall_mem_map.mpr fun member hMember => ?_)
    exact (wellFormed_quote member.1).append
      ((wellFormed_low (List.forall_mem_singleton.mpr (by decide : 0x3A < 0x80))).append (hMembers member hMember))

theorem delimited_memberEvidence (value : Value) : Delimited (memberEvidence localeCompare value) := by
  rw [memberEvidence]
  cases hText : stableSerialize localeCompare value with
  | none => exact delimited_undefined
  | some text => exact delimited_evidence localeCompare hText

/-- The evidence of an object settles that of each of its properties. -/
theorem memberEvidence_eq {members others : Members} {key : Text} {value other : Value}
    (hSame : stableSerialize localeCompare (object members) = stableSerialize localeCompare (object others))
    (hMember : (key, value) ∈ members) (hOther : (key, other) ∈ others) (hDistinct : (others.map Prod.fst).Nodup) :
    memberEvidence localeCompare value = memberEvidence localeCompare other := by
  rw [stableSerialize_object, stableSerialize_object, Option.some_inj] at hSame
  have hDelimited (members : Members) : ∀ member ∈ sortLocale localeCompare (members.map fun member =>
      (member.1, memberEvidence localeCompare member.2)), Delimited member.2 := by
    intro member hMember
    obtain ⟨older, -, rfl⟩ := List.mem_map.mp ((mem_sortLocale _).mp hMember)
    exact delimited_memberEvidence localeCompare older.2
  have hSorted := braces_inj (hDelimited members) (hDelimited others) hSame
  have hIn : (key, memberEvidence localeCompare value) ∈
      others.map fun member => (member.1, memberEvidence localeCompare member.2) := by
    rw [← mem_sortLocale localeCompare, ← hSorted, mem_sortLocale]
    exact List.mem_map_of_mem hMember
  obtain ⟨⟨key', value'⟩, hMember', hPair⟩ := List.mem_map.mp hIn
  obtain ⟨rfl, hValue⟩ := Prod.mk.inj hPair
  obtain rfl : value' = other := congrArg Prod.snd (eq_of_key hDistinct hMember' hOther rfl)
  exact hValue.symm

end Serialization

section Injectivity

def isUndefined : Value → Bool
  | undefined => true
  | _ => false

/-- A JSON value, but that properties may be undefined. -/
def isEvidence : Value → Bool
  | array items => (items.map isEvidence).all id
  | object members => decide (members.map Prod.fst).Nodup &&
      (members.map fun member => isUndefined member.2 || isEvidence member.2).all id
  | value => jsonAtom value
termination_by value => sizeOf value
decreasing_by
  · exact sizeOf_item ‹_›
  · exact sizeOf_member ‹_›

def isProperty (value : Value) : Bool := isUndefined value || isEvidence value

theorem isEvidence_array {items : List Value} : isEvidence (array items) ↔ ∀ item ∈ items, isEvidence item := by
  rw [isEvidence, List.all_map, List.all_eq_true]
  rfl

theorem isEvidence_object {members : Members} : isEvidence (object members) ↔
    (members.map Prod.fst).Nodup ∧ ∀ member ∈ members, isProperty member.2 := by
  rw [isEvidence, Bool.and_eq_true, decide_eq_true_eq, List.all_map, List.all_eq_true]
  rfl

theorem isEvidence_atom {value : Value} (h : value.isAtom) : isEvidence value = jsonAtom value := by
  cases value with
  | array items => cases h
  | object members => cases h
  | _ => rw [isEvidence] <;> nofun

theorem atom_cases {value : Value} (hAtom : value.isAtom) (h : isProperty value) : value = undefined ∨ value = null ∨
    (∃ truth, value = Value.bool truth) ∨ (∃ numeral, value = number numeral) ∨ ∃ text, value = string text := by
  cases value with
  | undefined => exact .inl rfl
  | null => exact .inr (.inl rfl)
  | bool truth => exact .inr (.inr (.inl ⟨truth, rfl⟩))
  | number numeral => exact .inr (.inr (.inr (.inl ⟨numeral, rfl⟩)))
  | string text => exact .inr (.inr (.inr (.inr ⟨text, rfl⟩)))
  | array items => cases hAtom
  | object members => cases hAtom
  | _ =>
    rw [isProperty, isEvidence_atom rfl] at h
    cases h

def kind : Value → Nat
  | .undefined => 0
  | .null => 1
  | .bool _ => 2
  | .number _ => 3
  | .string _ => 4
  | .array _ => 5
  | .object _ => 6
  | _ => 7

/-- The kind of a piece of evidence, read off the first unit of its text. -/
def kindOf (text : Text) : Nat :=
  match text.head? with
  | some 0x75 => 0
  | some 0x6E => 1
  | some 0x74 => 2
  | some 0x66 => 2
  | some 0x22 => 4
  | some 0x5B => 5
  | some 0x7B => 6
  | _ => 3

theorem kindOf_numeral (numeral : Numeral) : kindOf numeral.text = 3 := by
  obtain ⟨unit, rest, hText, hUnit⟩ := numeral_head numeral
  rw [hText, kindOf, List.head?_cons]
  split
  case h_8 => rfl
  all_goals
    rename_i hHead
    rw [Option.some.inj hHead] at hUnit
    exact absurd hUnit (by decide)

variable (localeCompare : Text → Text → Int)

theorem memberEvidence_atom {value : Value} (hAtom : value.isAtom) (hProperty : isProperty value) :
    memberEvidence localeCompare value = (stringify value).getD (units "undefined") := by
  rw [memberEvidence, stableSerialize_atom localeCompare hAtom]
  rintro iso rfl
  rw [isProperty, isEvidence_atom rfl] at hProperty
  cases hProperty

theorem memberEvidence_array (items : List Value) : memberEvidence localeCompare (array items) =
    brackets (items.map fun item => (stableSerialize localeCompare item).getD []) := by
  rw [memberEvidence, stableSerialize_array, Option.getD_some]

theorem memberEvidence_object (members : Members) : memberEvidence localeCompare (object members) =
    braces (((sortLocale localeCompare members).map fun member => (member.1, memberEvidence localeCompare member.2)).map
      fun member => memberText member.1 member.2) := by
  rw [memberEvidence, stableSerialize_object, Option.getD_some, sortLocale_map]

theorem kindOf_evidence {value : Value} (h : isProperty value) :
    kindOf (memberEvidence localeCompare value) = kind value := by
  by_cases hAtom : value.isAtom
  · rw [memberEvidence_atom localeCompare hAtom h]
    obtain rfl | rfl | ⟨truth, rfl⟩ | ⟨numeral, rfl⟩ | ⟨text, rfl⟩ := atom_cases hAtom h
    · rw [stringify]
      rfl
    · rw [stringify]
      rfl
    · rw [stringify]
      cases truth <;> rfl
    · rw [stringify]
      exact kindOf_numeral numeral
    · rw [stringify]
      rfl
  · cases value with
    | array items =>
      rw [memberEvidence_array]
      rfl
    | object members =>
      rw [memberEvidence_object]
      rfl
    | _ => exact absurd rfl hAtom

theorem forall₂_of_map_eq {α β : Type} {f : α → β} {R : α → α → Prop} {items others : List α}
    (h : items.map f = others.map f) (hR : ∀ item ∈ items, ∀ other ∈ others, f item = f other → R item other) :
    List.Forall₂ R items others := by
  induction items generalizing others with
  | nil =>
    obtain rfl := List.map_eq_nil_iff.mp h.symm
    exact .nil
  | cons item items ih =>
    cases others with
    | nil => cases h
    | cons other others =>
      obtain ⟨hHead, hTail⟩ := List.cons.inj h
      refine .cons (hR item List.mem_cons_self other List.mem_cons_self hHead) (ih hTail ?_)
      exact fun a ha b hb => hR a (List.mem_cons_of_mem _ ha) b (List.mem_cons_of_mem _ hb)

/-- Only undefined has no text of its own. -/
theorem stableSerialize_evidence {value : Value} (h : isEvidence value) :
    stableSerialize localeCompare value = some (memberEvidence localeCompare value) := by
  by_cases hAtom : value.isAtom
  · have hProperty : isProperty value := by rw [isProperty, h, Bool.or_true]
    rw [memberEvidence_atom localeCompare hAtom hProperty]
    obtain rfl | rfl | ⟨truth, rfl⟩ | ⟨numeral, rfl⟩ | ⟨text, rfl⟩ := atom_cases hAtom hProperty
    · rw [isEvidence_atom rfl] at h
      cases h
    all_goals
      rw [stableSerialize_atom localeCompare rfl fun iso hDate => Value.noConfusion hDate, stringify, Option.getD_some]
  · cases value with
    | array items => rw [memberEvidence_array, stableSerialize_array]
    | object members => rw [memberEvidence_object, stableSerialize_object, sortLocale_map]
    | _ => exact absurd rfl hAtom

theorem memberEvidence_ne_nil {value : Value} (h : isProperty value) : memberEvidence localeCompare value ≠ [] := by
  intro hNil
  have hKind := kindOf_evidence localeCompare h
  rw [hNil] at hKind
  by_cases hAtom : value.isAtom
  · rw [memberEvidence_atom localeCompare hAtom h] at hNil
    obtain rfl | rfl | ⟨truth, rfl⟩ | ⟨numeral, rfl⟩ | ⟨text, rfl⟩ := atom_cases hAtom h <;>
      first | exact absurd hKind (Nat.ne_of_beq_eq_false rfl) | rw [stringify, Option.getD_some] at hNil
    exact numeral.text_ne_nil hNil
  · cases value with
    | array items => exact absurd hKind (Nat.ne_of_beq_eq_false rfl)
    | object members => exact absurd hKind (Nat.ne_of_beq_eq_false rfl)
    | _ => exact absurd rfl hAtom

theorem kind_eq {u v : Value} (hu : isProperty u) (hv : isProperty v)
    (h : memberEvidence localeCompare u = memberEvidence localeCompare v) : kind u = kind v := by
  rw [← kindOf_evidence localeCompare hu, h, kindOf_evidence localeCompare hv]

/-- Evidence is settled by its text, but for the order of keys. -/
theorem same_of_evidence {u v : Value} (hu : isProperty u) (hv : isProperty v)
    (h : memberEvidence localeCompare u = memberEvidence localeCompare v) : Same u v := by
  have hKind := kind_eq localeCompare hu hv h
  induction u using Value.induction generalizing v with
  | atom u hAtom =>
    have hAtom' : v.isAtom := by
      obtain rfl | rfl | ⟨_, rfl⟩ | ⟨_, rfl⟩ | ⟨_, rfl⟩ := atom_cases hAtom hu <;> cases v <;>
        first | rfl | exact absurd hKind (Nat.ne_of_beq_eq_false rfl)
    rw [memberEvidence_atom localeCompare hAtom hu, memberEvidence_atom localeCompare hAtom' hv] at h
    obtain rfl | rfl | ⟨truth, rfl⟩ | ⟨numeral, rfl⟩ | ⟨text, rfl⟩ := atom_cases hAtom hu <;>
      obtain rfl | rfl | ⟨truth', rfl⟩ | ⟨numeral', rfl⟩ | ⟨text', rfl⟩ := atom_cases hAtom' hv <;>
      first
      | exact absurd hKind (Nat.ne_of_beq_eq_false rfl)
      | exact Same.refl _
      | rw [stringify, stringify, Option.getD_some, Option.getD_some] at h
    · cases truth <;> cases truth' <;> first | exact Same.refl _ | exact absurd h (by decide)
    · obtain ⟨text, hValid⟩ := numeral
      obtain ⟨text', hValid'⟩ := numeral'
      obtain rfl : text = text' := h
      exact Same.refl _
    · obtain ⟨rfl, -⟩ := quote_inj (congrArg (· ++ []) h)
      exact Same.refl _
  | array items ih =>
    cases v with
    | array others =>
      have hItems := isEvidence_array.mp hu
      have hOthers := isEvidence_array.mp hv
      have hTexts {items : List Value} (hItems : ∀ item ∈ items, isEvidence item) :
          (items.map fun item => (stableSerialize localeCompare item).getD []) =
            items.map (memberEvidence localeCompare) :=
        List.map_congr_left fun item hItem => by rw [stableSerialize_evidence localeCompare (hItems item hItem),
          Option.getD_some]
      have hPart {items : List Value} (hItems : ∀ item ∈ items, isEvidence item) :
          ∀ text ∈ items.map (memberEvidence localeCompare), Delimited text ∧ text ≠ [] := by
        rw [List.forall_mem_map]
        intro item hItem
        exact ⟨delimited_memberEvidence localeCompare item,
          memberEvidence_ne_nil localeCompare (by rw [isProperty, hItems item hItem, Bool.or_true])⟩
      rw [memberEvidence_array, memberEvidence_array, hTexts hItems, hTexts hOthers] at h
      refine Same.array_of_forall₂ (forall₂_of_map_eq (brackets_inj (hPart hItems) (hPart hOthers) h) ?_)
      intro item hItem other hOther hText
      have hLeft : isProperty item := by rw [isProperty, hItems item hItem, Bool.or_true]
      have hRight : isProperty other := by rw [isProperty, hOthers other hOther, Bool.or_true]
      exact ih item hItem hLeft hRight hText (kind_eq localeCompare hLeft hRight hText)
    | _ => exact absurd hKind (Nat.ne_of_beq_eq_false rfl)
  | object members ih =>
    cases v with
    | object others =>
      obtain ⟨-, hMembers⟩ := isEvidence_object.mp hu
      obtain ⟨-, hOthers⟩ := isEvidence_object.mp hv
      have hPart (members : Members) : ∀ member ∈ (sortLocale localeCompare members).map fun member =>
          (member.1, memberEvidence localeCompare member.2), Delimited member.2 := by
        rw [List.forall_mem_map]
        exact fun member _ => delimited_memberEvidence localeCompare member.2
      rw [memberEvidence_object, memberEvidence_object] at h
      have hSorted := forall₂_of_map_eq (R := fun a b => a.1 = b.1 ∧ Same a.2 b.2)
        (braces_inj (hPart members) (hPart others) h) fun member hMember other hOther hText => ?_
      · have hLeft := Same.order (List.perm_insertionSort (fun a b => localeCompare a.1 b.1 ≤ 0) members)
        have hRight := Same.order (List.perm_insertionSort (fun a b => localeCompare a.1 b.1 ≤ 0) others)
        exact (hLeft.symm.trans (Same.object_of_forall₂ hSorted)).trans hRight
      · obtain ⟨hKey, hValue⟩ := Prod.mk.inj hText
        have hMember := (mem_sortLocale localeCompare).mp hMember
        have hOther := (mem_sortLocale localeCompare).mp hOther
        exact ⟨hKey, ih member hMember (hMembers member hMember) (hOthers other hOther) hValue
          (kind_eq localeCompare (hMembers member hMember) (hOthers other hOther) hValue)⟩
    | _ => exact absurd hKind (Nat.ne_of_beq_eq_false rfl)

end Injectivity

end CommandConsole.Audit
