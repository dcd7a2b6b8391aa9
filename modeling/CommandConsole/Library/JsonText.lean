import CommandConsole.Library.JsonObject

/-! # JSON texts

`JSON.stringify` without indentation, `JSON.parse`, and the round trip: the text of a JSON value
is read back as that value, with the properties of its objects in the order of an engine.
-/
namespace Library
set_option autoImplicit false

namespace Value

def hexDigit (digit : Nat) : Nat := if digit < 10 then 0x30 + digit else 0x57 + digit

def hexValue? (unit : Nat) : Option Nat :=
  if isDigit unit then some (unit - 0x30)
  else if 0x61 ≤ unit && unit ≤ 0x66 then some (unit - 0x57)
  else if 0x41 ≤ unit && unit ≤ 0x46 then some (unit - 0x37)
  else none

def isLead (unit : Nat) : Bool := 0xD800 ≤ unit && unit ≤ 0xDBFF

def isTrail (unit : Nat) : Bool := 0xDC00 ≤ unit && unit ≤ 0xDFFF

/-- The letters after the backslash of the short escapes. -/
def shortEscape? (unit : Nat) : Option Nat :=
  if unit = 0x22 then some 0x22
  else if unit = 0x5C then some 0x5C
  else if unit = 0x08 then some 0x62
  else if unit = 0x0C then some 0x66
  else if unit = 0x0A then some 0x6E
  else if unit = 0x0D then some 0x72
  else if unit = 0x09 then some 0x74
  else none

def shortUnit? (letter : Nat) : Option Nat :=
  if letter = 0x22 then some 0x22
  else if letter = 0x5C then some 0x5C
  else if letter = 0x2F then some 0x2F
  else if letter = 0x62 then some 0x08
  else if letter = 0x66 then some 0x0C
  else if letter = 0x6E then some 0x0A
  else if letter = 0x72 then some 0x0D
  else if letter = 0x74 then some 0x09
  else none

def quoteUnit (unit : Nat) : Text :=
  match shortEscape? unit with
  | some letter => [0x5C, letter]
  | none =>
    if unit < 0x20 || isLead unit || isTrail unit then
      [0x5C, 0x75, hexDigit (unit / 4096 % 16), hexDigit (unit / 256 % 16), hexDigit (unit / 16 % 16),
        hexDigit (unit % 16)]
    else [unit]

/-- A surrogate without its partner is escaped. -/
def quoteUnits : Text → Text
  | [] => []
  | [unit] => quoteUnit unit
  | unit :: next :: rest =>
    if isLead unit && isTrail next then unit :: next :: quoteUnits rest
    else quoteUnit unit ++ quoteUnits (next :: rest)

def quote (text : Text) : Text := 0x22 :: (quoteUnits text ++ [0x22])

def nullText : Text := units "null"

def boolText (value : Bool) : Text := if value then units "true" else units "false"

def commas (texts : List Text) : Text := [0x2C].intercalate texts

def brackets (texts : List Text) : Text := 0x5B :: (commas texts ++ [0x5D])

def braces (texts : List Text) : Text := 0x7B :: (commas texts ++ [0x7D])

def memberText (key text : Text) : Text := quote key ++ 0x3A :: text

/-- `JSON.stringify(value)`, none where it returns undefined. -/
def stringify : Value → Option Text
  | undefined => none
  | function => none
  | null => some nullText
  | bool value => some (boolText value)
  | notFinite => some nullText
  | number value => some value.text
  | string value => some (quote value)
  | date iso => some (quote iso)
  | array items => some (brackets ((items.map stringify).map fun text => text.getD nullText))
  | object members => some (braces ((members.map fun member => (member.1, stringify member.2)).filterMap
      fun member => member.2.map (memberText member.1)))
termination_by value => sizeOf value
decreasing_by
  · exact sizeOf_item ‹_›
  · exact sizeOf_member ‹_›

def isSpace (unit : Nat) : Bool := unit == 0x20 || unit == 0x09 || unit == 0x0A || unit == 0x0D

def skipSpace (text : Text) : Text := text.dropWhile isSpace

/-- The rest of a string after its opening quotation mark. -/
def readUnits : Text → Option (Text × Text)
  | [] => none
  | unit :: rest =>
    if unit = 0x22 then some ([], rest)
    else if unit = 0x5C then
      match rest with
      | [] => none
      | letter :: rest =>
        match shortUnit? letter with
        | some short => (readUnits rest).map fun (units, rest) => (short :: units, rest)
        | none =>
          if letter = 0x75 then
            match rest with
            | a :: b :: c :: d :: rest =>
              match hexValue? a, hexValue? b, hexValue? c, hexValue? d with
              | some a, some b, some c, some d =>
                (readUnits rest).map fun (units, rest) => ((4096 * a + 256 * b + 16 * c + d) :: units, rest)
              | _, _, _, _ => none
            | _ => none
          else none
    else if unit < 0x20 then none
    else (readUnits rest).map fun (units, rest) => (unit :: units, rest)

def readString (text : Text) : Option (Text × Text) :=
  match skipSpace text with
  | [] => none
  | unit :: rest => if unit = 0x22 then readUnits rest else none

def readNumeral (text : Text) : Option (Value × Text) :=
  if h : Numeral.accepts (text.takeWhile Numeral.isUnit) then
    some (number ⟨_, h⟩, text.dropWhile Numeral.isUnit)
  else none

def readAtom (text : Text) : Option (Value × Text) :=
  if nullText.isPrefixOf text then some (null, text.drop 4)
  else if (boolText true).isPrefixOf text then some (bool true, text.drop 4)
  else if (boolText false).isPrefixOf text then some (bool false, text.drop 5)
  else readNumeral text

/-- The unit that comes next after white space, with what follows it. -/
def readMark (text : Text) : Option (Nat × Text) :=
  match skipSpace text with
  | [] => none
  | unit :: rest => some (unit, rest)

mutual

def readValue : Nat → Text → Option (Value × Text)
  | 0, _ => none
  | fuel + 1, text =>
    match readMark text with
    | none => none
    | some (unit, rest) =>
      if unit = 0x22 then (readUnits rest).map fun (value, rest) => (string value, rest)
      else if unit = 0x5B then
        match readMark rest with
        | none => none
        | some (mark, more) =>
          if mark = 0x5D then some (array [], more)
          else (readItems fuel rest).map fun (items, rest) => (array items, rest)
      else if unit = 0x7B then
        match readMark rest with
        | none => none
        | some (mark, more) =>
          if mark = 0x7D then some (object [], more)
          else (readMembers fuel rest).map fun (members, rest) => (object (defineAll members), rest)
      else readAtom (unit :: rest)

def readItems : Nat → Text → Option (List Value × Text)
  | 0, _ => none
  | fuel + 1, text =>
    match readValue fuel text with
    | none => none
    | some (item, rest) =>
      match readMark rest with
      | none => none
      | some (mark, more) =>
        if mark = 0x2C then (readItems fuel more).map fun (items, rest) => (item :: items, rest)
        else if mark = 0x5D then some ([item], more)
        else none

def readMembers : Nat → Text → Option (Members × Text)
  | 0, _ => none
  | fuel + 1, text =>
    match readString text with
    | none => none
    | some (key, rest) =>
      match readMark rest with
      | none => none
      | some (colon, rest) =>
        if colon = 0x3A then
          match readValue fuel rest with
          | none => none
          | some (item, rest) =>
            match readMark rest with
            | none => none
            | some (mark, more) =>
              if mark = 0x2C then (readMembers fuel more).map fun (members, rest) => ((key, item) :: members, rest)
              else if mark = 0x7D then some ([(key, item)], more)
              else none
        else none

end

/-- `JSON.parse(text)`, none where it throws. The fuel is enough for every text of its length. -/
def parse (text : Text) : Option Value :=
  match readValue (2 * text.length + 1) text with
  | none => none
  | some (value, rest) => if skipSpace rest = [] then some value else none

theorem hexValue_hexDigit {digit : Nat} (h : digit < 16) : hexValue? (hexDigit digit) = some digit := by
  have hAll : ∀ digit : Fin 16, hexValue? (hexDigit digit) = some digit.val := by decide
  exact hAll ⟨digit, h⟩

theorem shortUnit_shortEscape {unit letter : Nat} (h : shortEscape? unit = some letter) :
    shortUnit? letter = some unit := by
  unfold shortEscape? at h
  split_ifs at h <;> cases h <;> subst_vars <;> rfl

theorem readUnits_plain {unit : Nat} (rest : Text) (hShort : shortEscape? unit = none) (hSpace : ¬ unit < 0x20) :
    readUnits (unit :: rest) = (readUnits rest).map fun (units, rest) => (unit :: units, rest) := by
  have hQuote : unit ≠ 0x22 := by
    rintro rfl
    cases hShort
  have hSlash : unit ≠ 0x5C := by
    rintro rfl
    cases hShort
  rw [readUnits.eq_def]
  dsimp only
  rw [if_neg hQuote, if_neg hSlash, if_neg hSpace]

theorem readUnits_quoteUnit (unit : Nat) (rest : Text) :
    readUnits (quoteUnit unit ++ rest) = (readUnits rest).map fun (units, rest) => (unit :: units, rest) := by
  unfold quoteUnit
  split
  · rename_i letter hShort
    rw [List.cons_append, List.cons_append, List.nil_append, readUnits.eq_def]
    dsimp only
    rw [if_neg (by decide), if_pos rfl, shortUnit_shortEscape hShort]
  · rename_i hShort
    split
    · rename_i hEscaped
      simp only [List.cons_append, List.nil_append]
      rw [readUnits.eq_def]
      dsimp only
      rw [if_neg (by decide), if_pos rfl]
      have hLetter : shortUnit? 0x75 = none := rfl
      simp only [hLetter, hexValue_hexDigit (Nat.mod_lt _ (by decide : 0 < 16))]
      have hUnit : 4096 * (unit / 4096 % 16) + 256 * (unit / 256 % 16) + 16 * (unit / 16 % 16) + unit % 16 = unit := by
        simp only [isLead, isTrail, Bool.or_eq_true, Bool.and_eq_true, decide_eq_true_eq] at hEscaped
        omega
      rw [hUnit]
      rfl
    · rename_i hPlain
      refine readUnits_plain rest hShort fun hSpace => hPlain ?_
      simp only [hSpace, decide_true, Bool.true_or]

theorem shortEscape_none {unit : Nat} (h : 0x80 ≤ unit) : shortEscape? unit = none := by
  unfold shortEscape?
  split_ifs <;> first | rfl | omega

theorem readUnits_quoteUnits (text rest : Text) :
    readUnits (quoteUnits text ++ 0x22 :: rest) = some (text, rest) := by
  fun_induction quoteUnits text with
  | case1 =>
    rw [List.nil_append, readUnits.eq_def]
    rfl
  | case2 unit =>
    rw [readUnits_quoteUnit, readUnits.eq_def]
    rfl
  | case3 unit next text hPair ih =>
    rw [isLead, isTrail, Bool.and_eq_true, Bool.and_eq_true, Bool.and_eq_true, decide_eq_true_eq, decide_eq_true_eq,
      decide_eq_true_eq, decide_eq_true_eq] at hPair
    rw [List.cons_append, List.cons_append, readUnits_plain _ (shortEscape_none (by omega)) (by omega),
      readUnits_plain _ (shortEscape_none (by omega)) (by omega), ih]
    rfl
  | case4 unit next text hPair ih =>
    rw [List.append_assoc, readUnits_quoteUnit, ih]
    rfl

/-- The text of a value where it stands in an array. -/
def text (value : Value) : Text := (stringify value).getD nullText

theorem stringify_array {items : List Value} : stringify (array items) = some (brackets (items.map text)) := by
  rw [stringify, List.map_map]
  rfl

theorem stringify_object {members : Members} : stringify (object members) =
    some (braces (members.filterMap fun member => (stringify member.2).map (memberText member.1))) := by
  rw [stringify, List.filterMap_map]
  rfl

theorem stringify_json {value : Value} (h : isJson value) : stringify value = some (text value) := by
  have hAtom {value : Value} (h : isJson value) (hAtom : value.isAtom) : jsonAtom value = true := by
    rw [← h, isJson, every_atom hAtom]
  cases value with
  | undefined => cases hAtom h rfl
  | function => cases hAtom h rfl
  | notFinite => cases hAtom h rfl
  | date iso => cases hAtom h rfl
  | null => rw [text, stringify]; rfl
  | bool value => rw [text, stringify]; rfl
  | number value => rw [text, stringify]; rfl
  | string value => rw [text, stringify]; rfl
  | array items => rw [text, stringify_array]; rfl
  | object members => rw [text, stringify_object]; rfl

theorem text_array {items : List Value} : text (array items) = brackets (items.map text) := by
  rw [text, stringify_array]
  rfl

theorem text_object {members : Members} (h : ∀ member ∈ members, isJson member.2) :
    text (object members) = braces (members.map fun member => memberText member.1 (text member.2)) := by
  rw [text, stringify_object, Option.getD_some, ← List.filterMap_eq_map]
  congr 1
  refine List.filterMap_congr fun member hMember => ?_
  rw [stringify_json (h member hMember)]
  rfl

theorem readMark_cons {unit : Nat} {rest : Text} (h : isSpace unit = false) :
    readMark (unit :: rest) = some (unit, rest) := by
  rw [readMark, skipSpace, List.dropWhile_cons, if_neg (ne_of_eq_of_ne h Bool.false_ne_true)]

/-- What follows a value does not continue a number. -/
def Ends (tail : Text) : Prop := ∀ unit ∈ tail.head?, Numeral.isUnit unit = false

theorem ends_cons {unit : Nat} {tail : Text} (h : Numeral.isUnit unit = false) : Ends (unit :: tail) := by
  rintro other hHead
  obtain rfl := Option.some.inj hHead
  exact h

theorem takeWhile_ends {p : Nat → Bool} {text tail : Text} (hText : ∀ unit ∈ text, p unit)
    (hTail : ∀ unit ∈ tail.head?, p unit = false) : (text ++ tail).takeWhile p = text := by
  rw [List.takeWhile_append_of_pos hText]
  cases tail with
  | nil => rw [List.takeWhile_nil, List.append_nil]
  | cons unit rest =>
    rw [List.takeWhile_cons, if_neg (ne_of_eq_of_ne (hTail unit rfl) Bool.false_ne_true), List.append_nil]

theorem dropWhile_ends {p : Nat → Bool} {text tail : Text} (hText : ∀ unit ∈ text, p unit)
    (hTail : ∀ unit ∈ tail.head?, p unit = false) : (text ++ tail).dropWhile p = tail := by
  rw [List.dropWhile_append_of_pos hText]
  cases tail with
  | nil => rw [List.dropWhile_nil]
  | cons unit rest =>
    rw [List.dropWhile_cons, if_neg (ne_of_eq_of_ne (hTail unit rfl) Bool.false_ne_true)]

theorem numeral_units (numeral : Numeral) : ∀ unit ∈ numeral.text, Numeral.isUnit unit := by
  have hAccepts := numeral.valid
  rw [Numeral.accepts, Bool.and_eq_true, List.all_eq_true] at hAccepts
  exact hAccepts.1

theorem readNumeral_append (numeral : Numeral) {tail : Text} (h : Ends tail) :
    readNumeral (numeral.text ++ tail) = some (number numeral, tail) := by
  have hToken := takeWhile_ends (numeral_units numeral) h
  have hRest := dropWhile_ends (numeral_units numeral) h
  rw [readNumeral, dif_pos (hToken.symm ▸ numeral.valid), hRest]
  simp only [hToken]

theorem readAtom_numeral (numeral : Numeral) {tail : Text} (h : Ends tail) :
    readAtom (numeral.text ++ tail) = some (number numeral, tail) := by
  rw [← readNumeral_append numeral h]
  have hUnits := numeral_units numeral
  have hNil := numeral.text_ne_nil
  revert hUnits hNil
  generalize numeral.text = token
  intro hUnits hNil
  cases token with
  | nil => exact absurd rfl hNil
  | cons unit rest =>
    have hUnit : Numeral.isUnit unit := hUnits unit List.mem_cons_self
    have hWord (word : Text) (hHead : word.head?.map Numeral.isUnit = some false) :
        ¬ word.isPrefixOf (unit :: rest ++ tail) := by
      intro hPrefix
      cases word with
      | nil => cases hHead
      | cons letter letters =>
        rw [List.cons_append, List.isPrefixOf_cons_cons, Bool.and_eq_true, beq_iff_eq] at hPrefix
        rw [hPrefix.1, List.head?_cons, Option.map_some, hUnit] at hHead
        cases hHead
    rw [readAtom, if_neg (hWord nullText rfl), if_neg (hWord (boolText true) rfl), if_neg (hWord (boolText false) rfl)]

/-- A value that is read back, with its objects as an engine builds them. -/
def Reads (value : Value) : Prop :=
  ∀ (fuel : Nat) (tail : Text), 2 * (text value).length ≤ fuel → Ends tail →
    readValue fuel (text value ++ tail) = some (rebuild defineAll value, tail)

theorem commas_cons (head : Text) (texts : List Text) (h : texts ≠ []) :
    commas (head :: texts) = head ++ 0x2C :: commas texts := by
  rw [commas, List.intercalate_cons_of_ne_nil h, List.append_assoc]
  rfl

theorem commas_head (head : Text) (texts : List Text) : ∃ more, commas (head :: texts) = head ++ more := by
  cases texts with
  | nil => exact ⟨[], by rw [List.append_nil]; exact List.intercalate_singleton⟩
  | cons next rest => exact ⟨_, commas_cons head (next :: rest) (List.cons_ne_nil _ _)⟩

theorem commas_singleton (head : Text) : commas [head] = head := List.intercalate_singleton

theorem readItems_commas {items : List Value} (hItems : ∀ item ∈ items, Reads item) (hNil : items ≠ [])
    {fuel : Nat} {tail : Text} (hFuel : 2 * (commas (items.map text)).length + 1 ≤ fuel) :
    readItems fuel (commas (items.map text) ++ 0x5D :: tail) = some (items.map (rebuild defineAll), tail) := by
  induction items generalizing fuel with
  | nil => exact absurd rfl hNil
  | cons item rest ih =>
    obtain ⟨hItem, hRest⟩ := List.forall_mem_cons.mp hItems
    cases fuel with
    | zero => cases hFuel
    | succ fuel =>
      rw [List.map_cons] at hFuel ⊢
      by_cases hLast : rest = []
      · subst hLast
        rw [List.map_nil, commas_singleton] at hFuel ⊢
        rw [readItems, hItem fuel _ (by omega) (ends_cons (by decide))]
        simp only [readMark_cons (show isSpace 0x5D = false by decide)]
        rfl
      · have hMap : rest.map text ≠ [] := fun hEmpty => hLast (List.map_eq_nil_iff.mp hEmpty)
        rw [commas_cons _ _ hMap, List.length_append, List.length_cons] at hFuel
        rw [commas_cons _ _ hMap, List.append_assoc, List.cons_append, readItems,
          hItem fuel _ (by omega) (ends_cons (by decide))]
        simp only [readMark_cons (show isSpace 0x2C = false by decide), if_true]
        rw [ih hRest hLast (by omega)]
        rfl

theorem readMembers_commas {members : Members} (hMembers : ∀ member ∈ members, Reads member.2) (hNil : members ≠ [])
    {fuel : Nat} {tail : Text}
    (hFuel : 2 * (commas (members.map fun member => memberText member.1 (text member.2))).length + 1 ≤ fuel) :
    readMembers fuel (commas (members.map fun member => memberText member.1 (text member.2)) ++ 0x7D :: tail) =
      some (members.map fun member => (member.1, rebuild defineAll member.2), tail) := by
  induction members generalizing fuel with
  | nil => exact absurd rfl hNil
  | cons member rest ih =>
    obtain ⟨key, item⟩ := member
    obtain ⟨hMember, hRest⟩ := List.forall_mem_cons.mp hMembers
    have hItem : Reads item := hMember
    have hKey (more : Text) : readString (memberText key (text item) ++ more) = some (key, 0x3A :: (text item ++ more)) := by
      rw [memberText, quote, List.append_assoc, List.cons_append, readString, skipSpace, List.dropWhile_cons,
        if_neg (by decide)]
      dsimp only
      rw [if_pos rfl, List.append_assoc, List.cons_append, List.nil_append, readUnits_quoteUnits]
      rfl
    have hLength : (text item).length ≤ (memberText key (text item)).length := by
      rw [memberText, List.length_append, List.length_cons]
      omega
    cases fuel with
    | zero => cases hFuel
    | succ fuel =>
      rw [List.map_cons] at hFuel ⊢
      dsimp only at hFuel ⊢
      by_cases hLast : rest = []
      · subst hLast
        rw [List.map_nil, commas_singleton] at hFuel ⊢
        rw [readMembers, hKey]
        simp only [readMark_cons (show isSpace 0x3A = false by decide), if_true]
        rw [hItem fuel _ (by omega) (ends_cons (by decide))]
        simp only [readMark_cons (show isSpace 0x7D = false by decide)]
        rfl
      · have hMap : (rest.map fun member => memberText member.1 (text member.2)) ≠ [] :=
          fun hEmpty => hLast (List.map_eq_nil_iff.mp hEmpty)
        rw [commas_cons _ _ hMap, List.length_append, List.length_cons] at hFuel
        rw [commas_cons _ _ hMap, List.append_assoc, List.cons_append, readMembers, hKey]
        simp only [readMark_cons (show isSpace 0x3A = false by decide), if_true]
        rw [hItem fuel _ (by omega) (ends_cons (by decide))]
        simp only [readMark_cons (show isSpace 0x2C = false by decide), if_true]
        rw [ih hRest hLast (by omega)]
        rfl

theorem isSpace_false {unit : Nat} (h : Numeral.isUnit unit) : isSpace unit = false := by
  rw [← Bool.not_eq_true]
  intro hSpace
  simp only [isSpace, Bool.or_eq_true, beq_iff_eq] at hSpace
  rcases hSpace with ((rfl | rfl) | rfl) | rfl <;> cases h

/-- A text begins neither with white space nor with the end of an array. -/
def Begins (text : Text) : Prop :=
  ∃ (unit : Nat) (rest : Text), text = unit :: rest ∧ isSpace unit = false ∧ unit ≠ 0x5D

theorem numeral_head (numeral : Numeral) : ∃ unit rest, numeral.text = unit :: rest ∧ Numeral.isUnit unit := by
  have hUnits := numeral_units numeral
  cases hText : numeral.text with
  | nil => exact absurd hText numeral.text_ne_nil
  | cons unit rest => exact ⟨unit, rest, rfl, hUnits unit (hText ▸ List.mem_cons_self)⟩

theorem jsonAtom_cases {value : Value} (hAtom : value.isAtom) (hJson : isJson value) :
    value = null ∨ (∃ content, value = bool content) ∨ (∃ content, value = number content) ∨
      ∃ content, value = string content := by
  rw [isJson, every_atom hAtom] at hJson
  cases value with
  | null => exact .inl rfl
  | bool content => exact .inr (.inl ⟨content, rfl⟩)
  | number content => exact .inr (.inr (.inl ⟨content, rfl⟩))
  | string content => exact .inr (.inr (.inr ⟨content, rfl⟩))
  | _ => cases hJson

theorem text_null : text null = nullText := by
  rw [text, stringify]
  rfl

theorem text_bool (value : Bool) : text (bool value) = boolText value := by
  rw [text, stringify]
  rfl

theorem text_number (value : Numeral) : text (number value) = value.text := by
  rw [text, stringify]
  rfl

theorem text_string (value : Text) : text (string value) = quote value := by
  rw [text, stringify]
  rfl

theorem text_begins {value : Value} (h : isJson value) : Begins (text value) := by
  by_cases hAtom : value.isAtom
  · obtain rfl | ⟨value, rfl⟩ | ⟨value, rfl⟩ | ⟨value, rfl⟩ := jsonAtom_cases hAtom h
    · rw [text_null]
      exact ⟨0x6E, _, rfl, rfl, by decide⟩
    · rw [text_bool]
      cases value <;> exact ⟨_, _, rfl, rfl, by decide⟩
    · obtain ⟨unit, rest, hText, hUnit⟩ := numeral_head value
      rw [text_number]
      refine ⟨unit, rest, hText, isSpace_false hUnit, ?_⟩
      rintro rfl
      cases hUnit
    · rw [text_string]
      exact ⟨0x22, _, rfl, rfl, by decide⟩
  · cases value with
    | array items =>
      rw [text_array]
      exact ⟨0x5B, _, rfl, rfl, by decide⟩
    | object members =>
      rw [text_object (isJson_object.mp h).2]
      exact ⟨0x7B, _, rfl, rfl, by decide⟩
    | _ => exact absurd rfl hAtom

theorem readValue_atom {unit fuel : Nat} {rest : Text} (hSpace : isSpace unit = false) (hString : unit ≠ 0x22)
    (hArray : unit ≠ 0x5B) (hObject : unit ≠ 0x7B) :
    readValue (fuel + 1) (unit :: rest) = readAtom (unit :: rest) := by
  rw [readValue, readMark_cons hSpace]
  dsimp only
  rw [if_neg hString, if_neg hArray, if_neg hObject]

theorem reads_atom {value : Value} (hAtom : value.isAtom) (h : isJson value) : Reads value := by
  intro fuel tail hFuel hTail
  rw [rebuild_atom hAtom]
  cases fuel with
  | zero =>
    obtain ⟨unit, rest, hText, -, -⟩ := text_begins h
    rw [hText] at hFuel
    cases hFuel
  | succ fuel =>
    clear hFuel
    obtain rfl | ⟨value, rfl⟩ | ⟨value, rfl⟩ | ⟨value, rfl⟩ := jsonAtom_cases hAtom h
    · rw [text_null]
      exact (readValue_atom rfl (by decide) (by decide) (by decide)).trans rfl
    · rw [text_bool]
      cases value <;> exact (readValue_atom rfl (by decide) (by decide) (by decide)).trans rfl
    · obtain ⟨unit, rest, hText, hUnit⟩ := numeral_head value
      rw [text_number, ← readAtom_numeral value hTail, hText]
      refine readValue_atom (isSpace_false hUnit) ?_ ?_ ?_ <;>
        · rintro rfl
          cases hUnit
    · rw [text_string, quote, List.cons_append, readValue, readMark_cons rfl]
      dsimp only
      rw [if_pos rfl, List.append_assoc, List.cons_append, List.nil_append, readUnits_quoteUnits]
      rfl

theorem reads_array {items : List Value} (hItems : ∀ item ∈ items, Reads item) (h : ∀ item ∈ items, isJson item) :
    Reads (array items) := by
  intro fuel tail hFuel _
  rw [text_array, brackets, List.length_cons, List.length_append, List.length_singleton] at hFuel
  rw [text_array, rebuild_array, brackets, List.cons_append, List.append_assoc]
  cases fuel with
  | zero => cases hFuel
  | succ fuel =>
    rw [readValue, readMark_cons rfl]
    dsimp only
    rw [if_neg (by decide), if_pos rfl]
    cases items with
    | nil => rfl
    | cons item rest =>
      have hRead : readItems fuel (commas ((item :: rest).map text) ++ 0x5D :: tail) = _ :=
        readItems_commas hItems (List.cons_ne_nil _ _) (by omega)
      obtain ⟨unit, more, hText, hSpace, hClose⟩ := text_begins (h item List.mem_cons_self)
      obtain ⟨others, hHead⟩ := commas_head (text item) (rest.map text)
      rw [List.cons_append, List.nil_append, hRead, List.map_cons, hHead, hText, List.cons_append, List.cons_append,
        readMark_cons hSpace]
      dsimp only
      rw [if_neg hClose]
      rfl

theorem reads_object {members : Members} (hMembers : ∀ member ∈ members, Reads member.2)
    (h : ∀ member ∈ members, isJson member.2) : Reads (object members) := by
  intro fuel tail hFuel _
  rw [text_object h, braces, List.length_cons, List.length_append, List.length_singleton] at hFuel
  rw [text_object h, rebuild_object, braces, List.cons_append, List.append_assoc]
  cases fuel with
  | zero => cases hFuel
  | succ fuel =>
    rw [readValue, readMark_cons rfl]
    dsimp only
    rw [if_neg (by decide), if_neg (by decide), if_pos rfl]
    cases members with
    | nil => rfl
    | cons member rest =>
      have hRead : readMembers fuel
          (commas ((member :: rest).map fun member => memberText member.1 (text member.2)) ++ 0x7D :: tail) = _ :=
        readMembers_commas hMembers (List.cons_ne_nil _ _) (by omega)
      obtain ⟨others, hHead⟩ := commas_head (memberText member.1 (text member.2))
        (rest.map fun member => memberText member.1 (text member.2))
      rw [List.cons_append, List.nil_append, hRead, List.map_cons, hHead, memberText, quote, List.cons_append,
        List.cons_append, List.cons_append, readMark_cons rfl]
      dsimp only
      rw [if_neg (by decide)]
      rfl

theorem reads_json {value : Value} (h : isJson value) : Reads value := by
  induction value using Value.induction with
  | atom value hAtom => exact reads_atom hAtom h
  | array items ih =>
    have hItems := isJson_array.mp h
    exact reads_array (fun item hItem => ih item hItem (hItems item hItem)) hItems
  | object members ih =>
    obtain ⟨-, hMembers⟩ := isJson_object.mp h
    exact reads_object (fun member hMember => ih member hMember (hMembers member hMember)) hMembers

/-- A JSON value comes back from its text, with the properties in the order of an engine. -/
theorem parse_text {value : Value} (h : isJson value) : parse (text value) = some (rebuild defineAll value) := by
  have hRead := reads_json h (2 * (text value).length + 1) [] (Nat.le_succ _) nofun
  rw [List.append_nil] at hRead
  rw [parse, hRead]
  rfl

theorem rebuild_defineAll_same {value : Value} (h : isJson value) : Same value (rebuild defineAll value) :=
  same_rebuild h fun _ hKeys => defineAll_perm (of_decide_eq_true hKeys)

/-- Values with one text are equal up to the order of keys. -/
theorem same_of_text {u v : Value} (hu : isJson u) (hv : isJson v) (h : text u = text v) : Same u v := by
  have hParse := parse_text hu
  rw [h, parse_text hv] at hParse
  have hBack := (rebuild_defineAll_same hv).symm
  rw [Option.some.inj hParse] at hBack
  exact (rebuild_defineAll_same hu).trans hBack

/-- No surrogate without its partner: the texts that UTF-8 can encode. -/
inductive WellFormed : Text → Prop where
  | nil : WellFormed []
  | unit {unit : Nat} {rest : Text} :
      isLead unit = false → isTrail unit = false → WellFormed rest → WellFormed (unit :: rest)
  | pair {lead trail : Nat} {rest : Text} :
      isLead lead → isTrail trail → WellFormed rest → WellFormed (lead :: trail :: rest)

theorem WellFormed.append {text rest : Text} (hText : WellFormed text) (hRest : WellFormed rest) :
    WellFormed (text ++ rest) := by
  induction hText with
  | nil => exact hRest
  | unit hLead hTrail _ ih => exact unit hLead hTrail ih
  | pair hLead hTrail _ ih => exact pair hLead hTrail ih

theorem wellFormed_low {text : Text} (h : ∀ unit ∈ text, unit < 0x80) : WellFormed text := by
  induction text with
  | nil => exact WellFormed.nil
  | cons unit rest ih =>
    obtain ⟨hUnit, hRest⟩ := List.forall_mem_cons.mp h
    refine WellFormed.unit ?_ ?_ (ih hRest)
    · rw [isLead, Bool.and_eq_false_iff, decide_eq_false_iff_not]
      exact .inl (by omega)
    · rw [isTrail, Bool.and_eq_false_iff, decide_eq_false_iff_not]
      exact .inl (by omega)

theorem wellFormed_quoteUnit (unit : Nat) : WellFormed (quoteUnit unit) := by
  unfold quoteUnit
  split
  · rename_i letter hShort
    refine wellFormed_low (List.forall_mem_cons.mpr ⟨by decide, List.forall_mem_singleton.mpr ?_⟩)
    unfold shortEscape? at hShort
    split_ifs at hShort <;> cases hShort <;> decide
  · split
    · have hDigit (digit : Nat) : hexDigit (digit % 16) < 0x80 := by
        rw [hexDigit]
        split <;> omega
      refine wellFormed_low ?_
      simp only [List.forall_mem_cons]
      exact ⟨by decide, by decide, hDigit _, hDigit _, hDigit _, hDigit _, nofun⟩
    · rename_i hPlain
      simp only [Bool.or_eq_true, not_or, Bool.not_eq_true] at hPlain
      exact WellFormed.unit hPlain.1.2 hPlain.2 WellFormed.nil

theorem wellFormed_quote (text : Text) : WellFormed (quote text) := by
  refine WellFormed.unit rfl rfl (WellFormed.append ?_ (WellFormed.unit rfl rfl WellFormed.nil))
  fun_induction quoteUnits text with
  | case1 => exact WellFormed.nil
  | case2 unit => exact wellFormed_quoteUnit unit
  | case3 unit next text hPair ih =>
    rw [Bool.and_eq_true] at hPair
    exact WellFormed.pair hPair.1 hPair.2 ih
  | case4 unit next text _ ih => exact (wellFormed_quoteUnit unit).append ih

theorem wellFormed_commas {texts : List Text} (h : ∀ text ∈ texts, WellFormed text) : WellFormed (commas texts) := by
  induction texts with
  | nil => exact WellFormed.nil
  | cons head tail ih =>
    obtain ⟨hHead, hTail⟩ := List.forall_mem_cons.mp h
    by_cases hLast : tail = []
    · rw [hLast, commas_singleton]
      exact hHead
    · rw [commas_cons _ _ hLast]
      exact hHead.append (WellFormed.unit rfl rfl (ih hTail))

theorem isUnit_low {unit : Nat} (h : Numeral.isUnit unit) : unit < 0x80 := by
  simp only [Numeral.isUnit, isDigit, Bool.or_eq_true, Bool.and_eq_true, decide_eq_true_eq, beq_iff_eq] at h
  omega

/-- `JSON.stringify` returns well-formed texts. -/
theorem wellFormed_text {value : Value} (h : isJson value) : WellFormed (text value) := by
  induction value using Value.induction with
  | atom value hAtom =>
    obtain rfl | ⟨value, rfl⟩ | ⟨value, rfl⟩ | ⟨value, rfl⟩ := jsonAtom_cases hAtom h
    · rw [text_null]
      exact wellFormed_low (by decide)
    · rw [text_bool]
      cases value <;> exact wellFormed_low (by decide)
    · rw [text_number]
      exact wellFormed_low fun unit hUnit => isUnit_low (numeral_units value unit hUnit)
    · rw [text_string]
      exact wellFormed_quote value
  | array items ih =>
    rw [text_array, brackets]
    refine WellFormed.unit rfl rfl ((wellFormed_commas ?_).append (WellFormed.unit rfl rfl WellFormed.nil))
    rw [List.forall_mem_map]
    exact fun item hItem => ih item hItem (isJson_array.mp h item hItem)
  | object members ih =>
    obtain ⟨-, hMembers⟩ := isJson_object.mp h
    rw [text_object hMembers, braces]
    refine WellFormed.unit rfl rfl ((wellFormed_commas ?_).append (WellFormed.unit rfl rfl WellFormed.nil))
    rw [List.forall_mem_map]
    exact fun member hMember => (wellFormed_quote member.1).append
      (WellFormed.unit rfl rfl (ih member hMember (hMembers member hMember)))

end Value
end Library
