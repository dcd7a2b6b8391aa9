import CommandConsole.Library.JsonText

/-! # Texts that delimit themselves

A scan that counts the brackets outside strings stops at the comma or the bracket after a
value. So the parts of an array or of an object are settled by its text, whatever is written
for the values in them.
-/
namespace Library
set_option autoImplicit false

namespace Value

inductive ScanMode where
  | outside
  | inside
  | escaped

/-- What is left where the scan stops. -/
def scan (depth : Nat) : ScanMode → Text → Text
  | _, [] => []
  | .escaped, _ :: rest => scan depth .inside rest
  | .inside, unit :: rest =>
    if unit = 0x5C then scan depth .escaped rest
    else if unit = 0x22 then scan depth .outside rest
    else scan depth .inside rest
  | .outside, unit :: rest =>
    if unit = 0x22 then scan depth .inside rest
    else if unit = 0x5B ∨ unit = 0x7B then scan (depth + 1) .outside rest
    else if unit = 0x5D ∨ unit = 0x7D then
      if depth = 0 then unit :: rest else scan (depth - 1) .outside rest
    else if unit = 0x2C ∧ depth = 0 then unit :: rest
    else scan depth .outside rest

/-- A scan goes over the whole text and ends where it was. -/
def Delimited (text : Text) : Prop :=
  ∀ depth tail, scan depth .outside (text ++ tail) = scan depth .outside tail

/-- A scan stops before the text. -/
def Stops (tail : Text) : Prop := scan 0 .outside tail = tail

theorem Delimited.append {text more : Text} (h : Delimited text) (hMore : Delimited more) :
    Delimited (text ++ more) := by
  intro depth tail
  rw [List.append_assoc, h, hMore]

theorem delimited_nil : Delimited [] := fun _ _ => rfl

theorem Delimited.append_inj {text other : Text} (h : Delimited text) (hOther : Delimited other) {s t : Text}
    (hs : Stops s) (ht : Stops t) (hSame : text ++ s = other ++ t) : text = other ∧ s = t := by
  have hTail : s = t := by
    rw [← hs, ← h 0 s, hSame, hOther, ht]
  subst hTail
  exact ⟨List.append_cancel_right hSame, rfl⟩

theorem stops_comma (tail : Text) : Stops (0x2C :: tail) := rfl

theorem stops_bracket (tail : Text) : Stops (0x5D :: tail) := rfl

theorem stops_brace (tail : Text) : Stops (0x7D :: tail) := rfl

/-- The units that a scan passes by outside strings, at any depth. -/
def isPlain (unit : Nat) : Bool :=
  decide (unit ≠ 0x22 ∧ unit ≠ 0x5B ∧ unit ≠ 0x7B ∧ unit ≠ 0x5D ∧ unit ≠ 0x7D ∧ unit ≠ 0x2C)

theorem delimited_plain {text : Text} (h : ∀ unit ∈ text, isPlain unit) : Delimited text := by
  induction text with
  | nil => exact delimited_nil
  | cons unit rest ih =>
    obtain ⟨hUnit, hRest⟩ := List.forall_mem_cons.mp h
    simp only [isPlain, decide_eq_true_eq] at hUnit
    intro depth tail
    rw [List.cons_append, scan, if_neg hUnit.1, if_neg (by omega), if_neg (by omega), if_neg (by omega), ih hRest]

theorem scan_quoteUnit (depth unit : Nat) (tail : Text) :
    scan depth .inside (quoteUnit unit ++ tail) = scan depth .inside tail := by
  have hPlain {unit : Nat} (rest : Text) (hSlash : unit ≠ 0x5C) (hQuote : unit ≠ 0x22) :
      scan depth .inside (unit :: rest) = scan depth .inside rest := by
    rw [scan, if_neg hSlash, if_neg hQuote]
  have hDigit (digit : Nat) : hexDigit (digit % 16) ≠ 0x5C ∧ hexDigit (digit % 16) ≠ 0x22 := by
    rw [hexDigit]
    split <;> omega
  unfold quoteUnit
  split
  · rename_i letter hShort
    rw [List.cons_append, scan, if_pos rfl]
    rfl
  · rename_i hShort
    split
    · rw [List.cons_append, scan, if_pos rfl, List.cons_append, scan, List.cons_append, List.cons_append,
        List.cons_append, List.cons_append, hPlain _ (hDigit _).1 (hDigit _).2, hPlain _ (hDigit _).1 (hDigit _).2,
        hPlain _ (hDigit _).1 (hDigit _).2, hPlain _ (hDigit _).1 (hDigit _).2]
      rfl
    · refine hPlain tail ?_ ?_ <;> rintro rfl <;> cases hShort

theorem scan_quoteUnits (depth : Nat) (text tail : Text) :
    scan depth .inside (quoteUnits text ++ tail) = scan depth .inside tail := by
  fun_induction quoteUnits text with
  | case1 => rfl
  | case2 unit => exact scan_quoteUnit depth unit tail
  | case3 unit next text hPair ih =>
    simp only [isLead, isTrail, Bool.and_eq_true, decide_eq_true_eq] at hPair
    rw [List.cons_append, List.cons_append, scan, if_neg (by omega), if_neg (by omega), scan, if_neg (by omega),
      if_neg (by omega), ih]
  | case4 unit next text _ ih => rw [List.append_assoc, scan_quoteUnit, ih]

theorem delimited_quote (text : Text) : Delimited (quote text) := by
  intro depth tail
  rw [quote, List.cons_append, scan, if_pos rfl, List.append_assoc, scan_quoteUnits, List.cons_append, scan,
    if_neg (by decide), if_pos rfl]
  rfl

theorem isPlain_of_isUnit {unit : Nat} (h : Numeral.isUnit unit) : isPlain unit := by
  simp only [Numeral.isUnit, isDigit, Bool.or_eq_true, Bool.and_eq_true, decide_eq_true_eq, beq_iff_eq] at h
  simp only [isPlain, decide_eq_true_eq]
  omega

theorem delimited_stringify {value : Value} (hAtom : value.isAtom) {text : Text} (h : stringify value = some text) :
    Delimited text := by
  cases value <;> rw [stringify] at h
  case array => cases hAtom
  case object => cases hAtom
  case undefined => cases h
  case function => cases h
  all_goals
    rw [Option.some_inj] at h
    subst h
  case null => exact delimited_plain (by decide)
  case notFinite => exact delimited_plain (by decide)
  case bool value => cases value <;> exact delimited_plain (by decide)
  case number value => exact delimited_plain fun unit hUnit => isPlain_of_isUnit (numeral_units value unit hUnit)
  case string value => exact delimited_quote value
  case date iso => exact delimited_quote iso

theorem wellFormed_stringify {value : Value} (hAtom : value.isAtom) {text : Text} (h : stringify value = some text) :
    WellFormed text := by
  cases value <;> rw [stringify] at h
  case array => cases hAtom
  case object => cases hAtom
  case undefined => cases h
  case function => cases h
  all_goals
    rw [Option.some_inj] at h
    subst h
  case null => exact wellFormed_low (by decide)
  case notFinite => exact wellFormed_low (by decide)
  case bool value => cases value <;> exact wellFormed_low (by decide)
  case number value => exact wellFormed_low fun unit hUnit => isUnit_low (numeral_units value unit hUnit)
  case string value => exact wellFormed_quote value
  case date iso => exact wellFormed_quote iso

theorem scan_commas {texts : List Text} (h : ∀ text ∈ texts, Delimited text) (depth : Nat) (tail : Text) :
    scan (depth + 1) .outside (commas texts ++ tail) = scan (depth + 1) .outside tail := by
  induction texts with
  | nil => rfl
  | cons head rest ih =>
    obtain ⟨hHead, hRest⟩ := List.forall_mem_cons.mp h
    by_cases hLast : rest = []
    · rw [hLast, commas_singleton, hHead]
    · rw [commas_cons _ _ hLast, List.append_assoc, hHead, List.cons_append, scan, if_neg (by decide),
        if_neg (by decide), if_neg (by decide), if_neg (by simp), ih hRest]

theorem delimited_brackets {texts : List Text} (h : ∀ text ∈ texts, Delimited text) : Delimited (brackets texts) := by
  intro depth tail
  rw [brackets, List.cons_append, scan, if_neg (by decide), if_pos (by decide), List.append_assoc, scan_commas h,
    List.cons_append, scan, if_neg (by decide), if_neg (by decide), if_pos (by decide)]
  rfl

theorem delimited_braces {texts : List Text} (h : ∀ text ∈ texts, Delimited text) : Delimited (braces texts) := by
  intro depth tail
  rw [braces, List.cons_append, scan, if_neg (by decide), if_pos (by decide), List.append_assoc, scan_commas h,
    List.cons_append, scan, if_neg (by decide), if_neg (by decide), if_pos (by decide)]
  rfl

theorem delimited_memberText {key text : Text} (h : Delimited text) : Delimited (memberText key text) := by
  rw [memberText, List.append_cons]
  refine (Delimited.append (delimited_quote key) (delimited_plain ?_)).append h
  rw [List.forall_mem_singleton]
  rfl

/-- Commas between delimited texts settle the texts, but for one blank text and none. -/
theorem commas_inj {texts others : List Text} (h : ∀ text ∈ texts, Delimited text)
    (hOthers : ∀ text ∈ others, Delimited text) (hLength : texts = [] ↔ others = []) {s t : Text} (hs : Stops s)
    (ht : Stops t) (hClose : s.head? ≠ some 0x2C) (hClose' : t.head? ≠ some 0x2C)
    (hSame : commas texts ++ s = commas others ++ t) : texts = others ∧ s = t := by
  induction texts generalizing others with
  | nil =>
    obtain rfl := hLength.mp rfl
    exact ⟨rfl, hSame⟩
  | cons text rest ih =>
    obtain ⟨hText, hRest⟩ := List.forall_mem_cons.mp h
    cases others with
    | nil => exact absurd (hLength.mpr rfl) (List.cons_ne_nil _ _)
    | cons other rest' =>
      obtain ⟨hOther, hRest'⟩ := List.forall_mem_cons.mp hOthers
      by_cases hLast : rest = [] <;> by_cases hLast' : rest' = []
      · rw [hLast, hLast', commas_singleton, commas_singleton] at hSame
        obtain ⟨rfl, hTail⟩ := hText.append_inj hOther hs ht hSame
        exact ⟨by rw [hLast, hLast'], hTail⟩
      · rw [hLast, commas_singleton, commas_cons _ _ hLast', List.append_assoc, List.cons_append] at hSame
        obtain ⟨-, hTail⟩ := hText.append_inj hOther hs (stops_comma _) hSame
        exact absurd (by rw [hTail]; rfl) hClose
      · rw [hLast', commas_singleton, commas_cons _ _ hLast, List.append_assoc, List.cons_append] at hSame
        obtain ⟨-, hTail⟩ := hText.append_inj hOther (stops_comma _) ht hSame
        exact absurd (by rw [← hTail]; rfl) hClose'
      · rw [commas_cons _ _ hLast, commas_cons _ _ hLast', List.append_assoc, List.append_assoc, List.cons_append,
          List.cons_append] at hSame
        obtain ⟨rfl, hTail⟩ := hText.append_inj hOther (stops_comma _) (stops_comma _) hSame
        obtain ⟨rfl, hEnd⟩ := ih hRest hRest' (by simp only [hLast, hLast'])
          (List.cons_inj_right _ |>.mp hTail)
        exact ⟨rfl, hEnd⟩

theorem commas_eq_nil {texts : List Text} (h : ∀ text ∈ texts, text ≠ []) (hNil : commas texts = []) : texts = [] := by
  cases texts with
  | nil => rfl
  | cons head rest =>
    obtain ⟨more, hMore⟩ := commas_head head rest
    rw [hMore, List.append_eq_nil_iff] at hNil
    exact absurd hNil.1 (h head List.mem_cons_self)

/-- The commas in a list of texts none of which is blank settle them. -/
theorem commas_closed_inj {texts others : List Text} (h : ∀ text ∈ texts, Delimited text ∧ text ≠ [])
    (hOthers : ∀ text ∈ others, Delimited text ∧ text ≠ []) {unit : Nat} (hUnit : Stops [unit])
    (hComma : unit ≠ 0x2C) (hSame : commas texts ++ [unit] = commas others ++ [unit]) : texts = others := by
  have hCommas := List.append_cancel_right hSame
  have hHead : [unit].head? ≠ some 0x2C := fun hBad => hComma (Option.some.inj hBad)
  refine (commas_inj (fun text hText => (h text hText).1) (fun text hText => (hOthers text hText).1) ⟨?_, ?_⟩
    hUnit hUnit hHead hHead hSame).1
  · rintro rfl
    exact commas_eq_nil (fun text hText => (hOthers text hText).2) hCommas.symm
  · rintro rfl
    exact commas_eq_nil (fun text hText => (h text hText).2) hCommas

theorem quote_inj {key other : Text} {s t : Text} (h : quote key ++ s = quote other ++ t) : key = other ∧ s = t := by
  rw [quote, quote, List.cons_append, List.cons_append, List.cons_inj_right, List.append_assoc, List.append_assoc] at h
  have hKey := readUnits_quoteUnits key s
  rw [List.cons_append, List.nil_append, List.cons_append, List.nil_append] at h
  rw [h, readUnits_quoteUnits, Option.some_inj, Prod.mk.injEq] at hKey
  exact ⟨hKey.1.symm, hKey.2.symm⟩

theorem memberText_inj {key other text more : Text} (h : memberText key text = memberText other more) :
    key = other ∧ text = more := by
  rw [memberText, memberText] at h
  obtain ⟨hKey, hText⟩ := quote_inj h
  exact ⟨hKey, List.cons_inj_right _ |>.mp hText⟩

/-- The text of an object settles its keys, their order and the texts of its values. -/
theorem braces_inj {members others : List (Text × Text)} (h : ∀ member ∈ members, Delimited member.2)
    (hOthers : ∀ member ∈ others, Delimited member.2)
    (hSame : braces (members.map fun member => memberText member.1 member.2) =
      braces (others.map fun member => memberText member.1 member.2)) : members = others := by
  have hTexts {members : List (Text × Text)} (h : ∀ member ∈ members, Delimited member.2) :
      ∀ text ∈ members.map fun member => memberText member.1 member.2, Delimited text ∧ text ≠ [] := by
    rw [List.forall_mem_map]
    exact fun member hMember => ⟨delimited_memberText (h member hMember), List.cons_ne_nil _ _⟩
  rw [braces, braces, List.cons_inj_right] at hSame
  refine List.map_injective_iff.mpr ?_ (commas_closed_inj (hTexts h) (hTexts hOthers) (stops_brace []) (by decide) hSame)
  intro member other hMember
  obtain ⟨hKey, hText⟩ := memberText_inj hMember
  exact Prod.ext hKey hText

theorem brackets_inj {texts others : List Text} (h : ∀ text ∈ texts, Delimited text ∧ text ≠ [])
    (hOthers : ∀ text ∈ others, Delimited text ∧ text ≠ []) (hSame : brackets texts = brackets others) :
    texts = others := by
  rw [brackets, brackets, List.cons_inj_right] at hSame
  exact commas_closed_inj h hOthers (stops_bracket []) (by decide) hSame

end Value
end Library
