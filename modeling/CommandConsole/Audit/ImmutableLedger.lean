import CommandConsole.Audit.EvidenceHashing
import CommandConsole.Library.HashChain
import CommandConsole.Library.JsonRoundTrip

/-! # The immutable audit ledger

An entry carries the hash of its payload, of the entry before it and of its scope. The
verifier reads the hashes that the entries carry and computes none, so it notices a broken
link and no changed payload.
-/
namespace CommandConsole.Audit
open Library Value
set_option autoImplicit false

section Ledger

variable (localeCompare : Text → Text → Int) (sha256 : Text → Text)

/-- A value as JavaScript has them, no object with a key twice. -/
structure Evidence where
  value : Value
  distinct : distinctKeys value = true

structure ImmutableAuditLedgerEntry where
  ledgerId : Text
  previousHash : Option Text
  entryHash : Text
  payload : Evidence

def nullable (text : Option Text) : Value := text.elim null string

/-- What is hashed for an entry. -/
def hashedFields (payload : Value) (previousHash : Option Text) (scope : Text) : Members :=
  [(units "previousHash", nullable previousHash), (units "payload", payload), (units "scope", string scope)]

def appendImmutableLedgerEntry (payload : Evidence) (previousHash : Option Text) (scope : Text) :
    Option ImmutableAuditLedgerEntry :=
  (hashEvidence localeCompare sha256 (object (hashedFields payload.value previousHash scope))).map fun entryHash =>
    ⟨units "ledger:" ++ scope ++ units ":" ++ entryHash.take 16, previousHash, entryHash, payload⟩

def verifyImmutableLedgerChain (entries : List ImmutableAuditLedgerEntry) : Bool :=
  entries.zipIdx.all fun (entry, index) =>
    if index = 0 then entry.previousHash = none
    else entry.previousHash = (entries[index - 1]?).map ImmutableAuditLedgerEntry.entryHash

/-- `appendProposalStateAuditEntry` and its kin: the last entry's hash is the next one's previous hash. -/
def appendAuditEntry (scope : Text) (existing : List ImmutableAuditLedgerEntry) (record : Evidence) :
    Option (List ImmutableAuditLedgerEntry) :=
  (appendImmutableLedgerEntry localeCompare sha256 record
    (existing.getLast?.map ImmutableAuditLedgerEntry.entryHash) scope).map fun entry => existing ++ [entry]

def buildLedger (scope : Text) (records : List Evidence) : Option (List ImmutableAuditLedgerEntry) :=
  records.foldlM (appendAuditEntry localeCompare sha256 scope) []

end Ledger

section Storage

def ImmutableAuditLedgerEntry.toValue (entry : ImmutableAuditLedgerEntry) : Value :=
  object [(units "ledgerId", string entry.ledgerId), (units "previousHash", nullable entry.previousHash),
    (units "entryHash", string entry.entryHash), (units "payload", entry.payload.value)]

def field (key : Text) (members : Members) : Value :=
  ((members.find? fun member => member.1 = key).map Prod.snd).getD undefined

def textOf? : Value → Option Text
  | string text => some text
  | _ => none

def nullableOf? : Value → Option (Option Text)
  | null => some none
  | string text => some (some text)
  | _ => none

def evidenceOf? (value : Value) : Option Evidence :=
  if distinct : distinctKeys value = true then some ⟨value, distinct⟩ else none

/-- None where the value is no entry. -/
def readEntry : Value → Option ImmutableAuditLedgerEntry
  | object members => do
    let ledgerId ← textOf? (field (units "ledgerId") members)
    let previousHash ← nullableOf? (field (units "previousHash") members)
    let entryHash ← textOf? (field (units "entryHash") members)
    let payload ← evidenceOf? (field (units "payload") members)
    some ⟨ledgerId, previousHash, entryHash, payload⟩
  | _ => none

def readEntries : Value → Option (List ImmutableAuditLedgerEntry)
  | array items => items.mapM readEntry
  | _ => none

/-- `JSON.parse(JSON.stringify(entries))`. -/
def storeAndLoad (entries : List ImmutableAuditLedgerEntry) : Option (List ImmutableAuditLedgerEntry) :=
  ((stringify (array (entries.map ImmutableAuditLedgerEntry.toValue))).bind parse).bind readEntries

end Storage

section Chain

abbrev LinkedEntries (entries : List ImmutableAuditLedgerEntry) : Prop :=
  Linked ImmutableAuditLedgerEntry.previousHash ImmutableAuditLedgerEntry.entryHash none entries

theorem verify_iff {entries : List ImmutableAuditLedgerEntry} :
    verifyImmutableLedgerChain entries = true ↔ LinkedEntries entries := by
  rw [LinkedEntries, linked_iff_getElem?, verifyImmutableLedgerChain, List.all_eq_true]
  constructor
  · intro hAll i entry hEntry
    have hOne := hAll (entry, i) (List.mk_mem_zipIdx_iff_getElem?.mpr hEntry)
    dsimp only at hOne
    split
    · rename_i hFirst
      rwa [if_pos hFirst, decide_eq_true_eq] at hOne
    · rename_i hLater
      rwa [if_neg hLater, decide_eq_true_eq] at hOne
  · rintro hLinked ⟨entry, i⟩ hMem
    have hOne := hLinked i entry (List.mk_mem_zipIdx_iff_getElem?.mp hMem)
    dsimp only
    split
    · rename_i hFirst
      rwa [if_pos hFirst, ← decide_eq_true_eq (p := entry.previousHash = none)] at hOne
    · rename_i hLater
      rwa [if_neg hLater, ← decide_eq_true_eq (p := _ = _)] at hOne

variable (localeCompare : Text → Text → Int) (sha256 : Text → Text)

/-- An entry that holds what the append makes of its payload and its previous hash in some scope. -/
def Genuine (entry : ImmutableAuditLedgerEntry) : Prop :=
  ∃ scope, appendImmutableLedgerEntry localeCompare sha256 entry.payload entry.previousHash scope = some entry

theorem appendImmutableLedgerEntry_eq (payload : Evidence) (previousHash : Option Text) (scope : Text) :
    ∃ entry, appendImmutableLedgerEntry localeCompare sha256 payload previousHash scope = some entry ∧
      entry.payload = payload ∧ entry.previousHash = previousHash := by
  rw [appendImmutableLedgerEntry, hashEvidence, stableSerialize_object]
  exact ⟨_, rfl, rfl, rfl⟩

/-- Records are appended to any ledger; the entries are genuine and the ledger stays a chain. -/
theorem appendAuditEntries (scope : Text) (records : List Evidence) (existing : List ImmutableAuditLedgerEntry) :
    ∃ more, records.foldlM (appendAuditEntry localeCompare sha256 scope) existing = some (existing ++ more) ∧
      (LinkedEntries existing → LinkedEntries (existing ++ more)) ∧
        more.map ImmutableAuditLedgerEntry.payload = records ∧ ∀ entry ∈ more, Genuine localeCompare sha256 entry := by
  induction records generalizing existing with
  | nil => exact ⟨[], by rw [List.append_nil]; rfl, by rw [List.append_nil]; exact id, rfl, fun entry hMem => by cases hMem⟩
  | cons record records ih =>
    obtain ⟨entry, hEntry, rfl, hPrevious⟩ := appendImmutableLedgerEntry_eq localeCompare sha256 record
      (existing.getLast?.map ImmutableAuditLedgerEntry.entryHash) scope
    obtain ⟨more, hMore, hLinked, hPayloads, hGenuine⟩ := ih (existing ++ [entry])
    rw [List.append_assoc] at hMore hLinked
    refine ⟨entry :: more, ?_, fun hExisting => hLinked (linked_concat.mpr ⟨hExisting, hPrevious⟩),
      by rw [List.map_cons, hPayloads], ?_⟩
    · rw [List.foldlM_cons, appendAuditEntry, hEntry]
      exact hMore
    · exact List.forall_mem_cons.mpr ⟨⟨scope, by rw [hPrevious, hEntry]⟩, hGenuine⟩

theorem buildLedger_linked (scope : Text) (records : List Evidence) :
    ∃ entries, buildLedger localeCompare sha256 scope records = some entries ∧ LinkedEntries entries := by
  obtain ⟨more, hMore, hLinked, -⟩ := appendAuditEntries localeCompare sha256 scope records []
  exact ⟨more, hMore, hLinked trivial⟩

end Chain

section Loading

/-- What the verifier reads of an entry. -/
def ImmutableAuditLedgerEntry.hashes (entry : ImmutableAuditLedgerEntry) : Option Text × Text :=
  (entry.previousHash, entry.entryHash)

theorem verify_of_hashes {entries others : List ImmutableAuditLedgerEntry}
    (h : entries.map ImmutableAuditLedgerEntry.hashes = others.map ImmutableAuditLedgerEntry.hashes) :
    verifyImmutableLedgerChain entries = verifyImmutableLedgerChain others := by
  have hMap (list : List ImmutableAuditLedgerEntry) :
      Linked Prod.fst Prod.snd none (list.map ImmutableAuditLedgerEntry.hashes) ↔ LinkedEntries list := linked_map
  rw [Bool.eq_iff_iff, verify_iff, verify_iff, ← hMap, ← hMap, h]

theorem field_cons_self (key : Text) (value : Value) (members : Members) : field key ((key, value) :: members) = value := by
  rw [field, List.find?_cons_of_pos (by simp)]
  rfl

theorem field_cons_of_ne {key other : Text} (h : other ≠ key) (value : Value) (members : Members) :
    field key ((other, value) :: members) = field key members := by
  rw [field, List.find?_cons_of_neg (by simpa using h)]
  rfl

theorem kept_string (text : Text) : kept (string text) = some (string text) := by rw [kept]

theorem kept_nullable (text : Option Text) : kept (nullable text) = some (nullable text) := by
  cases text <;> rw [nullable, Option.elim, kept]

theorem rebuild_nullable (f : Members → Members) (text : Option Text) : rebuild f (nullable text) = nullable text := by
  cases text <;> exact rebuild_atom rfl

theorem distinctKeys_toValue (entry : ImmutableAuditLedgerEntry) : distinctKeys entry.toValue = true := by
  refine every_object.mpr ⟨show decide (List.Nodup [units "ledgerId", units "previousHash", units "entryHash",
    units "payload"]) = true by decide +kernel, ?_⟩
  simp only [List.forall_mem_cons]
  refine ⟨every_atom rfl, ?_, every_atom rfl, entry.payload.distinct, fun member hMember => absurd hMember List.not_mem_nil⟩
  cases entry.previousHash <;> exact every_atom rfl

theorem readEntry_object (ledgerId entryHash : Text) (previousHash : Option Text) {rest : Members}
    (hRest : distinctKeys (field (units "payload") rest) = true) :
    readEntry (object ((units "ledgerId", string ledgerId) :: (units "previousHash", nullable previousHash) ::
      (units "entryHash", string entryHash) :: rest)) =
        some ⟨ledgerId, previousHash, entryHash, ⟨field (units "payload") rest, hRest⟩⟩ := by
  have hPrevious : nullableOf? (nullable previousHash) = some previousHash := by cases previousHash <;> rfl
  dsimp only [readEntry]
  rw [field_cons_self, field_cons_of_ne (by decide), field_cons_self, field_cons_of_ne (by decide),
    field_cons_of_ne (by decide), field_cons_self, field_cons_of_ne (by decide), field_cons_of_ne (by decide),
    field_cons_of_ne (by decide), hPrevious, evidenceOf?, dif_pos hRest]
  rfl

theorem readEntry_rebuild (ledgerId entryHash : Text) (previousHash : Option Text) (rest : Members)
    (hKeys : Enumerated ((units "ledgerId", string ledgerId) :: (units "previousHash", nullable previousHash) ::
      (units "entryHash", string entryHash) :: rest))
    (hRest : distinctKeys (field (units "payload") (rest.map fun member => (member.1, rebuild defineAll member.2)))) :
    ∃ loaded, readEntry (rebuild defineAll (object ((units "ledgerId", string ledgerId) ::
      (units "previousHash", nullable previousHash) :: (units "entryHash", string entryHash) :: rest))) = some loaded ∧
        loaded.hashes = (previousHash, entryHash) := by
  refine ⟨⟨ledgerId, previousHash, entryHash, ⟨_, hRest⟩⟩, ?_, rfl⟩
  have hLedgerId : rebuild defineAll (string ledgerId) = string ledgerId := rebuild_atom rfl
  have hEntryHash : rebuild defineAll (string entryHash) = string entryHash := rebuild_atom rfl
  rw [rebuild_object, defineAll_eq, List.map_cons, List.map_cons, List.map_cons, rebuild_nullable, hLedgerId, hEntryHash]
  · exact readEntry_object ledgerId entryHash previousHash hRest
  · rw [Enumerated, rebuild_keys]
    exact hKeys

/-- The hashes of an entry survive its storage, whatever its payload. -/
theorem readEntry_kept (entry : ImmutableAuditLedgerEntry) :
    ∃ left loaded, kept entry.toValue = some left ∧ readEntry (rebuild defineAll left) = some loaded ∧
      loaded.hashes = entry.hashes := by
  have hKept := @kept_object [(units "ledgerId", string entry.ledgerId),
    (units "previousHash", nullable entry.previousHash), (units "entryHash", string entry.entryHash),
    (units "payload", entry.payload.value)]
  simp only [List.filterMap_cons, kept_string, kept_nullable, Option.map_some, List.filterMap_nil] at hKept
  cases hPayload : kept entry.payload.value with
  | none =>
    rw [hPayload] at hKept
    obtain ⟨loaded, hLoaded⟩ := readEntry_rebuild entry.ledgerId entry.entryHash entry.previousHash [] (by
      show List.Pairwise _ [units "ledgerId", units "previousHash", units "entryHash"]
      decide +kernel) (every_atom rfl)
    exact ⟨_, loaded, hKept, hLoaded⟩
  | some left =>
    rw [hPayload] at hKept
    have hJson := isJson_kept entry.payload.distinct hPayload
    have hLeft : distinctKeys (rebuild defineAll left) := distinctKeys_rebuild hJson
    obtain ⟨loaded, hLoaded⟩ := readEntry_rebuild entry.ledgerId entry.entryHash entry.previousHash
      [(units "payload", left)] (by
        show List.Pairwise _ [units "ledgerId", units "previousHash", units "entryHash", units "payload"]
        decide +kernel) (by rw [List.map_singleton, field_cons_self]; exact hLeft)
    exact ⟨_, loaded, hKept, hLoaded⟩

theorem storeAndLoad_hashes (entries : List ImmutableAuditLedgerEntry) :
    ∃ loaded, storeAndLoad entries = some loaded ∧
      loaded.map ImmutableAuditLedgerEntry.hashes = entries.map ImmutableAuditLedgerEntry.hashes := by
  have hDistinct : distinctKeys (array (entries.map ImmutableAuditLedgerEntry.toValue)) = true :=
    every_array.mpr (List.forall_mem_map.mpr fun entry _ => distinctKeys_toValue entry)
  rw [storeAndLoad, readBack hDistinct, kept_array, Option.map_some, Option.bind_some, rebuild_array, List.map_map,
    List.map_map, readEntries]
  induction entries with
  | nil => exact ⟨[], rfl, rfl⟩
  | cons entry entries ih =>
    obtain ⟨left, first, hKept, hFirst, hHashes⟩ := readEntry_kept entry
    obtain ⟨loaded, hLoaded, hRest⟩ := ih (every_array.mpr (List.forall_mem_map.mpr fun entry _ => distinctKeys_toValue entry))
    refine ⟨first :: loaded, ?_, by rw [List.map_cons, List.map_cons, hHashes, hRest]⟩
    rw [List.map_cons, List.mapM_cons, hLoaded]
    simp only [Function.comp_apply, hKept, Option.getD_some, hFirst, Option.bind_eq_bind, Option.bind_some, Option.pure_def]

end Loading

section TamperEvidence

variable {localeCompare : Text → Text → Int} {sha256 : Text → Text}

/-- Two entries between which no hash tells. -/
structure SameEntry (localeCompare : Text → Text → Int) (entry other : ImmutableAuditLedgerEntry) : Prop where
  ledgerId : entry.ledgerId = other.ledgerId
  previousHash : entry.previousHash = other.previousHash
  entryHash : entry.entryHash = other.entryHash
  payload : memberEvidence localeCompare entry.payload.value = memberEvidence localeCompare other.payload.value

theorem append_eq_some {payload : Evidence} {previousHash : Option Text} {scope : Text}
    {entry : ImmutableAuditLedgerEntry}
    (h : appendImmutableLedgerEntry localeCompare sha256 payload previousHash scope = some entry) :
    ∃ text, stableSerialize localeCompare (object (hashedFields payload.value previousHash scope)) = some text ∧
      entry = ⟨units "ledger:" ++ scope ++ units ":" ++ (sha256 text).take 16, previousHash, sha256 text, payload⟩ := by
  rw [appendImmutableLedgerEntry, hashEvidence, Option.map_map, Option.map_eq_some_iff] at h
  obtain ⟨text, hText, rfl⟩ := h
  exact ⟨text, hText, rfl⟩

theorem hashedFields_keys (payload : Value) (previousHash : Option Text) (scope : Text) :
    ((hashedFields payload previousHash scope).map Prod.fst).Nodup :=
  show List.Nodup [units "previousHash", units "payload", units "scope"] by decide

theorem memberEvidence_string (text : Text) : memberEvidence localeCompare (string text) = quote text := by
  rw [memberEvidence, stableSerialize_atom localeCompare rfl fun iso hDate => Value.noConfusion hDate, stringify,
    Option.getD_some]

theorem memberEvidence_null : memberEvidence localeCompare null = nullText := by
  rw [memberEvidence, stableSerialize_atom localeCompare rfl fun iso hDate => Value.noConfusion hDate, stringify,
    Option.getD_some]

theorem string_inj {text other : Text}
    (h : memberEvidence localeCompare (string text) = memberEvidence localeCompare (string other)) : text = other := by
  rw [memberEvidence_string, memberEvidence_string] at h
  exact (quote_inj (congrArg (· ++ []) h)).1

theorem nullable_inj {text other : Option Text}
    (h : memberEvidence localeCompare (nullable text) = memberEvidence localeCompare (nullable other)) :
    text = other := by
  cases text with
  | none =>
    cases other with
    | none => rfl
    | some other =>
      rw [nullable, nullable, Option.elim, Option.elim, memberEvidence_null, memberEvidence_string] at h
      exact absurd (List.cons.inj h).1 (by decide)
  | some text =>
    cases other with
    | none =>
      rw [nullable, nullable, Option.elim, Option.elim, memberEvidence_null, memberEvidence_string] at h
      exact absurd (List.cons.inj h).1 (by decide)
    | some other => exact congrArg some (string_inj h)

/-- The hash of a genuine entry settles the entry, as far as hashes tell. -/
theorem Genuine.sameEntry (hCollisionFree : ∀ s t, WellFormed s → WellFormed t → sha256 s = sha256 t → s = t)
    {entry other : ImmutableAuditLedgerEntry} (h : Genuine localeCompare sha256 entry)
    (hOther : Genuine localeCompare sha256 other) (hHash : entry.entryHash = other.entryHash) :
    SameEntry localeCompare entry other := by
  obtain ⟨scope, hEntry⟩ := h
  obtain ⟨scope', hEntry'⟩ := hOther
  obtain ⟨text, hText, hFields⟩ := append_eq_some hEntry
  obtain ⟨text', hText', hFields'⟩ := append_eq_some hEntry'
  have hSame : text = text' := by
    refine hCollisionFree text text' (wellFormed_evidence localeCompare hText) (wellFormed_evidence localeCompare hText') ?_
    rw [hFields, hFields'] at hHash
    exact hHash
  have hPart {key : Text} {value value' : Value}
      (hIn : (key, value) ∈ hashedFields entry.payload.value entry.previousHash scope)
      (hIn' : (key, value') ∈ hashedFields other.payload.value other.previousHash scope') :
      memberEvidence localeCompare value = memberEvidence localeCompare value' :=
    memberEvidence_eq localeCompare (hText.trans (hSame ▸ hText'.symm)) hIn hIn' (hashedFields_keys _ _ _)
  have hPrevious := nullable_inj (hPart (.head _) (.head _))
  have hScope := string_inj (hPart (.tail _ (.tail _ (.head _))) (.tail _ (.tail _ (.head _))))
  refine ⟨?_, hPrevious, hHash, hPart (.tail _ (.head _)) (.tail _ (.head _))⟩
  rw [hFields, hFields', hSame, hScope]

theorem SameEntry.genuine {entry other : ImmutableAuditLedgerEntry} (hSame : SameEntry localeCompare entry other)
    (h : Genuine localeCompare sha256 entry) : Genuine localeCompare sha256 other := by
  obtain ⟨scope, hEntry⟩ := h
  obtain ⟨text, hText, hFields⟩ := append_eq_some hEntry
  have hOther : stableSerialize localeCompare (object (hashedFields other.payload.value other.previousHash scope)) =
      some text := by
    rw [← hText, ← hSame.previousHash, stableSerialize_object, stableSerialize_object]
    simp only [hashedFields, List.map_cons, List.map_nil, hSame.payload]
  refine ⟨scope, ?_⟩
  rw [appendImmutableLedgerEntry, hashEvidence, hOther, Option.map_some, Option.map_some, Option.some_inj]
  obtain ⟨ledgerId, previousHash, entryHash, payload⟩ := other
  have hLedgerId := hSame.ledgerId
  have hHash := hSame.entryHash
  rw [hFields] at hLedgerId hHash
  exact ImmutableAuditLedgerEntry.mk.injEq .. |>.mpr ⟨hLedgerId, rfl, hHash, rfl⟩

/-- Appended chains are accepted, also when they were stored as JSON. An accepted chain that ends in
the hash of a genuine one is that chain, as far as hashes tell, exactly when its own entries are
genuine, which the verifier does not look at. -/
theorem immutable_ledger_evidence (hCollisionFree : ∀ s t, WellFormed s → WellFormed t → sha256 s = sha256 t → s = t) :
    (∀ scope records, ∃ entries loaded, buildLedger localeCompare sha256 scope records = some entries ∧
      verifyImmutableLedgerChain entries = true ∧ storeAndLoad entries = some loaded ∧
        verifyImmutableLedgerChain loaded = true) ∧
    (∀ entries others : List ImmutableAuditLedgerEntry, verifyImmutableLedgerChain entries = true →
      verifyImmutableLedgerChain others = true →
        entries.getLast?.map ImmutableAuditLedgerEntry.entryHash = others.getLast?.map ImmutableAuditLedgerEntry.entryHash →
          (∀ entry ∈ entries, Genuine localeCompare sha256 entry) →
            (List.Forall₂ (SameEntry localeCompare) entries others ↔
              ∀ other ∈ others, Genuine localeCompare sha256 other)) ∧
    ∀ u v, isProperty u = true → isProperty v = true → memberEvidence localeCompare u = memberEvidence localeCompare v →
      Same u v := by
  refine ⟨fun scope records => ?_, fun entries others hEntries hOthers hLast hGenuine => ⟨fun hSame => ?_, fun hGenuine' => ?_⟩,
    fun u v hu hv => same_of_evidence localeCompare hu hv⟩
  · obtain ⟨entries, hBuilt, hLinked⟩ := buildLedger_linked localeCompare sha256 scope records
    obtain ⟨loaded, hLoaded, hHashes⟩ := storeAndLoad_hashes entries
    exact ⟨entries, loaded, hBuilt, verify_iff.mpr hLinked, hLoaded, by
      rw [verify_of_hashes hHashes]
      exact verify_iff.mpr hLinked⟩
  · intro other hMem
    obtain ⟨entry, hEntry, hOne⟩ := exists_mem_of_forall₂ hSame hMem
    exact hOne.genuine (hGenuine entry hEntry)
  · exact forall₂_of_lastHash (P := Genuine localeCompare sha256) (Q := Genuine localeCompare sha256)
      (fun entry other hEntry hOther hHash =>
        have hOne := Genuine.sameEntry hCollisionFree hEntry hOther hHash
        ⟨hOne.previousHash, hOne⟩)
      (verify_iff.mp hEntries) (verify_iff.mp hOthers) hGenuine hGenuine' hLast

/-- Letters compare as their code units do. -/
def compareUnits (a b : Text) : Int := if a < b then -1 else if a = b then 0 else 1

def auditText : Text := units "\x7b\"payload\":\x7b\"a\":1\x7d,\"previousHash\":null,\"scope\":\"audit\"\x7d"

def auditHash : Text := units "d304b2db3e0ab2f06879b222827687c6bebd415134848152bd464b7592d4271d"

/-- A hash with its true value on one text. -/
def tabledSha256 (text : Text) : Text := if text = auditText then auditHash else 0x78 :: text

theorem tabledSha256_injective : Function.Injective tabledSha256 := by
  intro s t hSame
  unfold tabledSha256 at hSame
  split at hSame <;> split at hSame
  · rename_i hs ht
    rw [hs, ht]
  · exact absurd (List.cons.inj hSame).1 (by decide)
  · exact absurd (List.cons.inj hSame).1 (by decide)
  · exact (List.cons.inj hSame).2

def one : Value := number ⟨units "1", Numeral.accepts_one⟩

def honest : Evidence := ⟨object [(units "a", one)], by decide +kernel⟩

def forged : Evidence := ⟨object [(units "a", null)], by decide +kernel⟩

def auditEntry (payload : Evidence) : ImmutableAuditLedgerEntry :=
  ⟨units "ledger:audit:d304b2db3e0ab2f0", none, auditHash, payload⟩

theorem append_honest :
    appendImmutableLedgerEntry compareUnits tabledSha256 honest none (units "audit") = some (auditEntry honest) := by
  have hText : stableSerialize compareUnits (object (hashedFields honest.value none (units "audit"))) = some auditText := by
    decide +kernel
  have hHash : tabledSha256 auditText = auditHash := if_pos rfl
  rw [auditEntry, appendImmutableLedgerEntry, hashEvidence, hText, Option.map_some, Option.map_some, hHash]
  rfl

theorem genuine_honest : Genuine compareUnits tabledSha256 (auditEntry honest) := ⟨units "audit", append_honest⟩

theorem immutable_ledger_evidence_one :
    List.Forall₂ (SameEntry compareUnits) [auditEntry honest] [auditEntry honest] :=
  ((@immutable_ledger_evidence compareUnits tabledSha256 fun _ _ _ _ hSame => tabledSha256_injective hSame).2.1
    [auditEntry honest] [auditEntry honest] (by decide +kernel) (by decide +kernel) rfl
      (List.forall_mem_singleton.mpr genuine_honest)).mpr (List.forall_mem_singleton.mpr genuine_honest)

/-- The payload of an entry is replaced, and the chain is accepted with the hash that it had. -/
theorem forged_payload_accepted :
    buildLedger compareUnits tabledSha256 (units "audit") [honest] = some [auditEntry honest] ∧
      verifyImmutableLedgerChain [auditEntry honest] = true ∧ verifyImmutableLedgerChain [auditEntry forged] = true ∧
        [auditEntry honest].getLast?.map ImmutableAuditLedgerEntry.entryHash =
          [auditEntry forged].getLast?.map ImmutableAuditLedgerEntry.entryHash ∧
          [auditEntry honest] ≠ [auditEntry forged] := by
  refine ⟨?_, by decide +kernel, by decide +kernel, rfl, fun hSame => ?_⟩
  · rw [buildLedger, List.foldlM_cons, appendAuditEntry, List.getLast?_nil, Option.map_none, append_honest]
    rfl
  · have hPayload := congrArg (fun entry => entry.payload.value) (List.cons.inj hSame).1
    have hMember := (List.cons.inj (Value.object.inj hPayload)).1
    cases congrArg Prod.snd hMember

end TamperEvidence

end CommandConsole.Audit
