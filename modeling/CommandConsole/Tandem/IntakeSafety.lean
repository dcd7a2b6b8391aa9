import CommandConsole.Tandem.KnowledgeIntake
import Mathlib.Data.List.Nodup

/-! # One proposal and one receipt for a candidate

Intakes of one candidate that do not overlap and whose creations succeed leave one proposal and one
receipt. The receipt answers every later intake that passes the check of its revision.
-/
namespace CommandConsole.Tandem
open Library
set_option autoImplicit false

section Store

variable {s t : IntakeStore} {index : Nat}

structure IntakeStore.Sound (store : IntakeStore) : Prop where
  receipts : (store.receipts.map ReceiptRow.key).Nodup
  proposals : (store.proposals.map CurationProposal.key).Nodup
  pending : (store.pending.map PendingIntake.key).Nodup
  unanswered : ∀ pending ∈ store.pending, ∀ receipt ∈ store.receipts, receipt.key ≠ pending.key
  uncreated : ∀ pending ∈ store.pending, pending.created = false → ∀ proposal ∈ store.proposals,
    proposal.key ≠ pending.key
  settled : ∀ proposal ∈ store.proposals, (∃ receipt ∈ store.receipts, receipt.key = proposal.key) ∨
    ∃ pending ∈ store.pending, pending.key = proposal.key ∧ pending.created = true

/-- What a call itself has pending. -/
def IntakeStore.own (store : IntakeStore) (index : Nat) : List PendingIntake :=
  store.pending.filter fun pending => pending.owner = index

structure IntakeStore.Later (index : Nat) (store later : IntakeStore) : Prop where
  own : later.own index = store.own index
  receipts : store.receipts ⊆ later.receipts

theorem IntakeStore.Later.refl (index : Nat) (store : IntakeStore) : store.Later index store :=
  ⟨rfl, List.Subset.refl _⟩

theorem IntakeStore.Later.trans (index : Nat) (s t u : IntakeStore) (h : s.Later index t) (h' : t.Later index u) :
    s.Later index u := ⟨h'.own.trans h.own, fun _ hReceipt => h'.receipts (h.receipts hReceipt)⟩

theorem receipt?_eq_some {key : CandidateKey} {row : ReceiptRow} (h : s.receipt? key = some row) :
    row ∈ s.receipts ∧ row.key = key := by
  have hKey := List.find?_some h
  exact ⟨List.mem_of_find?_eq_some h, of_decide_eq_true hKey⟩

theorem receipt?_eq_none {key : CandidateKey} : s.receipt? key = none ↔ ∀ receipt ∈ s.receipts, receipt.key ≠ key := by
  rw [IntakeStore.receipt?, List.find?_eq_none]
  simp only [decide_eq_true_eq, ne_eq]

theorem IntakeStore.Sound.receipt?_of_mem (h : s.Sound) {row : ReceiptRow} (hMem : row ∈ s.receipts) :
    s.receipt? row.key = some row := by
  cases hFound : s.receipt? row.key with
  | none => exact absurd rfl (receipt?_eq_none.mp hFound row hMem)
  | some other =>
    obtain ⟨hOther, hKey⟩ := receipt?_eq_some hFound
    rw [List.inj_on_of_nodup_map h.receipts hOther hMem hKey]

theorem mem_pending_of_own {pending : PendingIntake} (h : s.own index = [pending]) :
    pending ∈ s.pending ∧ pending.owner = index := by
  have hMem : pending ∈ s.own index := h ▸ List.mem_singleton_self pending
  obtain ⟨hPending, hOwner⟩ := List.mem_filter.mp hMem
  exact ⟨hPending, of_decide_eq_true hOwner⟩

/-- A lookup that finds nothing. -/
theorem IntakeStore.Sound.lookup (h : s.Sound) {key : CandidateKey} (hNone : s.receipt? key = none)
    (hAlone : ∀ pending ∈ s.pending, pending.key ≠ key) (hOwn : s.own index = []) :
    let t := { s with pending := s.pending ++ [⟨index, key, false⟩] }
    t.Sound ∧ (∀ j, j ≠ index → s.Later j t) ∧ t.own index = [⟨index, key, false⟩] := by
  have hUnproposed : ∀ proposal ∈ s.proposals, proposal.key ≠ key := by
    intro proposal hProposal hKey
    rcases h.settled proposal hProposal with ⟨receipt, hReceipt, hSame⟩ | ⟨pending, hPending, hSame, -⟩
    · exact receipt?_eq_none.mp hNone receipt hReceipt (hSame.trans hKey)
    · exact hAlone pending hPending (hSame.trans hKey)
  refine ⟨⟨h.receipts, h.proposals, ?_, ?_, ?_, ?_⟩, fun j hOther => ⟨?_, List.Subset.refl _⟩, ?_⟩
  · rw [List.map_append, List.map_singleton]
    refine List.Nodup.append h.pending (List.nodup_singleton _) fun other hMem hKey => ?_
    obtain ⟨pending, hPending, rfl⟩ := List.mem_map.mp hMem
    exact hAlone pending hPending (List.mem_singleton.mp hKey)
  · intro pending hPending
    rcases List.mem_append.mp hPending with hOld | hNew
    · exact h.unanswered pending hOld
    · obtain rfl := List.mem_singleton.mp hNew
      exact receipt?_eq_none.mp hNone
  · intro pending hPending hCreated
    rcases List.mem_append.mp hPending with hOld | hNew
    · exact h.uncreated pending hOld hCreated
    · obtain rfl := List.mem_singleton.mp hNew
      exact hUnproposed
  · intro proposal hProposal
    refine (h.settled proposal hProposal).imp_right fun ⟨pending, hPending, hBoth⟩ => ?_
    exact ⟨pending, List.mem_append_left _ hPending, hBoth⟩
  · rw [IntakeStore.own, List.filter_append, List.filter_cons_of_neg (by simpa using hOther.symm), List.filter_nil,
      List.append_nil]
    rfl
  · rw [IntakeStore.own] at hOwn ⊢
    rw [List.filter_append, hOwn]
    simp

theorem own_withdraw_of_ne {j : Nat} (h : j ≠ index) : (s.withdraw index).own j = s.own j := by
  simp only [IntakeStore.own, IntakeStore.withdraw, List.filter_filter]
  refine List.filter_congr fun pending _ => ?_
  by_cases hOwner : pending.owner = j
  · rw [decide_eq_true hOwner, Bool.true_and]
    exact decide_eq_true (hOwner ▸ h)
  · rw [decide_eq_false hOwner, Bool.false_and]

/-- A call gives up before it has created anything. -/
theorem IntakeStore.Sound.withdraw (h : s.Sound) {key : CandidateKey} (hOwn : s.own index = [⟨index, key, false⟩]) :
    (s.withdraw index).Sound ∧ ∀ j, j ≠ index → s.Later j (s.withdraw index) := by
  have hSub : (s.withdraw index).pending.Sublist s.pending := List.filter_sublist
  refine ⟨⟨h.receipts, h.proposals, h.pending.sublist (hSub.map _), fun pending hPending =>
    h.unanswered pending (hSub.subset hPending), fun pending hPending => h.uncreated pending (hSub.subset hPending),
    fun proposal hProposal => ?_⟩, fun j hOther => ⟨own_withdraw_of_ne hOther, List.Subset.refl _⟩⟩
  refine (h.settled proposal hProposal).imp_right fun ⟨pending, hPending, hKey, hCreated⟩ => ?_
  refine ⟨pending, List.mem_filter.mpr ⟨hPending, decide_eq_true fun hOwner => ?_⟩, hKey, hCreated⟩
  have hMine : pending ∈ s.own index := List.mem_filter.mpr ⟨hPending, decide_eq_true hOwner⟩
  rw [hOwn] at hMine
  obtain rfl := List.mem_singleton.mp hMine
  cases hCreated

theorem IntakeStore.Sound.pending_unique (h : s.Sound) {pending other : PendingIntake} (hPending : pending ∈ s.pending)
    (hOther : other ∈ s.pending) (hKey : pending.key = other.key) : pending = other :=
  List.inj_on_of_nodup_map h.pending hPending hOther hKey

/-- The proposal of a call that has found no receipt. -/
theorem IntakeStore.Sound.addProposal (h : s.Sound) {proposal : CurationProposal}
    (hOwn : s.own index = [⟨index, proposal.key, false⟩]) :
    (s.addProposal index proposal).Sound ∧ (∀ j, j ≠ index → s.Later j (s.addProposal index proposal)) ∧
      (s.addProposal index proposal).own index = [⟨index, proposal.key, true⟩] := by
  have hMine : ⟨index, proposal.key, false⟩ ∈ s.pending := (mem_pending_of_own hOwn).1
  have hKeys : (s.addProposal index proposal).pending.map PendingIntake.key = s.pending.map PendingIntake.key := by
    simp only [IntakeStore.addProposal, List.map_map]
    refine List.map_congr_left fun pending _ => ?_
    rw [Function.comp_apply]
    split <;> rfl
  have hMarked : ∀ pending ∈ (s.addProposal index proposal).pending, ∃ old ∈ s.pending, old.key = pending.key ∧
      (pending.created = false → old = pending ∧ pending.owner ≠ index) ∧ (old.created = true → pending.created = true) := by
    intro pending hPending
    obtain ⟨old, hOld, rfl⟩ := List.mem_map.mp hPending
    refine ⟨old, hOld, ?_⟩
    split
    · exact ⟨rfl, fun hNot => Bool.noConfusion hNot, fun _ => rfl⟩
    · rename_i hOther
      exact ⟨rfl, fun _ => ⟨rfl, hOther⟩, fun hDone => hDone⟩
  refine ⟨⟨h.receipts, ?_, hKeys ▸ h.pending, ?_, ?_, ?_⟩, fun j hOther => ⟨?_, List.Subset.refl _⟩, ?_⟩
  · simp only [IntakeStore.addProposal, List.map_append, List.map_singleton]
    refine List.Nodup.append h.proposals (List.nodup_singleton _) fun key hMem hKey => ?_
    obtain ⟨other, hOther, rfl⟩ := List.mem_map.mp hMem
    exact h.uncreated _ hMine rfl other hOther (List.mem_singleton.mp hKey)
  · intro pending hPending
    obtain ⟨old, hOld, hKey, -⟩ := hMarked pending hPending
    exact hKey ▸ h.unanswered old hOld
  · intro pending hPending hCreated other hOther
    obtain ⟨old, hOld, hKey, hSame, -⟩ := hMarked pending hPending
    obtain ⟨rfl, hOwner⟩ := hSame hCreated
    rcases List.mem_append.mp hOther with hBefore | hNew
    · exact h.uncreated old hOld hCreated other hBefore
    · obtain rfl := List.mem_singleton.mp hNew
      intro hEqual
      have hUnique := h.pending_unique hOld hMine hEqual.symm
      exact hOwner (congrArg PendingIntake.owner hUnique)
  · intro other hOther
    have hMark : ∀ old ∈ s.pending, old.created = true → ∃ pending ∈ (s.addProposal index proposal).pending,
        pending.key = old.key ∧ pending.created = true := by
      intro old hOld hDone
      refine ⟨_, List.mem_map_of_mem hOld, ?_⟩
      split
      · exact ⟨rfl, rfl⟩
      · exact ⟨rfl, hDone⟩
    rcases List.mem_append.mp hOther with hBefore | hNew
    · rcases h.settled other hBefore with hReceipt | ⟨old, hOld, hKey, hDone⟩
      · exact .inl hReceipt
      · obtain ⟨pending, hPending, hSame, hDone'⟩ := hMark old hOld hDone
        exact .inr ⟨pending, hPending, hSame.trans hKey, hDone'⟩
    · obtain rfl := List.mem_singleton.mp hNew
      refine .inr ⟨_, List.mem_map_of_mem hMine, ?_⟩
      rw [if_pos rfl]
      exact ⟨rfl, rfl⟩
  · simp only [IntakeStore.own, IntakeStore.addProposal, List.filter_map]
    rw [List.map_congr_left (g := id), List.map_id]
    · refine List.filter_congr fun pending _ => ?_
      rw [Function.comp_apply]
      split <;> rfl
    · intro pending hPending
      have hOwner := (List.mem_filter.mp hPending).2
      rw [Function.comp_apply] at hOwner
      split
      · rename_i hIndex
        rw [if_pos hIndex] at hOwner
        exact absurd (of_decide_eq_true hOwner) (fun hj => hOther (hj.symm.trans hIndex))
      · rfl
  · have hFilter : (s.pending.filter ((fun pending => decide (pending.owner = index)) ∘ fun pending =>
        if pending.owner = index then { pending with created := true } else pending)) = s.own index := by
      refine List.filter_congr fun pending _ => ?_
      rw [Function.comp_apply]
      split <;> rfl
    simp only [IntakeStore.own, IntakeStore.addProposal, List.filter_map]
    rw [hFilter, hOwn, List.map_singleton, if_pos rfl]

/-- The receipt of a call that has created its proposal. -/
theorem IntakeStore.Sound.addReceipt (h : s.Sound) {row : ReceiptRow} (hOwn : s.own index = [⟨index, row.key, true⟩]) :
    (s.addReceipt index row).Sound ∧ ∀ j, j ≠ index → s.Later j (s.addReceipt index row) := by
  have hMine : ⟨index, row.key, true⟩ ∈ s.pending := (mem_pending_of_own hOwn).1
  have hRest : ∀ pending ∈ (s.addReceipt index row).pending, pending ∈ s.pending ∧ pending.key ≠ row.key := by
    intro pending hPending
    obtain ⟨hOld, hOwner⟩ := List.mem_filter.mp hPending
    refine ⟨hOld, fun hKey => ?_⟩
    have hUnique := h.pending_unique hOld hMine hKey
    exact of_decide_eq_true hOwner (congrArg PendingIntake.owner hUnique)
  refine ⟨⟨?_, h.proposals, h.pending.sublist (List.filter_sublist.map _), ?_, ?_, ?_⟩, fun j hOther =>
    ⟨own_withdraw_of_ne hOther, List.subset_append_left _ _⟩⟩
  · simp only [IntakeStore.addReceipt, List.map_append, List.map_singleton]
    refine List.Nodup.append h.receipts (List.nodup_singleton _) fun key hMem hKey => ?_
    obtain ⟨receipt, hReceipt, rfl⟩ := List.mem_map.mp hMem
    exact h.unanswered _ hMine receipt hReceipt (List.mem_singleton.mp hKey)
  · intro pending hPending receipt hReceipt
    obtain ⟨hOld, hKey⟩ := hRest pending hPending
    rcases List.mem_append.mp hReceipt with hBefore | hNew
    · exact h.unanswered pending hOld receipt hBefore
    · obtain rfl := List.mem_singleton.mp hNew
      exact fun hSame => hKey hSame.symm
  · exact fun pending hPending => h.uncreated pending (hRest pending hPending).1
  · intro proposal hProposal
    rcases h.settled proposal hProposal with ⟨receipt, hReceipt, hKey⟩ | ⟨pending, hPending, hKey, hCreated⟩
    · exact .inl ⟨receipt, List.mem_append_left _ hReceipt, hKey⟩
    · by_cases hOwner : pending.owner = index
      · have hSelf : pending ∈ s.own index := List.mem_filter.mpr ⟨hPending, decide_eq_true hOwner⟩
        rw [hOwn] at hSelf
        obtain rfl := List.mem_singleton.mp hSelf
        exact .inl ⟨row, List.mem_append_right _ List.mem_cons_self, hKey⟩
      · exact .inr ⟨pending, List.mem_filter.mpr ⟨hPending, decide_eq_true hOwner⟩, hKey, hCreated⟩

theorem IntakeStore.Sound.updateProposal (h : s.Sound) (id : String) (status : ProposalStatus) :
    (s.updateProposal id status).Sound ∧ ∀ j, s.Later j (s.updateProposal id status) := by
  have hKeys : (s.updateProposal id status).proposals.map CurationProposal.key = s.proposals.map CurationProposal.key := by
    simp only [IntakeStore.updateProposal, List.map_map]
    refine List.map_congr_left fun proposal _ => ?_
    rw [Function.comp_apply]
    split <;> rfl
  have hOld : ∀ proposal ∈ (s.updateProposal id status).proposals, ∃ old ∈ s.proposals, old.key = proposal.key := by
    intro proposal hProposal
    have hKey : proposal.key ∈ s.proposals.map CurationProposal.key := hKeys ▸ List.mem_map_of_mem hProposal
    exact List.mem_map.mp hKey
  refine ⟨⟨h.receipts, hKeys ▸ h.proposals, h.pending, h.unanswered, ?_, ?_⟩, fun j => ⟨rfl, List.Subset.refl _⟩⟩
  · intro pending hPending hCreated proposal hProposal
    obtain ⟨old, hMem, hKey⟩ := hOld proposal hProposal
    exact hKey ▸ h.uncreated pending hPending hCreated old hMem
  · intro proposal hProposal
    obtain ⟨old, hMem, hKey⟩ := hOld proposal hProposal
    exact hKey ▸ h.settled old hMem

theorem sound_empty : IntakeStore.empty.Sound where
  receipts := List.nodup_nil
  proposals := List.nodup_nil
  pending := List.nodup_nil
  unanswered := by simp [IntakeStore.empty]
  uncreated := by simp [IntakeStore.empty]
  settled := by simp [IntakeStore.empty]

end Store

section Conditions

/-- The candidate of the request has a receipt. -/
def Request.Answered (request : Request) (store : IntakeStore) : Prop :=
  match request with
  | intake (some candidate) workspaceId => (store.receipt? ⟨workspaceId, candidate.candidateId⟩).isSome = true
  | _ => False

def Request.SameMission (request : Request) (parent : ReceiptRow) : Prop :=
  match request with
  | intake (some candidate) _ => parent.missionId = candidate.missionId
  | _ => True

/-- No creation is lost, no lookup comes between the lookup of another intake of the candidate and its
receipt, and the candidate that an answered one revises is still to be changed. -/
def Request.allowed (request : Request) (_ : Nat) (circumstance : Circumstance) : Command → IntakeStore → Prop
  | .findParentReceipt key, store => request.Answered store → ∃ parent ∈ store.receipt? key, request.SameMission parent
  | .findProposal id, store => request.Answered store → ∃ proposal ∈ store.proposal? id, proposal.status = .requestChanges
  | .findReceipt key, store => (store.receipt? key).isSome = true ∨ ∀ pending ∈ store.pending, pending.key ≠ key
  | .createCuration _ _, _ => circumstance.effect ≠ .lost
  | .createReceipt row, store => circumstance.effect ≠ .refused ∧ ∀ receipt ∈ store.receipts, receipt.id ≠ row.id
  | _, _ => True

instance (request : Request) (store : IntakeStore) : Decidable (request.Answered store) := by
  unfold Request.Answered
  split <;> infer_instance

instance (request : Request) (parent : ReceiptRow) : Decidable (request.SameMission parent) := by
  unfold Request.SameMission
  split <;> infer_instance

instance (request : Request) (index : Nat) (circumstance : Circumstance) (command : Command) (store : IntakeStore) :
    Decidable (request.allowed index circumstance command store) := by
  unfold Request.allowed
  split <;> infer_instance

def intakeProtocol : Protocol Command Answer Circumstance IntakeStore where
  perform := perform
  MayWait _ _ := False
  Allowed _ _ _ _ := True
  Inv := IntakeStore.Sound
  Rely := IntakeStore.Later
  rely_refl := IntakeStore.Later.refl
  rely_trans := IntakeStore.Later.trans

def Request.protocol (request : Request) : Protocol Command Answer Circumstance IntakeStore :=
  intakeProtocol.under request.allowed

/-- A call that has not looked anything up. -/
def Fresh (index : Nat) (store : IntakeStore) : Prop := store.own index = []

/-- A receipt that was returned is one that is stored. -/
def Request.post (_ : Nat) (request : Request) (outcome : Option (Option TandemKnowledgeCandidateReceipt))
    (store : IntakeStore) : Prop :=
  match request, outcome with
  | .intake (some candidate) workspaceId, some (some receipt) => ∃ row ∈ store.receipts,
    row.key = ⟨workspaceId, candidate.candidateId⟩ ∧ parseReceipt row row.payload.revisionOfCandidateId = some receipt
  | _, _ => True

end Conditions

section Calls

variable {request : Request} {index : Nat} {s : IntakeStore}

theorem fresh_later {t : IntakeStore} (h : Fresh index s) (hLater : s.Later index t) : Fresh index t := hLater.own.trans h

theorem findParentReceipt_given (key : CandidateKey) (circumstance : Circumstance) (t : IntakeStore) :
    ∃ a, request.protocol.perform index circumstance (.findParentReceipt key) t = some (some a, t) :=
  ⟨t.receipt? key, rfl⟩

theorem findProposal_given (id : String) (circumstance : Circumstance) (t : IntakeStore) :
    ∃ a, request.protocol.perform index circumstance (.findProposal id) t = some (some a, t) := ⟨t.proposal? id, rfl⟩

/-- The check of a revision reads. -/
theorem checkRevision_safe (candidate : TandemKnowledgeCandidate) (workspaceId : String) (hFresh : Fresh index s)
    (hSound : s.Sound) :
    (checkRevision candidate workspaceId).Safe request.protocol index (fun _ t => Fresh index t) s := by
  unfold checkRevision
  split
  · exact fun t hLater _ => fresh_later hFresh hLater
  · rename_i parentId _
    have hFind : (findRevisionParent workspaceId parentId).Safe request.protocol index (fun _ t => Fresh index t) s := by
      refine Script.Safe.given (fun input t => findParentReceipt_given _ input t) fun receipt t hLater _ => ?_
      cases receipt with
      | none => exact fun u hNext _ => fresh_later (fresh_later hFresh hLater) hNext
      | some receipt =>
        refine Script.Safe.given (fun input u => findProposal_given _ input u) fun proposal u hNext _ => ?_
        exact fun v hLast _ => fresh_later (fresh_later (fresh_later hFresh hLater) hNext) hLast
    refine Script.Safe.bind hFind hSound (fun parent t hSound' hKnown => ?_) fun _ _ hKnown => hKnown
    exact Script.Safe.ofOption fun u hNext hSound'' => hKnown u hNext hSound''

theorem createReceipt_safe {workspaceId : String} (candidate : TandemKnowledgeCandidate) (row : ReceiptRow)
    (hKey : row.key = ⟨workspaceId, candidate.candidateId⟩) (hPayload : row.payload = candidate)
    (hOwn : s.own index = [⟨index, ⟨workspaceId, candidate.candidateId⟩, true⟩]) :
    Script.Safe (Request.intake (some candidate) workspaceId).protocol index (fun outcome t => ∀ receipt, outcome = some receipt →
      (Request.intake (some candidate) workspaceId).post index (some (some receipt)) t) (do
        let receipt ← ask (.createReceipt row)
        Script.ofOption (parseReceipt receipt candidate.revisionOfCandidateId)) s := by
  refine Script.Safe.ask fun t hLater hSound circumstance hAllowed => ?_
  replace hOwn := hLater.own.trans hOwn
  have hMine := (mem_pending_of_own hOwn).1
  have hNone : t.receipt? row.key = none := by
    rw [receipt?_eq_none, hKey]
    exact hSound.unanswered _ hMine
  have hNew : ¬(circumstance.effect = .refused ∨ (t.receipt? row.key).isSome = true ∨
      (t.receipts.any fun receipt => receipt.id = row.id) = true) := by
    rintro (hRefused | hSome | hUsed)
    · exact hAllowed.1 hRefused
    · rw [hNone] at hSome
      cases hSome
    · obtain ⟨receipt, hReceipt, hId⟩ := List.any_eq_true.mp hUsed
      exact hAllowed.2 receipt hReceipt (of_decide_eq_true hId)
  obtain ⟨hSound', hOthers⟩ := hSound.addReceipt (hKey.symm ▸ hOwn)
  simp only [Request.protocol, Protocol.under, intakeProtocol, perform, if_neg hNew]
  cases hEffect : circumstance.effect with
  | refused => exact absurd hEffect hAllowed.1
  | lost => exact ⟨⟨hSound', hOthers⟩, fun _ _ _ _ hFailed => nomatch hFailed⟩
  | done =>
    refine ⟨⟨hSound', hOthers⟩, Script.Safe.ofOption fun u hNext _ receipt hReceipt => ?_⟩
    refine ⟨row, hNext.receipts (List.mem_append_right _ List.mem_cons_self), hKey, ?_⟩
    rw [hPayload]
    exact hReceipt

/-- The creations of a call whose lookup has found nothing. -/
theorem create_safe (candidate : TandemKnowledgeCandidate) (workspaceId : String)
    (hOwn : s.own index = [⟨index, ⟨workspaceId, candidate.candidateId⟩, false⟩]) :
    Script.Safe (Request.intake (some candidate) workspaceId).protocol index (fun outcome t => ∀ receipt, outcome = some receipt →
      (Request.intake (some candidate) workspaceId).post index (some (some receipt)) t) (do
        let curation ← ask (.createCuration ⟨workspaceId, candidate.candidateId⟩ (curationInput candidate))
        let uuid ← ask .randomUUID
        let receivedAt ← ask .now
        let receipt ← ask (.createReceipt ⟨"TANDEM-NURU-RECEIPT-" ++ uuid, ⟨workspaceId, candidate.candidateId⟩,
          candidate.missionId, curation, receivedAt, candidate⟩)
        Script.ofOption (parseReceipt receipt candidate.revisionOfCandidateId)) s := by
  refine Script.Safe.ask fun t hLater hSound circumstance hAllowed => ?_
  replace hOwn := hLater.own.trans hOwn
  by_cases hRefused : circumstance.effect = .refused ∨ (t.proposal? circumstance.proposalId).isSome = true
  · obtain ⟨hSound', hOthers⟩ := hSound.withdraw hOwn
    simp only [Request.protocol, Protocol.under, intakeProtocol, perform, if_pos hRefused]
    exact ⟨⟨hSound', hOthers⟩, fun _ _ _ _ hNone => nomatch hNone⟩
  · have hDone : circumstance.effect = .done := by
      cases hEffect : circumstance.effect with
      | done => rfl
      | refused => exact absurd (.inl hEffect) hRefused
      | lost => exact absurd hEffect hAllowed
    obtain ⟨hSound', hOthers, hCreated⟩ := @IntakeStore.Sound.addProposal t index hSound ⟨circumstance.proposalId,
      ⟨workspaceId, candidate.candidateId⟩, curationInput candidate, .humanReviewRequired⟩ hOwn
    rw [hDone] at hRefused
    simp only [Request.protocol, Protocol.under, intakeProtocol, perform, if_neg hRefused, hDone, Effect.answer, if_pos]
    refine ⟨⟨hSound', hOthers⟩, ?_⟩
    refine Script.Safe.given (fun input u => ⟨input.uuid, rfl⟩) fun uuid u hNext _ => ?_
    refine Script.Safe.given (fun input v => ⟨input.time, rfl⟩) fun receivedAt v hNext' _ => ?_
    exact createReceipt_safe candidate ⟨_, ⟨workspaceId, candidate.candidateId⟩, _, _, _, candidate⟩ rfl rfl
      ((hNext.trans _ _ _ _ hNext').own.trans hCreated)

theorem intake_safe (rawCandidate : Option TandemKnowledgeCandidate) (workspaceId : String) (hSound : s.Sound)
    (hFresh : Fresh index s) : (intake rawCandidate workspaceId).Safe (Request.intake rawCandidate workspaceId).protocol index
      (fun outcome t => ∀ receipt, outcome = some receipt →
        (Request.intake rawCandidate workspaceId).post index (some (some receipt)) t) s := by
  cases rawCandidate with
  | none => exact fun _ _ _ _ hFailed => nomatch hFailed
  | some candidate =>
    refine Script.Safe.bind (checkRevision_safe candidate workspaceId hFresh hSound) hSound
      (fun _ t hSound' hKnown => ?_) fun _ _ _ _ hFailed => nomatch hFailed
    have hFresh' : Fresh index t := hKnown t (.refl index t) hSound'
    refine Script.Safe.ask fun u hLater hInner circumstance hAllowed => ?_
    cases hRow : u.receipt? ⟨workspaceId, candidate.candidateId⟩ with
    | some row =>
      simp only [Request.protocol, Protocol.under, intakeProtocol, perform, hRow]
      refine ⟨⟨hInner, fun j _ => .refl j u⟩, Script.Safe.ofOption fun v hNext _ receipt hReceipt => ?_⟩
      obtain ⟨hMem, hKey⟩ := receipt?_eq_some hRow
      exact ⟨row, hNext.receipts hMem, hKey, hReceipt⟩
    | none =>
      have hAlone : ∀ pending ∈ u.pending, pending.key ≠ ⟨workspaceId, candidate.candidateId⟩ := by
        refine hAllowed.resolve_left fun hSome => ?_
        rw [hRow] at hSome
        cases hSome
      obtain ⟨hLookup, hOthers, hOwn⟩ := hInner.lookup hRow hAlone (fresh_later hFresh' hLater)
      simp only [Request.protocol, Protocol.under, intakeProtocol, perform, hRow]
      exact ⟨⟨hLookup, hOthers⟩, create_safe candidate workspaceId hOwn⟩

/-- A decision changes the status of a proposal. -/
theorem decide_safe (proposalId : String) (status : ProposalStatus) :
    (decideNuruCurationProposal proposalId status).Safe request.protocol index (fun _ _ => True) s := by
  refine Script.Safe.given (fun input t => findProposal_given _ input t) fun proposal t hLater hSound => ?_
  cases proposal with
  | none => exact fun _ _ _ => trivial
  | some proposal =>
    refine Script.Safe.ite (fun _ _ _ _ => trivial) fun _ => ?_
    intro u hNext hSound' circumstance hAllowed
    obtain ⟨hUpdated, hOthers⟩ := IntakeStore.Sound.updateProposal hSound' proposalId status
    dsimp only [Request.protocol, Protocol.under, intakeProtocol, perform]
    split
    · rename_i hPerform
      split at hPerform <;> cases hPerform
    · rename_i answer v hPerform
      split at hPerform
      · cases hPerform
        exact ⟨hUpdated, fun j _ => hOthers j, fun _ _ _ => trivial⟩
      · cases hPerform
        exact ⟨hSound', fun j _ => .refl j u, fun _ _ _ => trivial⟩

theorem script_safe (request : Request) (hSound : s.Sound) (hFresh : Fresh index s) :
    request.script.Safe request.protocol index (request.post index) s := by
  cases request with
  | intake rawCandidate workspaceId =>
    refine Script.Safe.map ((intake_safe rawCandidate workspaceId hSound hFresh).mono fun outcome t _ hKnown => ?_) hSound
    cases outcome with
    | none => cases rawCandidate <;> trivial
    | some receipt => exact hKnown receipt rfl
  | review proposalId status =>
    exact Script.Safe.map ((decide_safe proposalId status).mono fun outcome _ _ _ => trivial) hSound

end Calls

section Replays

variable {index : Nat} {s : IntakeStore} {row : ReceiptRow}

/-- The row is stored. -/
def Stored (row : ReceiptRow) (store : IntakeStore) : Prop := row ∈ store.receipts

/-- What a later intake of the candidate of the row comes to. -/
def Request.replays (row : ReceiptRow) (_ : Nat) (request : Request)
    (outcome : Option (Option TandemKnowledgeCandidateReceipt)) (_ : IntakeStore) : Prop :=
  match request with
  | .intake (some candidate) workspaceId => row.key = ⟨workspaceId, candidate.candidateId⟩ →
    outcome = (parseReceipt row row.payload.revisionOfCandidateId).map some
  | _ => True

theorem answered_of_stored {candidate : TandemKnowledgeCandidate} {workspaceId : String} (hSound : s.Sound)
    (hStored : Stored row s) (hKey : row.key = ⟨workspaceId, candidate.candidateId⟩) :
    (Request.intake (some candidate) workspaceId).Answered s := by
  rw [Request.Answered, ← hKey, hSound.receipt?_of_mem hStored]
  rfl

/-- An answered candidate passes the check of its revision. -/
theorem checkRevision_passes (candidate : TandemKnowledgeCandidate) (workspaceId : String)
    (hKey : row.key = ⟨workspaceId, candidate.candidateId⟩) (hBoth : s.Sound ∧ Stored row s) :
    (checkRevision candidate workspaceId).Safe
      ((intakeProtocol.keeping (Stored row)).under (Request.intake (some candidate) workspaceId).allowed) index
      (fun outcome _ => outcome = some ()) s := by
  unfold checkRevision
  split
  · exact fun _ _ _ => rfl
  · rename_i parentId _
    have hFind : (findRevisionParent workspaceId parentId).Safe
        ((intakeProtocol.keeping (Stored row)).under (Request.intake (some candidate) workspaceId).allowed) index
        (fun outcome _ => outcome = some (some (candidate.missionId, .requestChanges))) s := by
      refine Script.Safe.ask fun t _ hInv circumstance hAllowed => ?_
      obtain ⟨parent, hParent, hMission⟩ := hAllowed (answered_of_stored hInv.1 hInv.2 hKey)
      rw [Option.mem_def] at hParent
      simp only [Protocol.under, Protocol.keeping, intakeProtocol, perform, hParent]
      refine ⟨⟨hInv, fun j _ => .refl j t⟩, Script.Safe.ask fun u _ hInv' circumstance' hAllowed' => ?_⟩
      obtain ⟨proposal, hProposal, hStatus⟩ := hAllowed' (answered_of_stored hInv'.1 hInv'.2 hKey)
      rw [Option.mem_def] at hProposal
      simp only [perform, hProposal]
      refine ⟨⟨hInv', fun j _ => .refl j u⟩, fun _ _ _ => ?_⟩
      rw [Option.map_some, hMission, hStatus]
    refine Script.Safe.bind hFind hBoth (fun parent t hInv hKnown => ?_) fun _ _ hNone => nomatch hNone
    rw [Option.some.inj (hKnown t (.refl index t) hInv), if_pos rfl]
    exact Script.Safe.ofOption fun _ _ _ => rfl

/-- A script that keeps to its protocol keeps what is stored. -/
theorem safe_keeping {request : Request} {α : Type} {post : Option α → IntakeStore → Prop} {x : IntakeScript α}
    (h : x.Safe request.protocol index post s) :
    x.Safe ((intakeProtocol.keeping (Stored row)).under request.allowed) index post s := by
  refine @Script.Safe.keeping _ _ _ _ _ request.protocol index post s (Stored row) (fun t u hFair hStored => ?_) x h
  exact (hFair.2 (index + 1) (Nat.succ_ne_self index)).receipts hStored

theorem replay_safe (candidate : TandemKnowledgeCandidate) (workspaceId : String)
    (hKey : row.key = ⟨workspaceId, candidate.candidateId⟩) (hBoth : s.Sound ∧ Stored row s) :
    (intake (some candidate) workspaceId).Safe
      ((intakeProtocol.keeping (Stored row)).under (Request.intake (some candidate) workspaceId).allowed) index
      (fun outcome _ => outcome = parseReceipt row row.payload.revisionOfCandidateId) s := by
  refine Script.Safe.bind (checkRevision_passes candidate workspaceId hKey hBoth) hBoth (fun _ t _ _ => ?_)
    fun _ _ hNone => nomatch hNone
  refine Script.Safe.ask fun u _ hInv circumstance _ => ?_
  have hRow : u.receipt? ⟨workspaceId, candidate.candidateId⟩ = some row := by
    rw [← hKey]
    exact hInv.1.receipt?_of_mem hInv.2
  simp only [Protocol.under, Protocol.keeping, intakeProtocol, perform, hRow]
  exact ⟨⟨hInv, fun j _ => .refl j u⟩, Script.Safe.ofOption fun _ _ _ => rfl⟩

theorem script_replays (request : Request) (hBoth : s.Sound ∧ Stored row s) (hFresh : Fresh index s) :
    request.script.Safe ((intakeProtocol.keeping (Stored row)).under request.allowed) index (request.replays row index) s := by
  have hSafe := @safe_keeping index s row request _ _ _ (script_safe request hBoth.1 hFresh)
  cases request with
  | review proposalId status => exact hSafe.mono fun _ _ _ _ => trivial
  | intake rawCandidate workspaceId =>
    cases rawCandidate with
    | none => exact hSafe.mono fun _ _ _ _ => trivial
    | some candidate =>
      by_cases hKey : row.key = ⟨workspaceId, candidate.candidateId⟩
      · refine Script.Safe.map ((replay_safe candidate workspaceId hKey hBoth).mono fun outcome _ _ hSame _ => ?_) hBoth
        rw [hSame]
      · exact hSafe.mono fun _ _ _ _ hSame => absurd hSame hKey

/-- At most one proposal for a candidate, and the receipt of one that has succeeded for every later intake. -/
theorem intake_is_idempotent {scene later : Scene Request Command Answer (Option TandemKnowledgeCandidateReceipt) IntakeStore}
    (hRun : Reaches (Scene.step perform Request.script) (Scene.AllowsFor Request.allowed) (Scene.init .empty) scene)
    (hLater : Reaches (Scene.step perform Request.script) (Scene.AllowsFor Request.allowed) scene later) :
    (later.store.proposals.map CurationProposal.key).Nodup ∧
      ∀ (i : Nat) (candidate : TandemKnowledgeCandidate) (workspaceId : String) (receipt : TandemKnowledgeCandidateReceipt),
        scene.calls[i]? = some ⟨.intake (some candidate) workspaceId, .done (some receipt)⟩ →
        ∀ (j : Nat) (again : TandemKnowledgeCandidate) (rest : IntakeScript (Option TandemKnowledgeCandidateReceipt)),
          scene.calls.length ≤ j → later.calls[j]? = some ⟨.intake (some again) workspaceId, rest⟩ →
          again.candidateId = candidate.candidateId →
          rest ≠ .fail ∧ ∀ outcome, rest = .done outcome → outcome = some receipt := by
  have hStable : ∀ i s t, IntakeStore.Later i s t → Fresh i s → Fresh i t := fun _ _ _ hNext hFresh =>
    fresh_later hFresh hNext
  have hEnter : ∀ i (request : Request) s, s.Sound → Fresh i s →
      request.script.Safe request.protocol i (request.post i) s := fun i request s hSound hFresh =>
    script_safe request hSound hFresh
  refine ⟨?_, fun i candidate workspaceId receipt hDone j again rest hLate hCall hSame => ?_⟩
  · exact (Scene.invariant_for intakeProtocol Fresh (hRun.trans hLater) sound_empty (fun _ => rfl) hStable hEnter).1.proposals
  obtain ⟨hSound, hCalls⟩ := Scene.invariant_for intakeProtocol Fresh hRun sound_empty (fun _ => rfl) hStable hEnter
  obtain ⟨row, hRow, hKey, hParsed⟩ := Script.Safe.result (hCalls i _ hDone) hSound
  have hKeep : ∀ i s t, Script.Fair intakeProtocol i s t → Stored row s → Stored row t := fun i s t hFair hStored =>
    (hFair.2 (i + 1) (Nat.succ_ne_self i)).receipts hStored
  obtain ⟨hInv, hReplays⟩ := Scene.late_calls intakeProtocol Fresh hRun hLater sound_empty (fun _ => rfl) hStable hEnter
    hKeep hRow fun i request s hSound hStored hFresh => script_replays request ⟨hSound, hStored⟩ hFresh
  have hSafe := hReplays j _ hLate hCall
  have hKey' : row.key = ⟨workspaceId, again.candidateId⟩ := by rw [hKey, hSame]
  constructor
  · rintro rfl
    have hNone := hSafe _ (intakeProtocol.rely_refl j _) hInv hKey'
    rw [hParsed] at hNone
    cases hNone
  · rintro outcome rfl
    have hSome := Script.Safe.result hSafe hInv hKey'
    rw [hParsed] at hSome
    exact Option.some.inj hSome

end Replays

section Examples

abbrev IntakeTurn := SceneTurn Request Circumstance

def noteOn (candidateId : String) (revision : Option String) : TandemKnowledgeCandidate :=
  ⟨candidateId, revision, "mission_1", "Cold starts", [⟨"Warm pools halve them", "0.8"⟩], ["pool"],
    [⟨"ref_1", "load test"⟩], ["https://intranet/report"], "saves a search"⟩

def intakeOf (candidateId : String) (revision : Option String) : IntakeTurn :=
  .enter (.intake (some (noteOn candidateId revision)) "workspace_1")

/-- One await of the call, with the proposal id and the uuid it would be given. -/
def turnOf (index : Nat) (name : String) : IntakeTurn := .advance index ⟨.done, name, name, 10⟩

def turnsOf (index : Nat) (name : String) (count : Nat) : List IntakeTurn := List.replicate count (turnOf index name)

abbrev intakesAfter (turns : List IntakeTurn) :
    Scene Request Command Answer (Option TandemKnowledgeCandidateReceipt) IntakeStore :=
  runAll (Scene.step perform Request.script) (Scene.init .empty) turns

def receiptOf (name candidateId : String) (revision : Option String) : TandemKnowledgeCandidateReceipt :=
  ⟨"TANDEM-NURU-RECEIPT-" ++ name, ⟨"workspace_1", candidateId⟩, revision, "mission_1", name, 10⟩

/-- A candidate, a request to change it, and its revision. -/
def revised : List IntakeTurn :=
  [intakeOf "first" none] ++ turnsOf 0 "a" 5 ++ [.enter (.review "a" .requestChanges)] ++ turnsOf 1 "" 2 ++
    [intakeOf "second" (some "first")] ++ turnsOf 2 "b" 7

def revisedAgain : List IntakeTurn := [intakeOf "second" (some "first")] ++ turnsOf 3 "c" 3

theorem intake_is_idempotent_revised :
    ((runAll (Scene.step perform Request.script) (intakesAfter revised) revisedAgain).store.proposals.map
      CurationProposal.key).Nodup ∧
    ∃ rest, (runAll (Scene.step perform Request.script) (intakesAfter revised) revisedAgain).calls[3]? =
        some ⟨.intake (some (noteOn "second" (some "first"))) "workspace_1", rest⟩ ∧
      ∀ outcome, rest = .done outcome → outcome = some (receiptOf "b" "second" (some "first")) := by
  have hRun : Reaches (Scene.step perform Request.script) (Scene.AllowsFor Request.allowed) (Scene.init .empty)
      (intakesAfter revised) := GuardedAll.reaches (by decide +kernel)
  have hLater : Reaches (Scene.step perform Request.script) (Scene.AllowsFor Request.allowed) (intakesAfter revised)
      (runAll (Scene.step perform Request.script) (intakesAfter revised) revisedAgain) :=
    GuardedAll.reaches (by decide +kernel)
  obtain ⟨hOnce, hReplays⟩ := intake_is_idempotent hRun hLater
  refine ⟨hOnce, _, rfl, ?_⟩
  exact (hReplays 2 (noteOn "second" (some "first")) "workspace_1" _ rfl 3 (noteOn "second" (some "first")) _
    (by decide +kernel) rfl rfl).2

/-- Two intakes of one candidate look it up before either has a receipt. -/
def overlapping : List IntakeTurn :=
  [intakeOf "first" none, intakeOf "first" none, turnOf 0 "a", turnOf 1 "b", turnOf 0 "a", turnOf 1 "b"]

/-- The receipt of an intake is refused, and the intake is tried again. -/
def refusedReceipt : List IntakeTurn :=
  [intakeOf "first" none] ++ turnsOf 0 "a" 4 ++ [.advance 0 ⟨.refused, "a", "a", 10⟩, intakeOf "first" none] ++
    turnsOf 1 "b" 5

/-- Another reviewer has read the parent before the request for changes, and approves it after the revision. -/
def approvedMeanwhile : List IntakeTurn :=
  [intakeOf "first" none] ++ turnsOf 0 "a" 5 ++ [.enter (.review "a" .requestChanges), .enter (.review "a" .approved),
    turnOf 2 ""] ++ turnsOf 1 "" 2 ++ [intakeOf "second" (some "first")] ++ turnsOf 3 "b" 7 ++ [turnOf 2 "",
    intakeOf "second" (some "first")] ++ turnsOf 4 "c" 2

theorem intake_is_not_idempotent :
    (intakesAfter overlapping).store.proposals.map CurationProposal.key =
      [⟨"workspace_1", "first"⟩, ⟨"workspace_1", "first"⟩] ∧
    (intakesAfter refusedReceipt).store.proposals.map CurationProposal.key =
      [⟨"workspace_1", "first"⟩, ⟨"workspace_1", "first"⟩] ∧
    (intakesAfter approvedMeanwhile).calls.map Call.outcome? =
      [some (some (some (receiptOf "a" "first" none))), some (some none), some (some none),
        some (some (some (receiptOf "b" "second" (some "first")))), some none] ∧
    ¬ ∀ scene, Reaches (Scene.step perform Request.script) (fun _ _ => True) (Scene.init .empty) scene →
      (scene.store.proposals.map CurationProposal.key).Nodup := by
  have hTwice : (intakesAfter overlapping).store.proposals.map CurationProposal.key =
      [⟨"workspace_1", "first"⟩, ⟨"workspace_1", "first"⟩] := by decide +kernel
  refine ⟨hTwice, by decide +kernel, by decide +kernel, fun h => ?_⟩
  have hOnce := h _ (reaches_runAll _ _ overlapping)
  change ((intakesAfter overlapping).store.proposals.map CurationProposal.key).Nodup at hOnce
  rw [hTwice] at hOnce
  revert hOnce
  decide

end Examples

end CommandConsole.Tandem
