import CommandConsole.Library.Script

/-! # Intake of knowledge candidates

An intake checks the revision that its candidate names, looks for the receipt of the candidate,
and otherwise creates a curation proposal and after it the receipt.
-/
namespace CommandConsole.Tandem
open Library
set_option autoImplicit false

section Candidates

/-- A claim, with its confidence as it is printed. -/
structure ProposedClaim where
  text : String
  confidence : String
  deriving DecidableEq

structure CandidateEvidence where
  referenceId : String
  detail : String
  deriving DecidableEq

/-- A parsed candidate. A source is its JSON text. -/
structure TandemKnowledgeCandidate where
  candidateId : String
  revisionOfCandidateId : Option String
  missionId : String
  subject : String
  proposedClaims : List ProposedClaim
  entities : List String
  evidence : List CandidateEvidence
  sources : List String
  reasonForPreservation : String
  deriving DecidableEq

/-- The candidate that it revises, where the text is not empty. -/
def TandemKnowledgeCandidate.revision (candidate : TandemKnowledgeCandidate) : Option String :=
  candidate.revisionOfCandidateId.filter fun id => id ≠ ""

structure CurationInput where
  title : String
  content : String
  project : String
  source : Option String
  humanReason : String
  proposedTopics : List String
  journeyContext : String
  deriving DecidableEq

def candidateContent (candidate : TandemKnowledgeCandidate) : String :=
  "\n".intercalate
    (["Tandem mission candidate: " ++ candidate.missionId, "Subject: " ++ candidate.subject, "", "Proposed claims:"] ++
      candidate.proposedClaims.map (fun claim =>
        "- " ++ claim.text ++ " (reported confidence " ++ claim.confidence ++ ")") ++
      candidate.revision.toList.map (fun id => "Revision of Tandem candidate: " ++ id) ++
      ["", "Evidence:"] ++
      candidate.evidence.map (fun evidence => "- " ++ evidence.referenceId ++ ": " ++ evidence.detail) ++
      ["", "Preservation rationale: " ++ candidate.reasonForPreservation])

def curationInput (candidate : TandemKnowledgeCandidate) : CurationInput where
  title := candidate.subject ++ ": Tandem mission candidate"
  content := candidateContent candidate
  project := "Tandem"
  source := candidate.sources.head?
  humanReason := candidate.reasonForPreservation
  proposedTopics := candidate.entities
  journeyContext := "Tandem mission " ++ candidate.missionId

/-- A workspace and a candidate of it. -/
structure CandidateKey where
  workspaceId : String
  candidateId : String
  deriving DecidableEq

structure ReceiptRow where
  id : String
  key : CandidateKey
  missionId : String
  curationProposalId : String
  receivedAt : Int
  payload : TandemKnowledgeCandidate
  deriving DecidableEq

structure TandemKnowledgeCandidateReceipt where
  receiptId : String
  key : CandidateKey
  revisionOfCandidateId : Option String
  missionId : String
  curationProposalId : String
  receivedAt : Int
  deriving DecidableEq

/-- `tandemKnowledgeCandidateReceiptSchema.parse`, none where a text is empty. -/
def parseReceipt (row : ReceiptRow) (revisionOfCandidateId : Option String) : Option TandemKnowledgeCandidateReceipt :=
  if row.id ≠ "" ∧ row.key.workspaceId ≠ "" ∧ row.key.candidateId ≠ "" ∧ revisionOfCandidateId ≠ some "" ∧
      row.missionId ≠ "" ∧ row.curationProposalId ≠ "" then
    some ⟨row.id, row.key, revisionOfCandidateId, row.missionId, row.curationProposalId, row.receivedAt⟩
  else none

end Candidates

section Store

inductive ProposalStatus where
  | humanReviewRequired
  | approved
  | rejected
  | held
  | requestChanges
  deriving DecidableEq

/-- A curation proposal, with the candidate that it was created for. -/
structure CurationProposal where
  id : String
  key : CandidateKey
  input : CurationInput
  status : ProposalStatus
  deriving DecidableEq

/-- A call that has found no receipt and has not stored one, with its candidate and whether the call has
created a proposal. -/
structure PendingIntake where
  owner : Nat
  key : CandidateKey
  created : Bool
  deriving DecidableEq

structure IntakeStore where
  receipts : List ReceiptRow
  proposals : List CurationProposal
  pending : List PendingIntake
  deriving DecidableEq

def IntakeStore.empty : IntakeStore := ⟨[], [], []⟩

def IntakeStore.receipt? (store : IntakeStore) (key : CandidateKey) : Option ReceiptRow :=
  store.receipts.find? fun receipt => receipt.key = key

def IntakeStore.proposal? (store : IntakeStore) (id : String) : Option CurationProposal :=
  store.proposals.find? fun proposal => proposal.id = id

inductive Command where
  | findParentReceipt (key : CandidateKey)
  | findProposal (id : String)
  | findReceipt (key : CandidateKey)
  | createCuration (key : CandidateKey) (input : CurationInput)
  | randomUUID
  | now
  | createReceipt (row : ReceiptRow)
  | updateProposal (id : String) (status : ProposalStatus)

abbrev Answer : Command → Type
  | .findParentReceipt _ => Option ReceiptRow
  | .findProposal _ => Option CurationProposal
  | .findReceipt _ => Option ReceiptRow
  | .createCuration _ _ => String
  | .randomUUID => String
  | .now => Int
  | .createReceipt _ => ReceiptRow
  | .updateProposal _ _ => Unit

/-- A creation is done, is refused, or is done while its answer is lost. -/
inductive Effect where
  | done
  | refused
  | lost
  deriving DecidableEq

structure Circumstance where
  effect : Effect := .done
  proposalId : String := ""
  uuid : String := ""
  time : Int := 0

def Effect.answer {α : Type} (effect : Effect) (value : α) : Option α := if effect = .done then some value else none

def IntakeStore.withdraw (store : IntakeStore) (index : Nat) : IntakeStore :=
  { store with pending := store.pending.filter fun pending => pending.owner ≠ index }

def IntakeStore.addProposal (store : IntakeStore) (index : Nat) (proposal : CurationProposal) : IntakeStore :=
  { store with
    proposals := store.proposals ++ [proposal]
    pending := store.pending.map fun pending =>
      if pending.owner = index then { pending with created := true } else pending }

def IntakeStore.addReceipt (store : IntakeStore) (index : Nat) (row : ReceiptRow) : IntakeStore :=
  { store.withdraw index with receipts := store.receipts ++ [row] }

def IntakeStore.updateProposal (store : IntakeStore) (id : String) (status : ProposalStatus) : IntakeStore :=
  { store with
    proposals := store.proposals.map fun proposal =>
      if proposal.id = id then { proposal with status := status } else proposal }

def perform (index : Nat) (circumstance : Circumstance) :
    (command : Command) → IntakeStore → Option (Option (Answer command) × IntakeStore)
  | .findParentReceipt key, store => some (some (store.receipt? key), store)
  | .findProposal id, store => some (some (store.proposal? id), store)
  | .findReceipt key, store =>
    match store.receipt? key with
    | some row => some (some (some row), store)
    | none => some (some none, { store with pending := store.pending ++ [⟨index, key, false⟩] })
  | .createCuration key input, store =>
    if circumstance.effect = .refused ∨ (store.proposal? circumstance.proposalId).isSome then
      some (none, store.withdraw index)
    else
      some (circumstance.effect.answer circumstance.proposalId,
        store.addProposal index ⟨circumstance.proposalId, key, input, .humanReviewRequired⟩)
  | .randomUUID, store => some (some circumstance.uuid, store)
  | .now, store => some (some circumstance.time, store)
  | .createReceipt row, store =>
    if circumstance.effect = .refused ∨ (store.receipt? row.key).isSome ∨
        (store.receipts.any fun receipt => receipt.id = row.id) then some (none, store)
    else some (circumstance.effect.answer row, store.addReceipt index row)
  | .updateProposal id status, store =>
    if (store.proposal? id).isSome then some (some (), store.updateProposal id status) else some (none, store)

end Store

section Calls

abbrev IntakeScript := Script Command Answer

abbrev ask (command : Command) : IntakeScript (Answer command) := Script.ask command

def findRevisionParent (workspaceId candidateId : String) : IntakeScript (Option (String × ProposalStatus)) := do
  let receipt ← ask (.findParentReceipt ⟨workspaceId, candidateId⟩)
  match receipt with
  | none => pure none
  | some receipt =>
    let proposal ← ask (.findProposal receipt.curationProposalId)
    pure (proposal.map fun proposal => (receipt.missionId, proposal.status))

/-- "A revision must reference a same-mission candidate with a recorded revision request." -/
def checkRevision (candidate : TandemKnowledgeCandidate) (workspaceId : String) : IntakeScript Unit :=
  match candidate.revision with
  | none => pure ()
  | some parentId => do
    let parent ← findRevisionParent workspaceId parentId
    Script.ofOption (if parent = some (candidate.missionId, .requestChanges) then some () else none)

/-- The candidate is none where its schema refuses it. -/
def intake (rawCandidate : Option TandemKnowledgeCandidate) (workspaceId : String) :
    IntakeScript TandemKnowledgeCandidateReceipt :=
  match rawCandidate with
  | none => .fail
  | some candidate => do
    checkRevision candidate workspaceId
    let existing ← ask (.findReceipt ⟨workspaceId, candidate.candidateId⟩)
    match existing with
    | some existing => Script.ofOption (parseReceipt existing existing.payload.revisionOfCandidateId)
    | none =>
      let curation ← ask (.createCuration ⟨workspaceId, candidate.candidateId⟩ (curationInput candidate))
      let uuid ← ask .randomUUID
      let receivedAt ← ask .now
      let receipt ← ask (.createReceipt ⟨"TANDEM-NURU-RECEIPT-" ++ uuid, ⟨workspaceId, candidate.candidateId⟩,
        candidate.missionId, curation, receivedAt, candidate⟩)
      Script.ofOption (parseReceipt receipt candidate.revisionOfCandidateId)

/-- A transaction of two statements, each of which finds what is committed. -/
def decideNuruCurationProposal (proposalId : String) (status : ProposalStatus) : IntakeScript Unit := do
  let proposal ← ask (.findProposal proposalId)
  match proposal with
  | none => pure ()
  | some proposal => if proposal.status ≠ .humanReviewRequired then .fail else ask (.updateProposal proposalId status)

inductive Request where
  | intake (rawCandidate : Option TandemKnowledgeCandidate) (workspaceId : String)
  | review (proposalId : String) (status : ProposalStatus)

def Request.script : Request → IntakeScript (Option TandemKnowledgeCandidateReceipt)
  | intake rawCandidate workspaceId => some <$> Tandem.intake rawCandidate workspaceId
  | review proposalId status => (fun _ => none) <$> decideNuruCurationProposal proposalId status

end Calls

end CommandConsole.Tandem
