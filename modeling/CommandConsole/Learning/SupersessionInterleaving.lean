import CommandConsole.Library.Crowd
import CommandConsole.Learning.ProvenanceSupersession

/-! # Supersessions that overlap

A supersession awaits between the reads of its circularity check, and between the
check and each of its two links. Other supersessions and other services take
their turns in between, and either link can fail to be written.
-/
namespace CommandConsole.Learning
open Library Relation
set_option autoImplicit false

section Calls

inductive SupersessionPhase where
  | begun
  | walking (prior successor : DurableKnowledge) (search : Search String)
  | relatingSupersedes (prior successor : DurableKnowledge)
  | relatingSupersededBy (prior successor : DurableKnowledge)
  | finished (result : SupersessionResult)
  deriving DecidableEq

/-- A call, the lineage that its check began with, and the links that it has added. -/
structure SupersessionTask where
  call : SupersessionCall
  phase : SupersessionPhase
  checked : List ProvenanceRelationship
  added : List ProvenanceRelationship
  deriving DecidableEq

def supersededByLinks (ledger : ProvenanceLedger) : List ProvenanceRelationship :=
  ledger.relationships.rows.filter fun link => link.type = .supersededBy

/-- `ledger.relate(link)`, which fails when the turn says so or the ledger refuses. -/
def tryRelate (fails : Bool) (ledger : ProvenanceLedger) (link : ProvenanceRelationship) :
    Option ProvenanceLedger :=
  if fails then none else (ledger.relate link).toOption

def newLinks (before after : ProvenanceLedger) : List ProvenanceRelationship :=
  after.relationships.rows.drop before.relationships.rows.length

namespace SupersessionTask

def start (call : SupersessionCall) : SupersessionTask := ⟨call, .begun, [], []⟩

/-- One section of `supersede`, from one await to the next. -/
def advance (fails : Bool) (task : SupersessionTask) (ledger : ProvenanceLedger) :
    SupersessionTask × ProvenanceLedger :=
  match task.phase with
  | .begun =>
    match checkRequest ledger task.call.toSupersessionRequest with
    | .error reason => ({ task with phase := .finished (rejected reason) }, ledger)
    | .ok (prior, successor) =>
      ({ task with
          phase := .walking prior successor (.looking [task.call.successorKnowledgeId] [])
          checked := supersededByLinks ledger }, ledger)
  | .walking prior successor search =>
    match search.step (outgoing ledger (· = .supersededBy)) task.call.priorKnowledgeId with
    | .done true => ({ task with phase := .finished (rejected .circularSupersession) }, ledger)
    | .done false => ({ task with phase := .relatingSupersedes prior successor }, ledger)
    | .looking pending visited =>
      ({ task with phase := .walking prior successor (.looking pending visited) }, ledger)
  | .relatingSupersedes prior successor =>
    match tryRelate fails ledger task.call.supersedesLink with
    | none => ({ task with phase := .finished supersessionFailed }, ledger)
    | some ledger' =>
      ({ task with
          phase := .relatingSupersededBy prior successor
          added := newLinks ledger ledger' }, ledger')
  | .relatingSupersededBy prior successor =>
    match tryRelate fails ledger task.call.supersededByLink with
    | none => ({ task with phase := .finished supersessionFailed }, ledger)
    | some ledger' =>
      ({ task with
          phase := .finished (superseded task.call prior successor)
          added := task.added ++ newLinks ledger ledger' }, ledger')
  | .finished _ => (task, ledger)

/-- The call has written its first link and not yet its second. -/
def halfway (task : SupersessionTask) : Bool :=
  match task.phase with
  | .relatingSupersededBy _ _ => true
  | _ => false

def result? (task : SupersessionTask) : Option SupersessionResult :=
  match task.phase with
  | .finished result => some result
  | _ => none

/-- What a section does: it ends the call without a new link, carries on with the check,
writes one of the two links, or fails to write the second. -/
inductive Advances (fails : Bool) (task : SupersessionTask) (ledger : ProvenanceLedger) :
    SupersessionTask → ProvenanceLedger → Prop where
  | refuses (result : SupersessionResult) (hOpen : task.result? = none) (hNow : task.halfway = false) :
      Advances fails task ledger { task with phase := .finished result } ledger
  | begins (prior successor : DurableKnowledge) (hPhase : task.phase = .begun) :
      Advances fails task ledger
        { task with
          phase := .walking prior successor (.looking [task.call.successorKnowledgeId] [])
          checked := supersededByLinks ledger } ledger
  | walks (prior successor : DurableKnowledge) (search : Search String)
      (hPhase : task.phase = .walking prior successor search) :
      Advances fails task ledger
        { task with
          phase := .walking prior successor
            (search.step (outgoing ledger (· = .supersededBy)) task.call.priorKnowledgeId) } ledger
  | passes (prior successor : DurableKnowledge) (search : Search String)
      (hPhase : task.phase = .walking prior successor search)
      (hStep : search.step (outgoing ledger (· = .supersededBy)) task.call.priorKnowledgeId = .done false) :
      Advances fails task ledger { task with phase := .relatingSupersedes prior successor } ledger
  | linksFirst (prior successor : DurableKnowledge) (ledger' : ProvenanceLedger)
      (hPhase : task.phase = .relatingSupersedes prior successor)
      (hRelate : ledger.relate task.call.supersedesLink = .ok ledger') :
      Advances fails task ledger
        { task with
          phase := .relatingSupersededBy prior successor
          added := newLinks ledger ledger' } ledger'
  | linksSecond (prior successor : DurableKnowledge) (ledger' : ProvenanceLedger)
      (hPhase : task.phase = .relatingSupersededBy prior successor)
      (hRelate : ledger.relate task.call.supersededByLink = .ok ledger') :
      Advances fails task ledger
        { task with
          phase := .finished (superseded task.call prior successor)
          added := task.added ++ newLinks ledger ledger' } ledger'
  | failsSecond (hNow : task.halfway = true)
      (hRelate : tryRelate fails ledger task.call.supersededByLink = none) :
      Advances fails task ledger { task with phase := .finished supersessionFailed } ledger
  | over (hOver : task.result?.isSome) : Advances fails task ledger task ledger

theorem tryRelate_eq_some {fails : Bool} {ledger ledger' : ProvenanceLedger} {link : ProvenanceRelationship}
    (h : tryRelate fails ledger link = some ledger') : ledger.relate link = .ok ledger' := by
  rw [tryRelate] at h
  split at h
  · cases h
  · cases hRelate : ledger.relate link with
    | error _ =>
      rw [hRelate] at h
      cases h
    | ok ledger₁ =>
      rw [hRelate] at h
      exact congrArg Except.ok (Option.some.inj h)

theorem advances (fails : Bool) (task : SupersessionTask) (ledger : ProvenanceLedger) :
    Advances fails task ledger (task.advance fails ledger).1 (task.advance fails ledger).2 := by
  obtain ⟨call, phase, checked, added⟩ := task
  cases phase with
  | begun =>
    dsimp only [advance]
    split
    · exact .refuses _ rfl rfl
    · exact .begins _ _ rfl
  | walking prior successor search =>
    dsimp only [advance]
    split
    · exact .refuses _ rfl rfl
    · rename_i hStep
      exact .passes _ _ search rfl hStep
    · rename_i hStep
      rw [← hStep]
      exact .walks _ _ search rfl
  | relatingSupersedes prior successor =>
    dsimp only [advance]
    split
    · exact .refuses _ rfl rfl
    · rename_i hRelate
      exact .linksFirst _ _ _ rfl (tryRelate_eq_some hRelate)
  | relatingSupersededBy prior successor =>
    dsimp only [advance]
    split
    · rename_i hRelate
      exact .failsSecond rfl hRelate
    · rename_i hRelate
      exact .linksSecond _ _ _ rfl (tryRelate_eq_some hRelate)
  | finished result => exact .over rfl

end SupersessionTask

abbrev SupersessionCrowd := Crowd SupersessionTask ProvenanceLedger

abbrev SupersessionTurn := CrowdTurn SupersessionCall Bool LedgerWrite

def supersessionRules : CrowdRules SupersessionCall SupersessionTask Bool LedgerWrite ProvenanceLedger where
  start := SupersessionTask.start
  advance := SupersessionTask.advance
  outside := LedgerWrite.apply

/-- The other services link no supersession. -/
def OnlySupersessions (turn : SupersessionTurn) (_ : SupersessionCrowd) : Prop :=
  match turn with
  | .outside write => write.unrelated = true
  | _ => True

/-- A call that writes its second link finds the lineage that it checked, and the write goes through. -/
def Settling (turn : SupersessionTurn) (crowd : SupersessionCrowd) : Prop :=
  match turn with
  | .advance index fails => ∀ task ∈ crowd.calls[index]?, task.halfway = true →
      supersededByLinks crowd.store = task.checked ∧
        (tryRelate fails crowd.store task.call.supersededByLink).isSome
  | _ => True

def Orderly (turn : SupersessionTurn) (crowd : SupersessionCrowd) : Prop :=
  OnlySupersessions turn crowd ∧ Settling turn crowd

end Calls

section Links

theorem outgoing_eq (ledger : ProvenanceLedger) (id : String) :
    outgoing ledger (· = .supersededBy) id =
      ((supersededByLinks ledger).filter fun link => link.fromId = id).map (·.toId) := by
  simp only [outgoing, ProvenanceLedger.getRelationships, supersededByLinks, List.filter_filter]
  congr 1
  refine List.filter_congr fun link _ => ?_
  by_cases hFrom : link.fromId = id
  · simp [hFrom]
  · simp [hFrom]

theorem outgoing_congr {ledger ledger' : ProvenanceLedger}
    (h : supersededByLinks ledger = supersededByLinks ledger') :
    outgoing ledger (· = .supersededBy) = outgoing ledger' (· = .supersededBy) := by
  funext id
  rw [outgoing_eq, outgoing_eq, h]

/-- The links of a ledger are never taken back. -/
def Grows (ledger ledger' : ProvenanceLedger) : Prop :=
  ledger.relationships.rows <+: ledger'.relationships.rows

theorem Grows.refl (ledger : ProvenanceLedger) : Grows ledger ledger := List.prefix_refl _

theorem Grows.relate {ledger ledger' : ProvenanceLedger} {link : ProvenanceRelationship}
    (h : ledger.relate link = .ok ledger') : Grows ledger ledger' := by
  rcases (ProvenanceLedger.relate_eq_ok h).2 with ⟨rfl, _⟩ | hRows
  · exact Grows.refl _
  · rw [Grows, hRows]
    exact List.prefix_append ..

theorem Grows.apply (write : LedgerWrite) (ledger : ProvenanceLedger) : Grows ledger (write.apply ledger) := by
  cases write with
  | append record =>
    dsimp only [LedgerWrite.apply]
    cases hAppend : ledger.append record with
    | error _ => exact Grows.refl _
    | ok ledger' =>
      have hSame := ProvenanceLedger.append_relationships hAppend
      exact ⟨[], by rw [List.append_nil, Except.toOption, Option.getD_some, hSame]⟩
  | relate link =>
    dsimp only [LedgerWrite.apply]
    cases hRelate : ledger.relate link with
    | error _ => exact Grows.refl _
    | ok ledger' => exact Grows.relate hRelate

theorem Grows.supersededBy {ledger ledger' : ProvenanceLedger} (h : Grows ledger ledger') :
    supersededByLinks ledger <+: supersededByLinks ledger' := by
  obtain ⟨rest, hRows⟩ := h
  exact ⟨rest.filter _, by rw [supersededByLinks, supersededByLinks, ← hRows, List.filter_append]⟩

end Links

section Check

/-- What a call knows of the lineage at its next section, as long as it is the one that it checked. -/
def SupersessionTask.Knows (task : SupersessionTask) (next : String → List String) : Prop :=
  match task.phase with
  | .begun => True
  | .walking _ _ search => search.Sound next task.call.successorKnowledgeId task.call.priorKnowledgeId
  | .relatingSupersedes _ _ | .relatingSupersededBy _ _ =>
    ¬ ReflTransGen (fun v w => w ∈ next v) task.call.successorKnowledgeId task.call.priorKnowledgeId
  | .finished _ => True

structure SupersessionTask.Checked (task : SupersessionTask) (ledger : ProvenanceLedger) : Prop where
  earlier : task.checked <+: supersededByLinks ledger
  knows : supersededByLinks ledger = task.checked → task.Knows (outgoing ledger (· = .supersededBy))
  clean : ∀ result ∈ task.result?, result.status ≠ .superseded → task.added = []
  waiting : task.result? = none → task.halfway = false → task.added = []

theorem SupersessionTask.Checked.stable {task : SupersessionTask} {ledger ledger' : ProvenanceLedger}
    (hGrows : Grows ledger ledger') (h : task.Checked ledger) : task.Checked ledger' where
  earlier := h.earlier.trans hGrows.supersededBy
  knows hSame := by
    -- a lineage that has changed never comes back
    have hLater : supersededByLinks ledger <+: task.checked := hSame ▸ hGrows.supersededBy
    have hOld := hLater.eq_of_length_le h.earlier.length_le
    rw [← outgoing_congr (hOld.trans hSame.symm)]
    exact h.knows hOld
  clean := h.clean
  waiting := h.waiting

variable {fails : Bool} {task next : SupersessionTask} {ledger ledger' : ProvenanceLedger}

theorem SupersessionTask.Advances.grows (h : task.Advances fails ledger next ledger') :
    Grows ledger ledger' := by
  cases h with
  | linksFirst _ _ _ _ hRelate => exact Grows.relate hRelate
  | linksSecond _ _ _ _ hRelate => exact Grows.relate hRelate
  | _ => exact Grows.refl ledger

theorem SupersessionTask.Advances.checked (hAdvances : task.Advances fails ledger next ledger')
    (h : task.Checked ledger)
    (hSettling : task.halfway = true → (tryRelate fails ledger task.call.supersededByLink).isSome) :
    next.Checked ledger' := by
  have hLater := h.stable hAdvances.grows
  cases hAdvances with
  | refuses result hOpen hNow =>
    exact ⟨h.earlier, fun _ => trivial, fun _ _ _ => h.waiting hOpen hNow, fun hNone => by cases hNone⟩
  | begins prior successor hPhase =>
    refine ⟨List.prefix_refl _, fun _ => Search.sound_start _ _ _, (fun _ hResult => by cases hResult), fun _ _ => ?_⟩
    exact h.waiting (by rw [result?, hPhase]) (by rw [halfway, hPhase])
  | walks prior successor search hPhase =>
    refine ⟨h.earlier, fun hSame => ?_, (fun _ hResult => by cases hResult), fun _ _ => ?_⟩
    · have hKnows := h.knows hSame
      rw [Knows, hPhase] at hKnows
      exact hKnows.step
    · exact h.waiting (by rw [result?, hPhase]) (by rw [halfway, hPhase])
  | passes prior successor search hPhase hStep =>
    refine ⟨h.earlier, fun hSame hReach => ?_, (fun _ hResult => by cases hResult), fun _ _ => ?_⟩
    · have hKnows := h.knows hSame
      rw [Knows, hPhase] at hKnows
      have hDone := hKnows.step
      rw [hStep] at hDone
      exact Bool.noConfusion (hDone.mpr hReach)
    · exact h.waiting (by rw [result?, hPhase]) (by rw [halfway, hPhase])
  | linksFirst prior successor _ hPhase hRelate =>
    refine ⟨hLater.earlier, fun hSame => ?_, (fun _ hResult => by cases hResult), fun _ hNot => by cases hNot⟩
    have hKnows := hLater.knows hSame
    rw [Knows, hPhase] at hKnows
    exact hKnows
  | linksSecond prior successor _ hPhase hRelate =>
    refine ⟨hLater.earlier, fun _ => trivial, fun result hResult hStatus => ?_, fun hNone => by cases hNone⟩
    cases hResult
    exact absurd rfl hStatus
  | failsSecond hNow hRelate =>
    have hSome := hSettling hNow
    rw [hRelate] at hSome
    cases hSome
  | «over» hOver => exact h

theorem leads_of_relate {link : ProvenanceRelationship} (h : ledger.relate link = .ok ledger') {a b : String}
    (hLeads : (along ledger' .supersededBy).Leads a b) :
    (along ledger .supersededBy).Leads a b ∨ link.type = .supersededBy ∧ link.fromId = a ∧ link.toId = b := by
  rw [along_leads] at hLeads ⊢
  exact (ProvenanceLedger.links_relate h _ a b).mp hLeads

/-- The second link of a call whose check still stands closes no cycle. -/
theorem SupersessionTask.Advances.acyclic (hAdvances : task.Advances fails ledger next ledger')
    (hAcyclic : (along ledger .supersededBy).Acyclic) (h : task.Checked ledger)
    (hSettling : task.halfway = true → supersededByLinks ledger = task.checked) :
    (along ledger' .supersededBy).Acyclic := by
  cases hAdvances with
  | linksFirst prior successor _ hPhase hRelate =>
    refine hAcyclic.of_leads fun a b hLeads => ?_
    rcases leads_of_relate hRelate hLeads with hOld | ⟨hType, _⟩
    · exact hOld
    · cases hType
  | linksSecond prior successor _ hPhase hRelate =>
    have hKnows := h.knows (hSettling (by rw [halfway, hPhase]))
    rw [Knows, hPhase] at hKnows
    refine hAcyclic.insert (fun a b hLeads => ?_) hKnows
    rcases leads_of_relate hRelate hLeads with hOld | ⟨_, hFrom, hTo⟩
    · exact .inl hOld
    · exact .inr ⟨hFrom.symm, hTo.symm⟩
  | _ => exact hAcyclic

end Check

section Inverse

/-- A call between its two links accounts for a SUPERSEDES link that has no inverse yet. -/
def SupersessionTask.Owes (task : SupersessionTask) (a b : String) : Prop :=
  task.halfway = true ∧ task.call.priorKnowledgeId = a ∧ task.call.successorKnowledgeId = b

/-- SUPERSEDES is the inverse of SUPERSEDED_BY, up to the calls between their two links. -/
def Answered (crowd : SupersessionCrowd) : Prop :=
  ∀ a b, crowd.store.Links .supersedes b a ↔
    crowd.store.Links .supersededBy a b ∨ ∃ task ∈ crowd.calls, task.Owes a b

theorem owes_iff_of_halfway {task : SupersessionTask} (h : task.halfway = true) (a b : String) :
    task.Owes a b ↔ task.call.priorKnowledgeId = a ∧ task.call.successorKnowledgeId = b := and_iff_right h

theorem owes_iff_false {task : SupersessionTask} (h : task.halfway = false) (a b : String) :
    task.Owes a b ↔ False := by
  rw [SupersessionTask.Owes, h]
  simp only [Bool.false_eq_true, false_and]

variable {fails : Bool} {task next : SupersessionTask} {ledger ledger' : ProvenanceLedger}

/-- What a call owes changes with the links that it writes. -/
theorem SupersessionTask.Advances.owes (h : task.Advances fails ledger next ledger')
    (hSettling : task.halfway = true → (tryRelate fails ledger task.call.supersededByLink).isSome) (a b : String) :
    (task.halfway = false ∧ next.halfway = false ∧ ledger' = ledger) ∨
      (task.halfway = false ∧ (next.Owes a b ↔ task.call.priorKnowledgeId = a ∧ task.call.successorKnowledgeId = b) ∧
        ledger.relate task.call.supersedesLink = .ok ledger') ∨
      (task.halfway = true ∧ next.halfway = false ∧ ledger.relate task.call.supersededByLink = .ok ledger') := by
  cases h with
  | refuses _ _ hNow => exact .inl ⟨hNow, rfl, rfl⟩
  | begins _ _ hPhase => exact .inl ⟨by rw [halfway, hPhase], rfl, rfl⟩
  | walks _ _ _ hPhase => exact .inl ⟨by rw [halfway, hPhase], rfl, rfl⟩
  | passes _ _ _ hPhase _ => exact .inl ⟨by rw [halfway, hPhase], rfl, rfl⟩
  | linksFirst _ _ _ hPhase hRelate =>
    exact .inr (.inl ⟨by rw [halfway, hPhase], owes_iff_of_halfway rfl a b, hRelate⟩)
  | linksSecond _ _ _ hPhase hRelate => exact .inr (.inr ⟨by rw [halfway, hPhase], rfl, hRelate⟩)
  | failsSecond hNow hRelate =>
    have hSome := hSettling hNow
    rw [hRelate] at hSome
    cases hSome
  | «over» hOver =>
    refine .inl ⟨?_, ?_, rfl⟩ <;>
    · rw [result?] at hOver
      rw [halfway]
      split at hOver
      · rename_i hPhase
        rw [hPhase]
      · cases hOver

theorem answered_advance {crowd : SupersessionCrowd} {index : Nat}
    (hTask : crowd.calls[index]? = some task) (h : Answered crowd)
    (hAdvances : task.Advances fails crowd.store next ledger')
    (hSettling : task.halfway = true → (tryRelate fails crowd.store task.call.supersededByLink).isSome) :
    Answered ⟨ledger', crowd.calls.set index next⟩ := by
  intro a b
  have hOld := h a b
  rw [Crowd.exists_mem_iff hTask] at hOld
  dsimp only
  rw [Crowd.exists_mem_set_iff hTask]
  rcases hAdvances.owes hSettling a b with ⟨hNow, hNext, rfl⟩ | ⟨hNow, hOwes, hRelate⟩ | ⟨hNow, hNext, hRelate⟩
  · rw [hOld, owes_iff_false hNow, owes_iff_false hNext]
  · rw [ProvenanceLedger.links_relate hRelate, ProvenanceLedger.links_relate hRelate, hOld, hOwes,
      owes_iff_false hNow]
    simp only [SupersessionCall.supersedesLink, reduceCtorEq, false_and, or_false, false_or, true_and]
    rw [or_assoc]
    refine or_congr_right ?_
    rw [or_comm]
    exact or_congr_left and_comm
  · rw [ProvenanceLedger.links_relate hRelate, ProvenanceLedger.links_relate hRelate, hOld,
      owes_iff_of_halfway hNow, owes_iff_false hNext]
    simp only [SupersessionCall.supersededByLink, reduceCtorEq, false_and, or_false, false_or, true_and]
    rw [or_assoc]

theorem answered_step {turn : SupersessionTurn} {crowd : SupersessionCrowd} (h : Answered crowd)
    (hGuard : Orderly turn crowd) : Answered (Crowd.step supersessionRules turn crowd) := by
  cases turn with
  | enter call =>
    intro a b
    refine (h a b).trans (or_congr_right ⟨?_, ?_⟩)
    · rintro ⟨task, hMem, hOwes⟩
      exact ⟨task, List.mem_append_left _ hMem, hOwes⟩
    · rintro ⟨task, hMem, hOwes⟩
      rcases List.mem_append.mp hMem with hOld | hNew
      · exact ⟨task, hOld, hOwes⟩
      · obtain rfl := List.mem_singleton.mp hNew
        exact absurd hOwes.1 Bool.false_ne_true
  | outside write =>
    intro a b
    have hSame : ∀ type : RelationshipType, type.isSupersession = true → ∀ a b,
        (write.apply crowd.store).Links type a b ↔ crowd.store.Links type a b :=
      fun type hType a b => write.links_apply hGuard.1 hType crowd.store a b
    exact (hSame .supersedes rfl b a).trans ((h a b).trans (or_congr_left (hSame .supersededBy rfl a b).symm))
  | advance index fails =>
    cases hTask : crowd.calls[index]? with
    | none =>
      rw [Crowd.step, hTask]
      exact h
    | some task =>
      rw [Crowd.step_advance hTask]
      exact answered_advance hTask h (task.advances fails crowd.store) fun hHalfway => (hGuard.2 task hTask hHalfway).2

end Inverse

section Runs

/-- The lineage of a ledger before any overlapping supersession. -/
structure Sane (ledger : ProvenanceLedger) : Prop where
  acyclic : (along ledger .supersededBy).Acyclic
  inverse : ∀ a b, ledger.Links .supersedes b a ↔ ledger.Links .supersededBy a b

theorem checked_run {ledger : ProvenanceLedger} {crowd : SupersessionCrowd} (hSane : Sane ledger)
    (h : Reaches (Crowd.step supersessionRules) Orderly (.init ledger) crowd) :
    (along crowd.store .supersededBy).Acyclic ∧ ∀ task ∈ crowd.calls, task.Checked crowd.store := by
  refine Crowd.invariant (P := fun ledger => (along ledger .supersededBy).Acyclic) (R := Grows) h hSane.acyclic
    ?_ ?_ ?_ fun task s t hGrows hTask => hTask.stable hGrows
  · intro call ledger _
    exact ⟨List.nil_prefix, fun _ => trivial, fun _ _ _ => rfl, fun _ _ => rfl⟩
  · intro index fails task crowd hGuard hTask hAcyclic hChecked
    have hAdvances := task.advances fails crowd.store
    have hSettling := hGuard.2 task hTask
    exact ⟨hAdvances.acyclic hAcyclic hChecked fun hHalfway => (hSettling hHalfway).1, hAdvances.grows,
      hAdvances.checked hChecked fun hHalfway => (hSettling hHalfway).2⟩
  · intro write crowd hGuard hAcyclic
    refine ⟨hAcyclic.of_leads fun a b hLeads => ?_, Grows.apply write _⟩
    rw [along_leads] at hLeads ⊢
    exact (write.links_apply hGuard.1 rfl crowd.store a b).mp hLeads

theorem answered_run {ledger : ProvenanceLedger} {crowd : SupersessionCrowd} (hSane : Sane ledger)
    (h : Reaches (Crowd.step supersessionRules) Orderly (.init ledger) crowd) : Answered crowd := by
  refine h.invariant (fun a b => ?_) fun turn crowd hAnswered hGuard => answered_step hAnswered hGuard
  refine (hSane.inverse a b).trans (or_iff_left ?_).symm
  rintro ⟨task, hMem, _⟩
  cases hMem

/-- The lineage stays acyclic, every SUPERSEDED_BY link has its inverse, a SUPERSEDES link without
one belongs to a call between its two links, and a call that ends otherwise has added nothing. -/
theorem lineage_kept_of_orderly (ledger : ProvenanceLedger) (hSane : Sane ledger) (crowd : SupersessionCrowd)
    (h : Reaches (Crowd.step supersessionRules) Orderly (.init ledger) crowd) :
    (along crowd.store .supersededBy).Acyclic ∧
      (∀ a b, crowd.store.Links .supersedes b a ↔
        crowd.store.Links .supersededBy a b ∨ ∃ task ∈ crowd.calls, task.Owes a b) ∧
      ((∀ task ∈ crowd.calls, task.halfway = false) →
        ∀ a b, crowd.store.Links .supersedes b a ↔ crowd.store.Links .supersededBy a b) ∧
      ∀ task ∈ crowd.calls, ∀ result, task.phase = .finished result → result.status ≠ .superseded →
        task.added = [] := by
  obtain ⟨hAcyclic, hChecked⟩ := checked_run hSane h
  have hAnswered := answered_run hSane h
  refine ⟨hAcyclic, hAnswered, fun hQuiet a b => ?_, fun task hMem result hResult => ?_⟩
  · refine (hAnswered a b).trans (or_iff_left ?_)
    rintro ⟨task, hMem, hOwes⟩
    exact absurd hOwes.1 (by rw [hQuiet task hMem]; exact Bool.false_ne_true)
  · exact (hChecked task hMem).clean result (by rw [SupersessionTask.result?, hResult, Option.mem_def])

theorem sane_empty : Sane .empty where
  acyclic v hCycle := by
    obtain ⟨w, hLeads, _⟩ := TransGen.head'_iff.mp hCycle
    exact links_empty .supersededBy v w ((along_leads _ _ v w).mp hLeads)
  inverse a b := iff_of_false (links_empty _ _ _) (links_empty _ _ _)

def reverseCorrection : SupersessionCall where
  priorKnowledgeId := "P-42"
  successorKnowledgeId := "P-17"
  reason := "Human correction"
  actor := ⟨"human:owner", .human⟩
  occurredAt := none
  now := "2026-08-23T00:00:01.000Z"
  supersedesId := "relationship:SUPERSEDES:2"
  supersededById := "relationship:SUPERSEDED_BY:2"

def twoRecords : List SupersessionTurn :=
  [.outside (.append (terminalRecord "P-17")), .outside (.append (terminalRecord "P-42"))]

/-- The correction and its reverse check the lineage before either has written. -/
def opposedTurns : List SupersessionTurn :=
  twoRecords ++ [.enter humanCorrection, .enter reverseCorrection] ++
    List.replicate 3 (.advance 0 false) ++ List.replicate 3 (.advance 1 false) ++
    List.replicate 2 (.advance 0 false) ++ List.replicate 2 (.advance 1 false)

/-- The second link of the correction is not written. -/
def brokenTurns : List SupersessionTurn :=
  twoRecords ++ [.enter humanCorrection] ++ List.replicate 4 (.advance 0 false) ++ [.advance 0 true]

def afterTurns (turns : List SupersessionTurn) : SupersessionCrowd :=
  runAll (Crowd.step supersessionRules) (.init .empty) turns

instance (turn : SupersessionTurn) (crowd : SupersessionCrowd) : Decidable (OnlySupersessions turn crowd) := by
  cases turn with
  | outside write => exact inferInstanceAs (Decidable (write.unrelated = true))
  | _ => exact inferInstanceAs (Decidable True)

instance (turn : SupersessionTurn) (crowd : SupersessionCrowd) : Decidable (Settling turn crowd) := by
  cases turn with
  | advance index fails =>
    exact inferInstanceAs (Decidable (∀ task ∈ crowd.calls[index]?, task.halfway = true →
      supersededByLinks crowd.store = task.checked ∧
        (tryRelate fails crowd.store task.call.supersededByLink).isSome))
  | _ => exact inferInstanceAs (Decidable True)

instance (turn : SupersessionTurn) (crowd : SupersessionCrowd) : Decidable (Orderly turn crowd) :=
  inferInstanceAs (Decidable (OnlySupersessions turn crowd ∧ Settling turn crowd))

theorem onlySupersessions_reaches (turns : List SupersessionTurn)
    (h : GuardedAll (Crowd.step supersessionRules) OnlySupersessions (.init .empty) turns) :
    Reaches (Crowd.step supersessionRules) OnlySupersessions (.init .empty) (afterTurns turns) := h.reaches

theorem lineage_kept_of_orderly_correction :
    (along (afterTurns (twoRecords ++ [.enter humanCorrection] ++ List.replicate 5 (.advance 0 false))).store
      .supersededBy).Acyclic := by
  have hOrderly : GuardedAll (Crowd.step supersessionRules) Orderly (.init .empty)
      (twoRecords ++ [.enter humanCorrection] ++ List.replicate 5 (.advance 0 false)) := by decide +kernel
  exact (lineage_kept_of_orderly .empty sane_empty _ hOrderly.reaches).1

/-- Opposite supersessions that overlap make a cycle, and a failure between the two links leaves
one of them behind though the call reports that it wrote nothing. -/
theorem overlapping_supersessions_break_lineage :
    (¬ ∀ crowd, Reaches (Crowd.step supersessionRules) OnlySupersessions (.init .empty) crowd →
      (along crowd.store .supersededBy).Acyclic) ∧
      ¬ ∀ crowd, Reaches (Crowd.step supersessionRules) OnlySupersessions (.init .empty) crowd →
        ∀ task ∈ crowd.calls, task.phase = .finished supersessionFailed → task.added = [] := by
  constructor
  · intro h
    have hThere : (along (afterTurns opposedTurns).store .supersededBy).Leads "P-17" "P-42" := by
      change "P-42" ∈ outgoing (afterTurns opposedTurns).store (· = .supersededBy) "P-17"
      decide +kernel
    have hBack : (along (afterTurns opposedTurns).store .supersededBy).Leads "P-42" "P-17" := by
      change "P-17" ∈ outgoing (afterTurns opposedTurns).store (· = .supersededBy) "P-42"
      decide +kernel
    exact h _ (onlySupersessions_reaches opposedTurns (by decide +kernel)) "P-17" (.head hThere (.single hBack))
  · intro h
    have hAdded := h _ (onlySupersessions_reaches brokenTurns (by decide +kernel))
    revert hAdded
    decide +kernel

end Runs
end CommandConsole.Learning
