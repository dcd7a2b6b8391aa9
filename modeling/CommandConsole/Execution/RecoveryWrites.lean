import CommandConsole.Execution.RecoveryCommit
import CommandConsole.Execution.SnapshotStatuses

/-! # Where the statuses of a recovery come from

A resume stores the statuses of the snapshot it was given. A retry leaves every status
or makes it pending again, and the other modes touch no step and no stage. -/
namespace CommandConsole.Execution
open Library
set_option autoImplicit false

section Statuses

variable {db next : Db} {env : Env}

/-- After a loop of upserts a key has the status of one of its rows, or the one it had. -/
theorem upserts_view {ρ : Type} {upsert : ρ → Tx Unit} {keyOf : ρ → String × String} {statusOf : ρ → Status}
    {view : Db → String × String → Option Status} {rows : List ρ} {u : Unit}
    (hUpsert : ∀ row db next v, upsert row env db = .ok (v, next) → ∀ key,
      view next key = if key = keyOf row then some (statusOf row) else view db key)
    (hRun : Library.Tx.forEach upsert rows env db = .ok (u, next)) (key : String × String) :
    (∃ row ∈ rows, keyOf row = key ∧ view next key = some (statusOf row)) ∨
      (∀ row ∈ rows, keyOf row ≠ key) ∧ view next key = view db key := by
  induction rows generalizing db with
  | nil =>
    cases hRun
    exact .inr ⟨fun row hRow => absurd hRow List.not_mem_nil, rfl⟩
  | cons row rows ih =>
    obtain ⟨v, mid, hItem, hRest⟩ := Library.Tx.bind_eq_ok.mp hRun
    have hMid := hUpsert row db mid v hItem key
    rcases ih hRest with ⟨later, hLater, hKey, hView⟩ | ⟨hOthers, hView⟩
    · exact .inl ⟨later, List.mem_cons_of_mem _ hLater, hKey, hView⟩
    · by_cases hKey : key = keyOf row
      · rw [if_pos hKey] at hMid
        exact .inl ⟨row, List.mem_cons_self, hKey.symm, hView.trans hMid⟩
      · rw [if_neg hKey] at hMid
        exact .inr ⟨List.forall_mem_cons.mpr ⟨fun h => hKey h.symm, hOthers⟩, hView.trans hMid⟩

/-- A row that outlives the deletion of unlisted rows is listed or belongs to another execution. -/
theorem listed_of_find?_keep {ρ υ : Type} {keyOf : ρ → String × String} {alt : ρ → Option υ} [DecidableEq υ]
    {table : Table keyOf alt} {rows : List ρ} {executionId : String} {key : String × String} {row : ρ}
    (h : (table.keep fun row => (keyOf row).1 ≠ executionId ||
      rows.any fun other => (keyOf other).2 = (keyOf row).2).find? key = some row) :
    table.find? key = some row ∧ (key.1 = executionId → ∃ other ∈ rows, (keyOf other).2 = key.2) := by
  rw [Table.find?_keep, Option.filter_eq_some_iff] at h
  obtain ⟨hFind, hTest⟩ := h
  refine ⟨hFind, fun hOwn => ?_⟩
  obtain rfl := Table.find?_key hFind
  simpa [hOwn] using hTest

variable {executionId : String}

/-- The statuses after a replacement: those that the rows list, other executions keep theirs. -/
theorem replaceExecutionSteps_listed {rows : List StepRow} {u : Unit} (hOwn : ∀ row ∈ rows, row.executionId = executionId)
    (h : replaceExecutionSteps executionId rows env db = .ok (u, next)) (key : String × String) (status : Status)
    (hStatus : next.stepStatus key = some status) :
    (key.1 = executionId → ∃ row ∈ rows, row.key = key ∧ row.status = status) ∧
      (key.1 ≠ executionId → db.stepStatus key = some status) := by
  obtain ⟨v, mid, hUpserts, hKeep⟩ := Library.Tx.bind_eq_ok.mp h
  cases hKeep
  obtain ⟨row, hFind, rfl⟩ := Option.map_eq_some_iff.mp hStatus
  obtain ⟨hMid, hListed⟩ := listed_of_find?_keep hFind
  have hMidStatus : mid.stepStatus key = some row.status := by rw [Db.stepStatus, hMid, Option.map_some]
  rcases upserts_view (fun row s s' w hItem => upsertStepRow_status hItem) hUpserts key with
    ⟨other, hOther, hKey, hView⟩ | ⟨hOthers, hView⟩
  · refine ⟨fun _ => ⟨other, hOther, hKey, Option.some.inj (hView.symm.trans hMidStatus)⟩, fun hForeign => ?_⟩
    exact absurd ((congrArg Prod.fst hKey).symm.trans (hOwn other hOther)) hForeign
  · refine ⟨fun hMine => ?_, fun _ => hView.symm.trans hMidStatus⟩
    obtain ⟨other, hOther, hId⟩ := hListed hMine
    exact absurd (Prod.ext ((hOwn other hOther).trans hMine.symm) hId) (hOthers other hOther)

theorem replaceExecutionStages_listed {rows : List StageRow} {u : Unit}
    (hOwn : ∀ row ∈ rows, row.executionId = executionId)
    (h : replaceExecutionStages executionId rows env db = .ok (u, next)) (key : String × String) (status : Status)
    (hStatus : next.stageStatus key = some status) :
    (key.1 = executionId → ∃ row ∈ rows, row.key = key ∧ row.status = status) ∧
      (key.1 ≠ executionId → db.stageStatus key = some status) := by
  obtain ⟨v, mid, hUpserts, hKeep⟩ := Library.Tx.bind_eq_ok.mp h
  cases hKeep
  obtain ⟨row, hFind, rfl⟩ := Option.map_eq_some_iff.mp hStatus
  obtain ⟨hMid, hListed⟩ := listed_of_find?_keep hFind
  have hMidStatus : mid.stageStatus key = some row.status := by rw [Db.stageStatus, hMid, Option.map_some]
  rcases upserts_view (fun row s s' w hItem => upsertStageRow_status hItem) hUpserts key with
    ⟨other, hOther, hKey, hView⟩ | ⟨hOthers, hView⟩
  · refine ⟨fun _ => ⟨other, hOther, hKey, Option.some.inj (hView.symm.trans hMidStatus)⟩, fun hForeign => ?_⟩
    exact absurd ((congrArg Prod.fst hKey).symm.trans (hOwn other hOther)) hForeign
  · refine ⟨fun hMine => ?_, fun _ => hView.symm.trans hMidStatus⟩
    obtain ⟨other, hOther, hId⟩ := hListed hMine
    exact absurd (Prod.ext ((hOwn other hOther).trans hMine.symm) hId) (hOthers other hOther)

end Statuses

section Derivation

variable {db next : Db} {env : Env} {request : CommitRequest} {snapshot : RecoverySnapshot}

/-- The statuses of a loaded snapshot, as writing the snapshot stores them. -/
def RecoverySnapshot.stepStatuses (snapshot : RecoverySnapshot) : List ((String × String) × Status) :=
  snapshot.steps.mapIdx fun index step =>
    ((snapshot.execution.id, (truthy (some step.1.id)).getD s!"step_{index + 1}"),
      normalizeStepStatus step.1.status.text)

def RecoverySnapshot.stageStatuses (snapshot : RecoverySnapshot) : List ((String × String) × Status) :=
  snapshot.stages.mapIdx fun index stage =>
    ((snapshot.execution.id, (truthy (some stage.id)).getD s!"stage_{index + 1}"),
      normalizeStageStatus stage.status.text)

/-- The execution has written statuses only, the other executions have the ones they had. -/
def Replaced (executionId : String) (written : List ((String × String) × Status))
    (before after : String × String → Option Status) : Prop :=
  ∀ key status, after key = some status →
    (key.1 = executionId → (key, status) ∈ written) ∧ (key.1 ≠ executionId → before key = some status)

/-- Every status is the one it was, or `pending` again. -/
def Redone (before after : String × String → Option Status) : Prop :=
  ∀ key, after key = before key ∨ (before key).isSome = true ∧ after key = some .pending

theorem Redone.refl (before : String × String → Option Status) : Redone before before := fun _ => .inl rfl

theorem Redone.trans {first second third : String × String → Option Status} (h : Redone first second)
    (h' : Redone second third) : Redone first third := by
  intro key
  rcases h' key with hSame | ⟨hStored, hPending⟩
  · rw [hSame]
    exact h key
  · rcases h key with hSame | ⟨hFirst, -⟩
    · exact .inr ⟨hSame ▸ hStored, hPending⟩
    · exact .inr ⟨hFirst, hPending⟩

/-- Where the statuses of the steps and stages after the transaction come from. -/
def DerivedStatuses (request : CommitRequest) (snapshot : RecoverySnapshot) (started after : Db) : Prop :=
  match request.mode with
  | .resume =>
    Replaced snapshot.execution.id snapshot.stepStatuses started.stepStatus after.stepStatus ∧
      Replaced snapshot.execution.id snapshot.stageStatuses started.stageStatus after.stageStatus
  | .retrySafeSteps =>
    Redone started.stepStatus after.stepStatus ∧ Redone started.stageStatus after.stageStatus
  | _ => after.executionSteps = started.executionSteps ∧ after.executionStages = started.executionStages

/-- The tables of the steps and the stages. -/
def Db.progress (db : Db) : Table StepRow.key StepRow.position × Table StageRow.key StageRow.position :=
  (db.executionSteps, db.executionStages)

theorem stepStatus_of_progress (h : next.progress = db.progress) : next.stepStatus = db.stepStatus := by
  have hSteps : next.executionSteps = db.executionSteps := congrArg Prod.fst h
  funext key
  rw [Db.stepStatus, Db.stepStatus, hSteps]

theorem stageStatus_of_progress (h : next.progress = db.progress) : next.stageStatus = db.stageStatus := by
  have hStages : next.executionStages = db.executionStages := congrArg Prod.snd h
  funext key
  rw [Db.stageStatus, Db.stageStatus, hStages]

theorem keepsProgress_event (event : LedgerEvent) : Tx.Keeps Db.progress (appendLedgerEventTx event) :=
  keeps_appendLedgerEventTx fun _ _ _ => rfl

theorem keepsProgress_setStatus (planId : String) (status : Status) :
    Tx.Keeps Db.progress (orThrow (setExecutionCheckpointStatus planId status {})) :=
  keeps_orThrow (keeps_changeCheckpoint (fun _ _ => rfl) planId _)

theorem keepsProgress_acquireOrReuse (planId executionId : String) :
    Tx.Keeps Db.progress (orThrow (acquireOrReuseExecutionLockTx planId executionId .none)) := by
  have hGranted (existing : Option LockRow) (eventType : EventType) :
      Tx.Keeps Db.progress (writeAcquiredLockTx planId executionId .none existing eventType) :=
    keeps_writeAcquiredLockTx (fun _ _ => rfl) (fun _ _ => rfl) _ _ _ _ fun _ _ _ => rfl
  refine keeps_orThrow (keeps_identified (.bind .get fun db => ?_))
  split
  · exact hGranted _ _
  · exact .ite (.bind (keepsProgress_event _) fun _ => .pure _) (hGranted _ _)

theorem keepsProgress_releaseTolerantly (request : CommitRequest) :
    Tx.Keeps Db.progress (releaseTolerantly request) := by
  refine .bind (keeps_releaseExecutionLockTx (fun _ _ => rfl) (fun _ _ => rfl) _ _ _ fun _ _ _ => rfl) fun result => ?_
  split
  · exact .pure _
  · exact .ite (.pure _) (.throw _)

theorem keepsProgress_endExecution (status : Status) (eventType : EventType) (request : CommitRequest) :
    Tx.Keeps Db.progress (endExecution status eventType request) :=
  .bind (keepsProgress_setStatus _ _) fun _ => .bind (keepsProgress_releaseTolerantly request) fun _ =>
    .bind (keepsProgress_event _) fun _ => .pure _

/-- The rows of the written run list the statuses of the snapshot. -/
theorem stepRows_statuses (snapshot : RecoverySnapshot) (grant : LockGrant) (nowMs : Int) {row : StepRow}
    (hId : (normalizeExecutionRow (normalizeRunFromSnapshot snapshot grant) nowMs).id = snapshot.execution.id)
    (hRow : row ∈ (normalizeRunFromSnapshot snapshot grant).stepRows nowMs) :
    (row.key, row.status) ∈ snapshot.stepStatuses := by
  rw [Run.stepRows, normalizedSteps, hId] at hRow
  obtain ⟨index, hIndex, rfl⟩ := List.mem_mapIdx.mp hRow
  have hListed : index < snapshot.steps.length := by
    rwa [normalizeRunFromSnapshot, List.length_map] at hIndex
  refine List.mem_mapIdx.mpr ⟨index, hListed, ?_⟩
  simp only [normalizeRunFromSnapshot, List.getElem_map]
  rfl

theorem stageRows_statuses (snapshot : RecoverySnapshot) (grant : LockGrant) (nowMs : Int) {row : StageRow}
    (hId : (normalizeExecutionRow (normalizeRunFromSnapshot snapshot grant) nowMs).id = snapshot.execution.id)
    (hRow : row ∈ (normalizeRunFromSnapshot snapshot grant).stageRows nowMs) :
    (row.key, row.status) ∈ snapshot.stageStatuses := by
  rw [Run.stageRows, normalizedStages, hId] at hRow
  obtain ⟨index, hIndex, rfl⟩ := List.mem_mapIdx.mp hRow
  have hListed : index < snapshot.stages.length := by
    rwa [normalizeRunFromSnapshot, List.length_map] at hIndex
  refine List.mem_mapIdx.mpr ⟨index, hListed, ?_⟩
  simp only [normalizeRunFromSnapshot, List.getElem_map]
  rfl

theorem persistExecutionSnapshot_identity {run : Run} {options : PersistOptions} {row : ExecutionRow}
    (h : persistExecutionSnapshot run options env db = .ok (row, next)) : run.identity.isSome = true := by
  cases hIdentity : run.identity with
  | none =>
    rw [persistExecutionSnapshot, hIdentity] at h
    cases h
  | some identity => rfl

theorem writtenId (snapshot : RecoverySnapshot) (grant : LockGrant) (nowMs : Int)
    (h : (normalizeRunFromSnapshot snapshot grant).identity.isSome = true) :
    (normalizeExecutionRow (normalizeRunFromSnapshot snapshot grant) nowMs).id = snapshot.execution.id := by
  have hIdentity : (normalizeRunFromSnapshot snapshot grant).identity = truthy (some snapshot.execution.id) := by
    rw [Run.identity, normalizeRunFromSnapshot]
    cases truthy (some snapshot.execution.id) <;> rfl
  rw [normalizeExecutionRow, hIdentity]
  rw [hIdentity] at h
  obtain ⟨id, hId⟩ := Option.isSome_iff_exists.mp h
  rw [hId, Option.getD_some]
  exact (Option.some.inj (Option.filter_eq_some_iff.mp hId).1).symm

theorem resumePlan_derived {stepId : Option String} (h : resumePlan request snapshot env db = .ok (stepId, next)) :
    Replaced snapshot.execution.id snapshot.stepStatuses db.stepStatus next.stepStatus ∧
      Replaced snapshot.execution.id snapshot.stageStatuses db.stageStatus next.stageStatus := by
  obtain ⟨grant, locked, hLock, hAfterLock⟩ := Tx.bind_eq_ok.mp h
  obtain ⟨checkpoint, set, hSet, hAfterSet⟩ := Tx.bind_eq_ok.mp hAfterLock
  obtain ⟨row, persisted, hPersist, hAfterPersist⟩ := Tx.bind_eq_ok.mp hAfterSet
  obtain ⟨instant, logged, hLogged, hLast⟩ := Tx.bind_eq_ok.mp hAfterPersist
  cases hLast
  have hBefore : set.progress = db.progress :=
    (keepsProgress_setStatus _ _ env locked checkpoint set hSet).trans
      (keepsProgress_acquireOrReuse _ _ env db grant locked hLock)
  have hAfter : next.progress = persisted.progress := keepsProgress_event _ env persisted instant next hLogged
  have hPersist := Tx.mapThrow_eq_ok.mp hPersist
  have hId := writtenId snapshot grant env.nowMs (persistExecutionSnapshot_identity hPersist)
  have hWritten := persistExecutionSnapshot_ok hPersist
  constructor
  · intro key status hStatus
    obtain ⟨mid, last, u, hMid, hReplace, hLast⟩ := hWritten.replacedSteps
    rw [stepStatus_of_progress hAfter, Db.stepStatus, hLast] at hStatus
    have hOwn : ∀ row ∈ (normalizeRunFromSnapshot snapshot grant).stepRows env.nowMs,
        row.executionId = (normalizeExecutionRow (normalizeRunFromSnapshot snapshot grant) env.nowMs).id := by
      intro row hRow
      obtain ⟨index, hIndex, rfl⟩ := List.mem_mapIdx.mp hRow
      rfl
    obtain ⟨hListed, hForeign⟩ := replaceExecutionSteps_listed hOwn hReplace key status hStatus
    rw [hId] at hListed hForeign
    refine ⟨fun hMine => ?_, fun hOther => ?_⟩
    · obtain ⟨row, hRow, rfl, rfl⟩ := hListed hMine
      exact stepRows_statuses snapshot grant env.nowMs hId hRow
    · rw [← stepStatus_of_progress hBefore, Db.stepStatus, ← hMid]
      exact hForeign hOther
  · intro key status hStatus
    obtain ⟨mid, last, u, hMid, hReplace, hLast⟩ := hWritten.replacedStages
    rw [stageStatus_of_progress hAfter, Db.stageStatus, hLast] at hStatus
    have hOwn : ∀ row ∈ (normalizeRunFromSnapshot snapshot grant).stageRows env.nowMs,
        row.executionId = (normalizeExecutionRow (normalizeRunFromSnapshot snapshot grant) env.nowMs).id := by
      intro row hRow
      obtain ⟨index, hIndex, rfl⟩ := List.mem_mapIdx.mp hRow
      rfl
    obtain ⟨hListed, hForeign⟩ := replaceExecutionStages_listed hOwn hReplace key status hStatus
    rw [hId] at hListed hForeign
    refine ⟨fun hMine => ?_, fun hOther => ?_⟩
    · obtain ⟨row, hRow, rfl, rfl⟩ := hListed hMine
      exact stageRows_statuses snapshot grant env.nowMs hId hRow
    · rw [← stageStatus_of_progress hBefore, Db.stageStatus, ← hMid]
      exact hForeign hOther

/-- The statuses of both tables are redone. -/
def RedoneStatuses (db next : Db) : Prop :=
  Redone db.stepStatus next.stepStatus ∧ Redone db.stageStatus next.stageStatus

instance : Std.Refl RedoneStatuses := ⟨fun _ => ⟨.refl _, .refl _⟩⟩

instance : IsTrans Db RedoneStatuses := ⟨fun _ _ _ h h' => ⟨h.1.trans h'.1, h.2.trans h'.2⟩⟩

theorem RedoneStatuses.of_progress (h : next.progress = db.progress) : RedoneStatuses db next := by
  constructor
  · rw [stepStatus_of_progress h]
    exact .refl _
  · rw [stageStatus_of_progress h]
    exact .refl _

theorem redone_of_keeps {α : Type} {work : Tx α} (h : Tx.Keeps Db.progress work) :
    Tx.Respects RedoneStatuses work :=
  fun env db a next hRun => .of_progress (h env db a next hRun)

theorem retriedStepRow_status (target row : StepRow) :
    (retriedStepRow target row).status = row.status ∨ (retriedStepRow target row).status = .pending := by
  rw [retriedStepRow]
  dsimp only
  split
  · exact .inr rfl
  · split
    · exact .inr rfl
    · exact .inl rfl

theorem retriedStageRow_status (sequence now : Int) (row : StageRow) :
    (retriedStageRow sequence now row).status = row.status ∨ (retriedStageRow sequence now row).status = .pending := by
  rw [retriedStageRow]
  dsimp only
  split
  · exact .inl rfl
  · split
    · exact .inr rfl
    · exact .inl rfl

/-- An update that leaves a status or makes it `pending` redoes the statuses of its table. -/
theorem redone_update {ρ υ : Type} {keyOf : ρ → String × String} {alt : ρ → Option υ} [DecidableEq υ]
    (table : Table keyOf alt) (statusOf : ρ → Status) (test : ρ → Bool) (change : ρ → ρ)
    (hKey : ∀ row, keyOf (change row) = keyOf row) (hAlt : ∀ row, alt (change row) = alt row)
    (hStatus : ∀ row, statusOf (change row) = statusOf row ∨ statusOf (change row) = .pending) :
    Redone (fun key => (table.find? key).map statusOf)
      (fun key => ((table.update test change hKey hAlt).find? key).map statusOf) := by
  intro key
  dsimp only
  rw [Table.find?_update]
  cases hFind : table.find? key with
  | none => exact .inl rfl
  | some row =>
    rw [Option.map_some, Option.map_some, Option.map_some]
    split
    · rcases hStatus row with hSame | hPending
      · exact .inl (congrArg some hSame)
      · exact .inr ⟨rfl, congrArg some hPending⟩
    · exact .inl rfl

theorem redone_retryStepAction (planId executionId : String) (checkpoint : Checkpoint) (stepId : Option String) :
    Tx.Respects RedoneStatuses (retryStepAction planId executionId checkpoint stepId) := by
  have hTail (event : LedgerEvent) (nextCheckpoint : Checkpoint) :
      Tx.Respects RedoneStatuses (do
        requireExecution executionId
        let _ ← appendLedgerEventTx event
        success nextCheckpoint) :=
    redone_of_keeps (.bind (keeps_requireExecution _) fun _ => .bind (keepsProgress_event _) fun _ => .pure _)
  refine .bind .ask fun env => .bind .get fun db => ?_
  split
  · exact .pure _
  · rename_i target hTarget
    refine .bind (.modify fun db => .of_progress rfl) fun _ => .bind (.modify fun db => .of_progress rfl) fun _ =>
      .bind (.modify fun db => ⟨?_, .refl _⟩) fun _ => ?_
    · exact redone_update _ _ _ _ (retriedStepRow_key target) (retriedStepRow_position target) (retriedStepRow_status target)
    · split
      · exact hTail _ _
      · refine .bind (.modify fun db => ⟨.refl _, ?_⟩) fun _ => hTail _ _
        exact redone_update _ _ _ _ (retriedStageRow_key _ _) (retriedStageRow_position _ _) (retriedStageRow_status _ _)

theorem redone_applyRetry (planId executionId : String) {options : OperatorOptions}
    (hRetry : options.action = .retryStep) :
    Tx.Respects RedoneStatuses (applyOperatorRecoveryAction planId executionId options) := by
  refine .ite (.pure _) (.ite (.pure _) (.ite (.pure _) (.ite (.pure _) (.mapThrow (.bind .get fun db => ?_) _))))
  split
  · exact .pure _
  · split
    · exact .pure _
    · refine .ite (.pure _) (.ite (.pure _) ?_)
      rw [hRetry]
      exact redone_retryStepAction _ _ _ _

theorem redone_retrySafeSteps (request : CommitRequest) : Tx.Respects RedoneStatuses (retrySafeSteps request) := by
  have hAction : Tx.Respects RedoneStatuses (orThrow (applyOperatorRecoveryAction request.planId request.executionId {
      action := .retryStep
      operatorId := trimmed request.requestedBy
      reason := "Committed safe recovery replay."
      stepId := truthy request.plan.nextStepId })) := by
    intro env db checkpoint next h
    exact redone_applyRetry _ _ rfl env db _ next (orThrow_eq_ok.mp h)
  exact .bind hAction fun _ => .bind (redone_of_keeps (keepsProgress_event _)) fun _ => .pure _

/-- A transaction that commits writes statuses of the snapshot it was given or of the state it starts in. -/
theorem writeRecovery_derived {receipt : CommitReceipt}
    (h : writeRecovery request snapshot env db = .ok (receipt, next)) : DerivedStatuses request snapshot db next := by
  obtain ⟨instant, logged, hLogged, hWork⟩ := Tx.bind_eq_ok.mp h
  obtain ⟨stepId, written, hMode, hReceipt⟩ := Tx.bind_eq_ok.mp hWork
  cases hReceipt
  have hBefore : logged.progress = db.progress := keepsProgress_event _ env db instant logged hLogged
  have hEnded {status : Status} {eventType : EventType}
      (hRun : endExecution status eventType request env logged = .ok (stepId, next)) :
      next.executionSteps = db.executionSteps ∧ next.executionStages = db.executionStages := by
    have hSame : next.progress = db.progress :=
      (keepsProgress_endExecution _ _ request env logged stepId next hRun).trans hBefore
    exact ⟨congrArg Prod.fst hSame, congrArg Prod.snd hSame⟩
  unfold applyMode at hMode
  unfold DerivedStatuses
  cases hKind : request.mode with
  | resume =>
    rw [hKind] at hMode
    have hResumed := resumePlan_derived hMode
    rwa [stepStatus_of_progress hBefore, stageStatus_of_progress hBefore] at hResumed
  | retrySafeSteps =>
    rw [hKind] at hMode
    have hRedone := redone_retrySafeSteps request env logged stepId next hMode
    rwa [RedoneStatuses, stepStatus_of_progress hBefore, stageStatus_of_progress hBefore] at hRedone
  | operatorRecovery =>
    rw [hKind] at hMode
    exact hEnded hMode
  | abandon =>
    rw [hKind] at hMode
    exact hEnded hMode
  | markCorrupted =>
    rw [hKind] at hMode
    exact hEnded hMode
  | other text =>
    rw [hKind] at hMode
    cases hMode

end Derivation

end CommandConsole.Execution
