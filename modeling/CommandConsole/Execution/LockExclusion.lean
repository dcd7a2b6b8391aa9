import CommandConsole.Execution.LockOperations

/-! # Mutual exclusion of the plan lock

The holder of a plan's lock keeps it against every other worker until its own
release or the expiry of its last lease, unless another worker calls with the
execution id of the held lock: acquire-or-reuse and release compare nothing else.
-/
namespace CommandConsole.Execution
open Library
set_option autoImplicit false

/-- The database and the lease expiry last granted to the holder. -/
structure Hold where
  db : Db
  lease : Int

section Term

variable (worker planId : String)

def Hold.next (call : LockCall) (hold : Hold) : Hold where
  db := (call.outcome hold.db).2
  lease :=
    match (call.outcome hold.db).1 with
    | .ok lease =>
      if call.env.workerId = worker ∧ call.planId = planId ∧ call.op ≠ .release then lease else hold.lease
    | .error _ => hold.lease

def LockCall.endsTerm (call : LockCall) (db : Db) : Prop :=
  call.env.workerId = worker ∧ call.planId = planId ∧ call.op = .release ∧
    ∃ released, (call.outcome db).1 = .ok released

/-- The call comes before the lease has expired and is not the holder's release. -/
def LockCall.inTerm (call : LockCall) (hold : Hold) : Prop :=
  call.env.nowMs < hold.lease ∧ ¬call.endsTerm worker planId hold.db

def lockOwnership (row : LockRow) : String × Option Int := (row.workerId, row.lockReleasedAt)

/-- Another worker acquires the lock, or sets its release or its worker. -/
def LockCall.intrudes (call : LockCall) (db : Db) : Prop :=
  call.env.workerId ≠ worker ∧
    ((call.planId = planId ∧ call.isAcquire ∧ ∃ lease, (call.outcome db).1 = .ok lease) ∨
      ((call.outcome db).2.lockOf planId).map lockOwnership ≠ (db.lockOf planId).map lockOwnership)

/-- Another worker reuses or releases the lock under the execution id that holds it. -/
def LockCall.reenters (call : LockCall) (db : Db) : Prop :=
  call.env.workerId ≠ worker ∧ call.planId = planId ∧
    ∃ row, db.lockOf planId = some row ∧ row.executionId = call.executionId ∧
      (call.op = .acquireOrReuse ∨ (call.op = .release ∧ call.scope.excludes row.tenantId = false))

end Term

/-- The lock row of the plan as its holder left it. -/
structure Held (worker planId : String) (hold : Hold) (row : LockRow) : Prop where
  valid : ensureIdentity planId row.executionId = none
  row_eq : hold.db.lockOf planId = some row
  worker_eq : row.workerId = worker
  unreleased : row.lockReleasedAt = none
  lease_eq : row.leaseExpiresAt = some hold.lease

theorem ensureIdentity_of_acquired {call : LockCall} {db : Db} {lease : Int} (hAcquire : call.isAcquire)
    (hOk : (call.outcome db).1 = .ok lease) : ensureIdentity call.planId call.executionId = none := by
  cases hId : ensureIdentity call.planId call.executionId with
  | none => rfl
  | some err =>
    exfalso
    have hRefused : (call.outcome db).1 = .error err := by
      cases hOp : call.op with
      | acquire =>
        have hRun : acquireExecutionLockTx call.planId call.executionId call.scope call.env db =
            .ok (.error err, db) := by
          rw [acquireExecutionLockTx, identified_of_invalid hId, Tx.pure_apply]
        rw [LockCall.outcome_of_ok (by rw [LockCall.work, hOp]) hRun]
        rfl
      | acquireOrReuse =>
        have hRun : acquireOrReuseExecutionLockTx call.planId call.executionId call.scope call.env db =
            .ok (.error err, db) := by
          rw [acquireOrReuseExecutionLockTx, identified_of_invalid hId, Tx.pure_apply]
        rw [LockCall.outcome_of_ok (by rw [LockCall.work, hOp]) hRun]
        rfl
      | renew => simp [LockCall.isAcquire, hOp] at hAcquire
      | heartbeat stepId attemptNumber => simp [LockCall.isAcquire, hOp] at hAcquire
      | release => simp [LockCall.isAcquire, hOp] at hAcquire
    rw [hOk] at hRefused
    cases hRefused

theorem not_release_of_isAcquire {call : LockCall} (h : call.isAcquire) : call.op ≠ .release := by
  intro hOp
  simp [LockCall.isAcquire, hOp] at h

theorem held_of_acquire {call : LockCall} {db : Db} {lease : Int} (hAcquire : call.isAcquire)
    (hOk : (call.outcome db).1 = .ok lease) :
    ∃ row, Held call.env.workerId call.planId ⟨(call.outcome db).2, lease⟩ row := by
  have hValid := ensureIdentity_of_acquired hAcquire hOk
  cases call.effect db with
  | kept h err hResult =>
    rw [hOk] at hResult
    cases hResult
  | granted row h _ hResult hFree hExecution hWorker hReleased hLease =>
    rw [hOk, Except.ok.injEq] at hResult
    exact ⟨row, hExecution ▸ hValid, h, hWorker, hReleased, hResult ▸ hLease⟩
  | renewed row h hNotAcquire =>
    rw [hAcquire] at hNotAcquire
    cases hNotAcquire
  | released row h hOp => exact absurd hOp (not_release_of_isAcquire hAcquire)

section Exclusion

variable {worker planId : String} {hold : Hold} {row : LockRow} {call : LockCall}

theorem Held.next_lease_of_error (err : Failure) (h : (call.outcome hold.db).1 = .error err) :
    (hold.next worker planId call).lease = hold.lease := by
  simp only [Hold.next, h]

theorem Held.next_lease_of_ok {lease : Int} (h : (call.outcome hold.db).1 = .ok lease)
    (hWorker : call.env.workerId = worker) (hPlan : call.planId = planId) (hOp : call.op ≠ .release) :
    (hold.next worker planId call).lease = lease := by
  simp only [Hold.next, h]
  exact if_pos ⟨hWorker, hPlan, hOp⟩

theorem Held.next_lease_of_other (hPlan : call.planId ≠ planId) :
    (hold.next worker planId call).lease = hold.lease := by
  unfold Hold.next
  dsimp only
  split
  · exact if_neg fun h => hPlan h.2.1
  · rfl

/-- In the term of the lock, a call that does not reenter it leaves it with its holder. -/
theorem Held.step (h : Held worker planId hold row) (hTerm : call.inTerm worker planId hold)
    (hClean : ¬call.reenters worker planId hold.db) :
    ∃ row', Held worker planId (hold.next worker planId call) row' := by
  by_cases hPlan : call.planId = planId
  · subst hPlan
    cases call.effect hold.db with
    | kept hAfter err hResult =>
      refine ⟨row, h.valid, hAfter.trans h.row_eq, h.worker_eq, h.unreleased, ?_⟩
      rw [Held.next_lease_of_error err hResult]
      exact h.lease_eq
    | granted row' hAfter hAcquire hResult hFree hExecution hWorker hReleased hLease =>
      have hReuse : call.op = .acquireOrReuse ∧ row.executionId = call.executionId := by
        have hNot := hFree row h.row_eq
        simp only [LockCall.blockedBy, h.unreleased, true_and, Classical.not_imp, not_not] at hNot
        exact hNot
      have hSelf : call.env.workerId = worker := by
        by_contra hNe
        exact hClean ⟨hNe, rfl, row, h.row_eq, hReuse.2, .inl hReuse.1⟩
      refine ⟨row', ?_, hAfter, hWorker.trans hSelf, hReleased, ?_⟩
      · rw [hExecution, ← hReuse.2]
        exact h.valid
      · rw [Held.next_lease_of_ok hResult hSelf rfl (by simp [hReuse.1])]
        exact hLease
    | renewed old hOld hAcquire hOp hResult hExecution hWorker hReleased hAfter =>
      have hRow : old = row := Option.some.inj (hOld.symm.trans h.row_eq)
      subst hRow
      refine ⟨_, ?_, hAfter, h.worker_eq, h.unreleased, ?_⟩
      · exact h.valid
      · rw [Held.next_lease_of_ok hResult (hWorker.symm.trans h.worker_eq) rfl hOp]
        rfl
    | released old hOld hOp hResult hMay hAfter =>
      exfalso
      have hRow : old = row := Option.some.inj (hOld.symm.trans h.row_eq)
      subst hRow
      by_cases hSelf : call.env.workerId = worker
      · exact hTerm.2 ⟨hSelf, rfl, hOp, _, hResult⟩
      · exact hClean ⟨hSelf, rfl, old, hOld, hMay.1, .inr ⟨hOp, hMay.2⟩⟩
  · refine ⟨row, h.valid, ?_, h.worker_eq, h.unreleased, ?_⟩
    · exact (call.lockOf_other hold.db (Ne.symm hPlan)).trans h.row_eq
    · rw [Held.next_lease_of_other hPlan]
      exact h.lease_eq

/-- While the lock is held, exactly the reentering calls intrude. -/
theorem Held.intrudes_iff (h : Held worker planId hold row) :
    call.intrudes worker planId hold.db ↔ call.reenters worker planId hold.db := by
  constructor
  · rintro ⟨hOther, hIntrusion⟩
    by_cases hPlan : call.planId = planId
    · subst hPlan
      cases call.effect hold.db with
      | kept hAfter err hResult =>
        exfalso
        rcases hIntrusion with ⟨-, -, lease, hOk⟩ | hChanged
        · rw [hResult] at hOk
          cases hOk
        · exact hChanged (by rw [hAfter])
      | granted row' hAfter hAcquire hResult hFree =>
        have hNot := hFree row h.row_eq
        simp only [LockCall.blockedBy, h.unreleased, true_and, Classical.not_imp, not_not] at hNot
        exact ⟨hOther, rfl, row, h.row_eq, hNot.2, .inl hNot.1⟩
      | renewed old hOld hAcquire hOp hResult hExecution hWorker =>
        have hRow : old = row := Option.some.inj (hOld.symm.trans h.row_eq)
        exact absurd (hWorker.symm.trans (hRow ▸ h.worker_eq)) hOther
      | released old hOld hOp hResult hMay => exact ⟨hOther, rfl, old, hOld, hMay.1, .inr ⟨hOp, hMay.2⟩⟩
    · exfalso
      rcases hIntrusion with ⟨hSame, -⟩ | hChanged
      · exact hPlan hSame
      · exact hChanged (by rw [call.lockOf_other hold.db (Ne.symm hPlan)])
  · rintro ⟨hOther, rfl, old, hOld, hExecution, hOp⟩
    have hRow : old = row := Option.some.inj (hOld.symm.trans h.row_eq)
    subst hRow
    have hValid : ensureIdentity call.planId call.executionId = none := hExecution ▸ h.valid
    refine ⟨hOther, ?_⟩
    cases call.effect hold.db with
    | kept hAfter err hResult hAcquire hRelease =>
      exfalso
      rcases hOp with hOp | ⟨hOp, hScope⟩
      · obtain ⟨blocker, hBlocker, -, hNe⟩ := hAcquire (by simp [LockCall.isAcquire, hOp]) hValid
        rw [← Option.some.inj (hBlocker.symm.trans hOld)] at hExecution
        exact hNe hOp hExecution
      · exact hRelease hOp hValid old hOld ⟨hExecution, hScope⟩
    | granted row' hAfter hAcquire hResult => exact .inl ⟨rfl, hAcquire, _, hResult⟩
    | renewed _ _ hAcquire hNotRelease =>
      exfalso
      rcases hOp with hOp | ⟨hOp, -⟩
      · simp [LockCall.isAcquire, hOp] at hAcquire
      · exact hNotRelease hOp
    | released released hReleased _ _ _ hAfter =>
      right
      have hRow : released = old := Option.some.inj (hReleased.symm.trans h.row_eq)
      subst hRow
      rw [hAfter, hReleased]
      simp [lockOwnership, releasedLockRow, h.unreleased]

end Exclusion

/-- From an acquire call that returned ok, in every run of calls of any workers at any clocks that stays in
the term of the lock and in which no other worker reenters it: a further call intrudes exactly when it
reenters the lock under the execution id that holds it. -/
theorem lock_exclusive_unless_reentered (first : LockCall) (db : Db) (lease : Int)
    (hAcquire : first.isAcquire) (hOk : (first.outcome db).1 = .ok lease) (hold : Hold)
    (hRun : Reaches (fun call hold => Hold.next first.env.workerId first.planId call hold)
      (fun call hold => call.inTerm first.env.workerId first.planId hold ∧
        ¬call.reenters first.env.workerId first.planId hold.db)
      ⟨(first.outcome db).2, lease⟩ hold)
    (call : LockCall) :
    call.intrudes first.env.workerId first.planId hold.db ↔
      call.reenters first.env.workerId first.planId hold.db := by
  have hHeld : ∃ row, Held first.env.workerId first.planId hold row := by
    refine hRun.invariant (P := fun hold => ∃ row, Held first.env.workerId first.planId hold row)
      (held_of_acquire hAcquire hOk) ?_
    rintro op t ⟨row, hRow⟩ ⟨hTerm, hClean⟩
    exact hRow.step hTerm hClean
  obtain ⟨row, hRow⟩ := hHeld
  exact hRow.intrudes_iff

section Takeover

def firstWorkerCall (op : LockOp) (nowMs : Int) : LockCall :=
  ⟨⟨nowMs, "worker_1"⟩, op, "plan_1", "exec_1", .none⟩

def secondWorkerCall (op : LockOp) (nowMs : Int) : LockCall :=
  ⟨⟨nowMs, "worker_2"⟩, op, "plan_1", "exec_1", .none⟩

/-- A run in which the holder has renewed its lease. -/
theorem lock_exclusive_after_renewal :
    ∃ hold : Hold, hold.lease = 40000 ∧
      ∀ call : LockCall, call.intrudes "worker_1" "plan_1" hold.db ↔
        call.reenters "worker_1" "plan_1" hold.db := by
  refine ⟨Hold.next "worker_1" "plan_1" (firstWorkerCall .renew 10000)
    ⟨((firstWorkerCall .acquire 0).outcome Db.empty).2, 30000⟩, by decide, fun call => ?_⟩
  refine lock_exclusive_unless_reentered (firstWorkerCall .acquire 0) Db.empty 30000 rfl rfl _
    (.step (firstWorkerCall .renew 10000) .refl ⟨⟨by decide, ?_⟩, ?_⟩) call
  · rintro ⟨-, -, hOp, -⟩
    cases hOp
  · rintro ⟨hOther, -⟩
    exact hOther rfl

/-- The second worker takes the live lock over: the exclusion claimed of every run fails. -/
theorem lock_taken_over :
    ¬∀ (first : LockCall) (db : Db) (lease : Int), first.isAcquire → (first.outcome db).1 = .ok lease →
      ∀ hold, Reaches (fun call hold => Hold.next first.env.workerId first.planId call hold)
        (fun call hold => call.inTerm first.env.workerId first.planId hold)
        ⟨(first.outcome db).2, lease⟩ hold →
      ∀ call : LockCall, call.inTerm first.env.workerId first.planId hold →
        ¬call.intrudes first.env.workerId first.planId hold.db := by
  intro h
  refine h (firstWorkerCall .acquire 0) Db.empty 30000 rfl rfl _ .refl
    (secondWorkerCall .acquireOrReuse 1) ⟨by decide, ?_⟩ ⟨by decide, .inl ⟨rfl, rfl, 30001, rfl⟩⟩
  rintro ⟨hWorker, -⟩
  exact absurd hWorker (by decide)

end Takeover

end CommandConsole.Execution
