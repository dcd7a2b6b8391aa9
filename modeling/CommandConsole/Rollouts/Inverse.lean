import CommandConsole.Rollouts.Calls

/-! # Rollouts undone

A rollout and its rollback, each alone: the rollback goes through and restores every override
exactly when each was absent or covered by what the rollout sets.
-/
namespace CommandConsole.Rollouts
open Library
set_option autoImplicit false

section Alone

variable {input : PolicyInput} {request : PolicyRequest} {store : PolicyStore}

theorem alone_ended (reply : PolicyReply) (turns : Nat) :
    PolicyCall.alone input ⟨request, .ended reply⟩ store turns = (⟨request, .ended reply⟩, store) := by
  induction turns with
  | zero => rfl
  | succ turns ih =>
    have hStays : PolicyCall.advance input ⟨request, .ended reply⟩ store = (⟨request, .ended reply⟩, store) := by
      cases request <;> rfl
    rw [PolicyCall.alone, hStays]
    exact ih

section Applying

variable {playbookId rolloutId : String} {workspaceIds : List String} {actor : Actor} {turns : Nat} {call : PolicyCall}
  {after : PolicyStore} {playbook : PolicyPlaybook} {targets : List Target}

theorem alone_opened {opened : String}
    (h : PolicyCall.alone input ⟨.apply playbookId workspaceIds actor, .opened opened playbook targets⟩ store turns =
      (call, after)) (hEnded : call.stage = .ended (.applied (some rolloutId))) :
    opened = rolloutId ∧ after = commitRollout store rolloutId playbook targets actor := by
  cases turns with
  | zero =>
    cases h
    cases hEnded
  | succ turns =>
    have hNext := (alone_ended (.applied (some opened)) turns).symm.trans h
    cases hNext
    cases hEnded
    exact ⟨rfl, rfl⟩

theorem alone_gathered
    (h : PolicyCall.alone input ⟨.apply playbookId workspaceIds actor, .gathered playbook targets⟩ store turns =
      (call, after)) (hEnded : call.stage = .ended (.applied (some rolloutId))) :
    ∃ rollouts, store.rollouts.insert (newRollout rolloutId playbook targets actor) = some rollouts ∧
      after = commitRollout { store with rollouts } rolloutId playbook targets actor := by
  cases turns with
  | zero =>
    cases h
    cases hEnded
  | succ turns =>
    simp only [PolicyCall.alone, PolicyCall.advance, PolicyCall.section, applyPolicyPlaybookToWorkspaces,
      openRollout] at h
    split at h
    · rw [alone_ended] at h
      cases h
      cases hEnded
    · rename_i rollouts hInsert
      obtain ⟨rfl, hAfter⟩ := alone_opened h hEnded
      exact ⟨rollouts, hInsert, hAfter⟩

theorem alone_planned
    (h : PolicyCall.alone input ⟨.apply playbookId workspaceIds actor, .planned playbook⟩ store turns = (call, after))
    (hEnded : call.stage = .ended (.applied (some rolloutId))) :
    ∃ rollouts,
      store.rollouts.insert (newRollout rolloutId playbook (findTargets store workspaceIds) actor) = some rollouts ∧
      after = commitRollout { store with rollouts } rolloutId playbook (findTargets store workspaceIds) actor := by
  cases turns with
  | zero =>
    cases h
    cases hEnded
  | succ turns =>
    simp only [PolicyCall.alone, PolicyCall.advance, PolicyCall.section, applyPolicyPlaybookToWorkspaces, gather] at h
    split at h
    · rw [alone_ended] at h
      cases h
      cases hEnded
    · exact alone_gathered h hEnded

/-- What an apply that nothing interrupts has found and written. -/
theorem alone_applied
    (h : PolicyCall.alone input ⟨.apply playbookId workspaceIds actor, .received⟩ store turns = (call, after))
    (hEnded : call.stage = .ended (.applied (some rolloutId))) :
    ∃ playbook rollouts,
      store.rollouts.insert (newRollout rolloutId playbook (findTargets store workspaceIds) actor) = some rollouts ∧
      after = commitRollout { store with rollouts } rolloutId playbook (findTargets store workspaceIds) actor := by
  cases turns with
  | zero =>
    cases h
    cases hEnded
  | succ turns =>
    simp only [PolicyCall.alone, PolicyCall.advance, PolicyCall.section, applyPolicyPlaybookToWorkspaces,
      findPlaybook] at h
    split at h
    · rw [PolicyStage.throw, alone_ended] at h
      cases h
      cases hEnded
    · rename_i playbook hFind
      exact ⟨playbook, alone_planned h hEnded⟩

end Applying

section RollingBack

variable {rolloutId : String} {rollout : Rollout}

theorem alone_checked {unchecked : List RolloutWorkspace}
    (h : ∀ item ∈ unchecked, rolloutSnapshotMatchesCurrentOverride (store.overrides item.workspaceId)
      item.afterOverride = true) :
    PolicyCall.alone input ⟨.rollback rolloutId, .checking rollout unchecked⟩ store (unchecked.length + 1) =
      (⟨.rollback rolloutId, .ended .rolledBack⟩, commitRollback store rollout input.now) := by
  induction unchecked with
  | nil => rfl
  | cons item unchecked ih =>
    simp only [PolicyCall.alone, PolicyCall.advance, PolicyCall.section, rollbackPolicyPlaybookRollout, checkOverride,
      if_pos (h item List.mem_cons_self), List.length_cons]
    exact ih fun other hOther => h other (List.mem_cons_of_mem _ hOther)

theorem alone_checking {unchecked : List RolloutWorkspace} {turns : Nat}
    (hEnded : (PolicyCall.alone input ⟨.rollback rolloutId, .checking rollout unchecked⟩ store turns).1.stage =
      .ended .rolledBack) :
    (∀ item ∈ unchecked, rolloutSnapshotMatchesCurrentOverride (store.overrides item.workspaceId)
      item.afterOverride = true) ∧
    (PolicyCall.alone input ⟨.rollback rolloutId, .checking rollout unchecked⟩ store turns).2 =
      commitRollback store rollout input.now := by
  induction unchecked generalizing turns with
  | nil =>
    refine ⟨fun item hItem => absurd hItem List.not_mem_nil, ?_⟩
    cases turns with
    | zero => cases hEnded
    | succ turns => exact congrArg Prod.snd (alone_ended .rolledBack turns)
  | cons item unchecked ih =>
    cases turns with
    | zero => cases hEnded
    | succ turns =>
      simp only [PolicyCall.alone, PolicyCall.advance, PolicyCall.section, rollbackPolicyPlaybookRollout,
        checkOverride] at hEnded ⊢
      split at hEnded
      · rename_i hMatches
        obtain ⟨hRest, hStore⟩ := ih hEnded
        refine ⟨fun other hOther => ?_, ?_⟩
        · rcases List.mem_cons.mp hOther with rfl | hLater
          · exact hMatches
          · exact hRest other hLater
        · rw [if_pos hMatches]
          exact hStore
      · rw [PolicyStage.throw, alone_ended] at hEnded
        cases hEnded

/-- A rollback that nothing interrupts goes through exactly if no override has changed. -/
theorem alone_rolledBack (hFind : store.rollouts.find? rolloutId = some rollout) (hOpen : rollout.rolledBackAt = none)
    {P : PolicyStore → Prop} :
    (∃ turns, (PolicyCall.alone input ⟨.rollback rolloutId, .received⟩ store turns).1.stage = .ended .rolledBack ∧
      P (PolicyCall.alone input ⟨.rollback rolloutId, .received⟩ store turns).2) ↔
    (∀ item ∈ rollout.workspaces, rolloutSnapshotMatchesCurrentOverride (store.overrides item.workspaceId)
      item.afterOverride = true) ∧ P (commitRollback store rollout input.now) := by
  have hFirst : PolicyCall.advance input ⟨.rollback rolloutId, .received⟩ store =
      (⟨.rollback rolloutId, .checking rollout rollout.workspaces⟩, store) := by
    simp only [PolicyCall.advance, PolicyCall.section, rollbackPolicyPlaybookRollout, findRollout, hFind, hOpen,
      Option.isSome_none, Bool.false_eq_true, if_false]
  constructor
  · rintro ⟨turns, hEnded, hHolds⟩
    cases turns with
    | zero => cases hEnded
    | succ turns =>
      rw [PolicyCall.alone, hFirst] at hEnded hHolds
      obtain ⟨hMatch, hStore⟩ := alone_checking hEnded
      exact ⟨hMatch, hStore ▸ hHolds⟩
  · rintro ⟨hMatch, hHolds⟩
    refine ⟨rollout.workspaces.length + 1 + 1, ?_⟩
    rw [PolicyCall.alone, hFirst, alone_checked hMatch]
    exact ⟨rfl, hHolds⟩

end RollingBack

end Alone

section Inverse

/-- Nothing has touched the rollout or the overrides of its workspaces. -/
def Untouched (rolloutId : String) (ids : List String) (after current : PolicyStore) : Prop :=
  current.rollouts.find? rolloutId = after.rollouts.find? rolloutId ∧
    ∀ id ∈ ids, current.overrides id = after.overrides id

/-- The rollback goes through, and each of the workspaces has the override again that it had before. -/
def Undoes (input : PolicyInput) (rolloutId : String) (ids : List String) (before current : PolicyStore) : Prop :=
  ∃ turns, (PolicyCall.alone input ⟨.rollback rolloutId, .received⟩ current turns).1.stage = .ended .rolledBack ∧
    ∀ id, (PolicyCall.alone input ⟨.rollback rolloutId, .received⟩ current turns).2.overrides id =
      if id ∈ ids then before.overrides id else current.overrides id

def targetIds (targets : List Target) : List String := targets.map fun target => target.1.id

variable {before current : PolicyStore} {targets : List Target} {after : PolicyOverride}

theorem findTargets_override {workspaceIds : List String} {target : Target}
    (h : target ∈ findTargets before workspaceIds) : target.2 = before.overrides target.1.id := by
  obtain ⟨workspace, -, rfl⟩ := List.mem_map.mp h
  rfl

theorem mem_targetIds {target : Target} (h : target ∈ targets) : target.1.id ∈ targetIds targets :=
  List.mem_map.mpr ⟨target, h, rfl⟩

theorem find?_rolledOut (overrides : String → Option PolicyOverride) (id : String) :
    ((targets.map (Target.rolledOut after overrides)).find? fun item => item.workspaceId = id) =
      (targets.find? fun target => target.1.id = id).map (Target.rolledOut after overrides) := by
  rw [List.find?_map]
  rfl

theorem overrides_commitRollback {rollout : Rollout} {overrides : String → Option PolicyOverride} {now : Nat}
    (hTargets : ∀ target ∈ targets, target.2 = overrides target.1.id)
    (hItems : rollout.workspaces = targets.map (Target.rolledOut after overrides)) (id : String) :
    (commitRollback current rollout now).overrides id =
      if id ∈ targetIds targets then restored ((overrides id).map overrideToObject) (current.overrides id)
      else current.overrides id := by
  simp only [commitRollback, hItems, find?_rolledOut]
  cases hFind : targets.find? fun target => target.1.id = id with
  | none =>
    rw [if_neg]
    · rfl
    · intro hMem
      obtain ⟨target, hTarget, hId⟩ := List.mem_map.mp hMem
      simpa [hId] using List.find?_eq_none.mp hFind target hTarget
  | some target =>
    have hMem := List.mem_of_find?_eq_some hFind
    obtain rfl : target.1.id = id := by simpa using List.find?_some hFind
    rw [if_pos (mem_targetIds hMem), ← hTargets target hMem]
    rfl

theorem rollout_of_insert {store : PolicyStore} {rollouts : PlainTable Rollout.id} {rolloutId : String}
    {playbook : PolicyPlaybook} {actor : Actor}
    (hInsert : store.rollouts.insert (newRollout rolloutId playbook targets actor) = some rollouts) :
    ∃ rollout, (commitRollout { store with rollouts } rolloutId playbook targets actor).rollouts.find? rolloutId =
        some rollout ∧ rollout.rolledBackAt = none ∧
      rollout.workspaces = targets.map (Target.rolledOut (afterOverride playbook actor) store.overrides) := by
  have hNew : rollouts.find? rolloutId = some (newRollout rolloutId playbook targets actor) := by
    rw [Table.find?_insert hInsert]
    exact if_pos rfl
  have hOwn : (newRollout rolloutId playbook targets actor).id = rolloutId := rfl
  rw [find?_commitRollout, hNew, Option.map_some, Rollout.add, if_pos hOwn]
  exact ⟨_, rfl, rfl, rfl⟩

theorem undoes_iff {input : PolicyInput} {rollouts : PlainTable Rollout.id} {rolloutId : String}
    {playbook : PolicyPlaybook} {actor : Actor} (hTargets : ∀ target ∈ targets, target.2 = before.overrides target.1.id)
    (hInsert : before.rollouts.insert (newRollout rolloutId playbook targets actor) = some rollouts)
    (hUntouched : Untouched rolloutId (targetIds targets)
      (commitRollout { before with rollouts } rolloutId playbook targets actor) current) :
    Undoes input rolloutId (targetIds targets) before current ↔
      ∀ target ∈ targets, ∀ row ∈ target.2, Covered actor row := by
  obtain ⟨hRollout, hOverrides⟩ := hUntouched
  have hCurrent : ∀ target ∈ targets, current.overrides target.1.id =
      some (applied (afterOverride playbook actor) target.2) := by
    intro target hTarget
    have hMem := mem_targetIds hTarget
    rw [hOverrides _ hMem, hTargets target hTarget]
    exact if_pos hMem
  obtain ⟨rollout, hFind, hOpen, hItems⟩ := rollout_of_insert hInsert
  rw [hFind] at hRollout
  have hRollback (id : String) : (commitRollback current rollout input.now).overrides id =
      if id ∈ targetIds targets then restored ((before.overrides id).map overrideToObject) (current.overrides id)
      else current.overrides id := overrides_commitRollback hTargets hItems id
  rw [Undoes, alone_rolledBack hRollout hOpen (P := fun store => ∀ id, store.overrides id =
    if id ∈ targetIds targets then before.overrides id else current.overrides id)]
  simp only [hRollback, hItems, List.forall_mem_map]
  constructor
  · rintro ⟨hMatch, hRestored⟩ target hTarget
    have hMem := mem_targetIds hTarget
    have hSame : current.overrides target.1.id = some (afterOverride playbook actor) :=
      matches_iff.mp (hMatch target hTarget)
    have hBack := hRestored target.1.id
    rw [if_pos hMem, if_pos hMem, hSame, ← hTargets target hTarget] at hBack
    rw [hCurrent target hTarget] at hSame
    exact (undone_iff playbook actor target.2).mpr ⟨Option.some.inj hSame, hBack⟩
  · intro hCovered
    have hUndone := fun target hTarget => (undone_iff playbook actor target.2).mp (hCovered target hTarget)
    refine ⟨fun target hTarget => matches_iff.mpr ?_, fun id => ?_⟩
    · rw [← (hUndone target hTarget).1]
      exact hCurrent target hTarget
    · split
      · rename_i hMem
        obtain ⟨target, hTarget, rfl⟩ := List.mem_map.mp hMem
        rw [hCurrent target hTarget, (hUndone target hTarget).1, ← hTargets target hTarget]
        exact (hUndone target hTarget).2
      · rfl

end Inverse

end CommandConsole.Rollouts
