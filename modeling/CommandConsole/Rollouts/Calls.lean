import CommandConsole.Library.Crowd
import CommandConsole.Library.Table
import CommandConsole.Rollouts.Overrides

/-! # Rollouts, rollbacks and saves

The calls on the policy overrides, in turns from one await to the next. The reads of a transaction
see what is committed when they are made and its writes are applied together when it commits. An
override is a row for each workspace at most, so the overrides are a function of the workspace.
-/
namespace CommandConsole.Rollouts
open Library
set_option autoImplicit false

section Store

structure AppError where
  status : Nat
  code : String
  message : String
  details : List (String × String)
  deriving DecidableEq

def playbookNotFound : AppError := ⟨404, "policy_playbook_not_found", "Policy playbook not found.", []⟩

def rolloutNotFound : AppError := ⟨404, "policy_rollout_not_found", "Policy rollout not found.", []⟩

def alreadyRolledBack : AppError :=
  ⟨409, "policy_rollout_already_rolled_back", "Policy rollout has already been rolled back.", []⟩

def rolloutStale (rolloutId workspaceId : String) : AppError :=
  ⟨409, "policy_rollout_stale",
    "Policy rollout rollback is blocked because a workspace override changed after the rollout.",
    [("rolloutId", rolloutId), ("workspaceId", workspaceId)]⟩

def workspaceNotFound : AppError := ⟨404, "workspace_not_found", "Workspace not found.", []⟩

structure Workspace where
  id : String
  name : String
  deriving DecidableEq

/-- A row of a rollout. The override that its transaction found and the one that it left are not stored; they are
what the images are about. -/
structure RolloutWorkspace where
  workspaceId : String
  workspaceName : String
  beforeOverride : Option OverrideRecord
  afterOverride : OverrideRecord
  found : Option PolicyOverride
  left : PolicyOverride
  deriving DecidableEq

structure Rollout where
  id : String
  playbookId : String
  environment : EnvironmentKey
  workspaceCount : Nat
  appliedById : Option String
  appliedByName : Option String
  rolledBackAt : Option Nat
  workspaces : List RolloutWorkspace
  deriving DecidableEq

structure PolicyStore where
  workspaces : PlainTable Workspace.id
  playbooks : PlainTable PolicyPlaybook.id
  overrides : String → Option PolicyOverride
  rollouts : PlainTable Rollout.id

def PolicyStore.empty : PolicyStore := ⟨.empty, .empty, fun _ => none, .empty⟩

end Store

section Requests

inductive PolicyRequest where
  | apply (playbookId : String) (workspaceIds : List String) (actor : Actor)
  | rollback (rolloutId : String)
  | save (workspaceId : String) (policyOverride : OverrideRecord) (actor : Actor)
  | reset (workspaceIds : List String)
  deriving DecidableEq

inductive PolicyReply where
  | applied (rolloutId : Option String)
  | rolledBack
  | saved
  | threw (error : AppError)
  | refused
  deriving DecidableEq

/-- A workspace with its override. -/
abbrev Target := Workspace × Option PolicyOverride

inductive PolicyStage where
  | received
  | planned (playbook : PolicyPlaybook)
  | gathered (playbook : PolicyPlaybook) (targets : List Target)
  | opened (rolloutId : String) (playbook : PolicyPlaybook) (targets : List Target)
  | checking (rollout : Rollout) (unchecked : List RolloutWorkspace)
  | saving
  | ended (reply : PolicyReply)
  deriving DecidableEq

structure PolicyCall where
  request : PolicyRequest
  stage : PolicyStage
  deriving DecidableEq

structure PolicyInput where
  newId : String
  now : Nat
  deriving DecidableEq

def PolicyStage.throw (error : AppError) : PolicyStage := .ended (.threw error)

end Requests

section Applying

def findPlaybook (store : PolicyStore) (playbookId : String) : PolicyStage :=
  match store.playbooks.find? playbookId with
  | none => .throw playbookNotFound
  | some playbook => .planned playbook

/-- `workspace.findMany({ where: { id: { in: workspaceIds } }, include: { policyOverride: true } })` -/
def findTargets (store : PolicyStore) (workspaceIds : List String) : List Target :=
  (store.workspaces.rows.filter fun workspace => workspace.id ∈ workspaceIds).map fun workspace =>
    (workspace, store.overrides workspace.id)

def gather (store : PolicyStore) (playbook : PolicyPlaybook) (workspaceIds : List String) : PolicyStage :=
  if findTargets store workspaceIds = [] then .ended (.applied none)
  else .gathered playbook (findTargets store workspaceIds)

def newRollout (newId : String) (playbook : PolicyPlaybook) (targets : List Target) (actor : Actor) : Rollout :=
  ⟨newId, playbook.id, playbook.environment, targets.length, actor.updatedById, actor.updatedByName, none, []⟩

def openRollout (input : PolicyInput) (store : PolicyStore) (playbook : PolicyPlaybook) (targets : List Target)
    (actor : Actor) : PolicyStage × PolicyStore :=
  match store.rollouts.insert (newRollout input.newId playbook targets actor) with
  | none => (.ended .refused, store)
  | some rollouts => (.opened input.newId playbook targets, { store with rollouts })

def Target.rolledOut (after : PolicyOverride) (overrides : String → Option PolicyOverride) (target : Target) :
    RolloutWorkspace :=
  ⟨target.1.id, target.1.name, target.2.map overrideToObject, overrideToObject after, overrides target.1.id,
    applied after (overrides target.1.id)⟩

def Rollout.add (rolloutId : String) (items : List RolloutWorkspace) (rollout : Rollout) : Rollout :=
  if rollout.id = rolloutId then { rollout with workspaces := rollout.workspaces ++ items } else rollout

theorem Rollout.id_add (rolloutId : String) (items : List RolloutWorkspace) (rollout : Rollout) :
    (rollout.add rolloutId items).id = rollout.id := by
  unfold Rollout.add
  split <;> rfl

/-- The transaction of `applyPolicyPlaybookToWorkspaces`, which upserts the override of each workspace. -/
def commitRollout (store : PolicyStore) (rolloutId : String) (playbook : PolicyPlaybook) (targets : List Target)
    (actor : Actor) : PolicyStore :=
  { store with
    overrides := fun id =>
      if id ∈ targets.map fun target => target.1.id then some (applied (afterOverride playbook actor) (store.overrides id))
      else store.overrides id
    rollouts := store.rollouts.modify
      (Rollout.add rolloutId (targets.map (Target.rolledOut (afterOverride playbook actor) store.overrides)))
      (Rollout.id_add rolloutId _) fun _ => rfl }

theorem find?_commitRollout (store : PolicyStore) (rolloutId : String) (playbook : PolicyPlaybook)
    (targets : List Target) (actor : Actor) (id : String) :
    (commitRollout store rolloutId playbook targets actor).rollouts.find? id = (store.rollouts.find? id).map
      (Rollout.add rolloutId (targets.map (Target.rolledOut (afterOverride playbook actor) store.overrides))) :=
  Table.find?_modify store.rollouts _ (Rollout.id_add rolloutId _) (fun _ => rfl) id

def applyPolicyPlaybookToWorkspaces (input : PolicyInput) (playbookId : String) (workspaceIds : List String)
    (actor : Actor) (stage : PolicyStage) (store : PolicyStore) : PolicyStage × PolicyStore :=
  match stage with
  | .received => (findPlaybook store playbookId, store)
  | .planned playbook => (gather store playbook workspaceIds, store)
  | .gathered playbook targets => openRollout input store playbook targets actor
  | .opened rolloutId playbook targets =>
    (.ended (.applied (some rolloutId)), commitRollout store rolloutId playbook targets actor)
  | _ => (stage, store)

end Applying

section RollingBack

def findRollout (store : PolicyStore) (rolloutId : String) : PolicyStage :=
  match store.rollouts.find? rolloutId with
  | none => .throw rolloutNotFound
  | some rollout =>
    if rollout.rolledBackAt.isSome then .throw alreadyRolledBack else .checking rollout rollout.workspaces

def checkOverride (store : PolicyStore) (rollout : Rollout) (item : RolloutWorkspace)
    (unchecked : List RolloutWorkspace) : PolicyStage :=
  if rolloutSnapshotMatchesCurrentOverride (store.overrides item.workspaceId) item.afterOverride then
    .checking rollout unchecked
  else .throw (rolloutStale rollout.id item.workspaceId)

def Rollout.close (rolloutId : String) (now : Nat) (rollout : Rollout) : Rollout :=
  if rollout.id = rolloutId then { rollout with rolledBackAt := some now } else rollout

theorem Rollout.id_close (rolloutId : String) (now : Nat) (rollout : Rollout) :
    (rollout.close rolloutId now).id = rollout.id := by
  unfold Rollout.close
  split <;> rfl

theorem Rollout.workspaces_close (rolloutId : String) (now : Nat) (rollout : Rollout) :
    (rollout.close rolloutId now).workspaces = rollout.workspaces := by
  unfold Rollout.close
  split <;> rfl

/-- The commit of `rollbackPolicyPlaybookRollout`. -/
def commitRollback (store : PolicyStore) (rollout : Rollout) (now : Nat) : PolicyStore :=
  { store with
    overrides := fun id =>
      match rollout.workspaces.find? fun item => item.workspaceId = id with
      | none => store.overrides id
      | some item => restored item.beforeOverride (store.overrides id)
    rollouts := store.rollouts.modify (Rollout.close rollout.id now)
      (Rollout.id_close rollout.id now) fun _ => rfl }

theorem find?_commitRollback (store : PolicyStore) (rollout : Rollout) (now : Nat) (id : String) :
    (commitRollback store rollout now).rollouts.find? id =
      (store.rollouts.find? id).map (Rollout.close rollout.id now) :=
  Table.find?_modify store.rollouts _ (Rollout.id_close rollout.id now) (fun _ => rfl) id

def rollbackPolicyPlaybookRollout (input : PolicyInput) (rolloutId : String) (stage : PolicyStage)
    (store : PolicyStore) : PolicyStage × PolicyStore :=
  match stage with
  | .received => (findRollout store rolloutId, store)
  | .checking rollout (item :: unchecked) => (checkOverride store rollout item unchecked, store)
  | .checking rollout [] => (.ended .rolledBack, commitRollback store rollout input.now)
  | _ => (stage, store)

end RollingBack

section Saving

def setOverride (store : PolicyStore) (workspaceId : String) (row : PolicyOverride) : PolicyStore :=
  { store with overrides := Function.update store.overrides workspaceId (some row) }

def saveWorkspacePolicyOverride (workspaceId : String) (policyOverride : OverrideRecord) (actor : Actor)
    (stage : PolicyStage) (store : PolicyStore) : PolicyStage × PolicyStore :=
  match stage with
  | .received =>
    match store.workspaces.find? workspaceId with
    | none => (.throw workspaceNotFound, store)
    | some _ => (.saving, store)
  | .saving =>
    (.ended .saved, setOverride store workspaceId (saved policyOverride actor (store.overrides workspaceId)))
  | _ => (stage, store)

/-- A save that resets, and `resetPolicyOverrideForWorkspaces`. -/
def resetPolicyOverrides (workspaceIds : List String) (stage : PolicyStage) (store : PolicyStore) :
    PolicyStage × PolicyStore :=
  match stage with
  | .received =>
    (.ended .saved, { store with overrides := fun id => if id ∈ workspaceIds then none else store.overrides id })
  | _ => (stage, store)

end Saving

section Turns

def PolicyCall.section (input : PolicyInput) (call : PolicyCall) (store : PolicyStore) : PolicyStage × PolicyStore :=
  match call.request with
  | .apply playbookId workspaceIds actor =>
    applyPolicyPlaybookToWorkspaces input playbookId workspaceIds actor call.stage store
  | .rollback rolloutId => rollbackPolicyPlaybookRollout input rolloutId call.stage store
  | .save workspaceId policyOverride actor =>
    saveWorkspacePolicyOverride workspaceId policyOverride actor call.stage store
  | .reset workspaceIds => resetPolicyOverrides workspaceIds call.stage store

def PolicyCall.advance (input : PolicyInput) (call : PolicyCall) (store : PolicyStore) : PolicyCall × PolicyStore :=
  ({ call with stage := (call.section input store).1 }, (call.section input store).2)

inductive PolicyOp where
  | createWorkspace (workspace : Workspace)
  | savePolicyPlaybook (playbook : PolicyPlaybook)
  deriving DecidableEq

def PolicyOp.perform (op : PolicyOp) (store : PolicyStore) : PolicyStore :=
  match op with
  | .createWorkspace workspace => { store with workspaces := PlainTable.put store.workspaces workspace }
  | .savePolicyPlaybook playbook => { store with playbooks := PlainTable.put store.playbooks playbook }

def policyRules : CrowdRules PolicyRequest PolicyCall PolicyInput PolicyOp PolicyStore where
  start request := ⟨request, .received⟩
  advance := PolicyCall.advance
  outside := PolicyOp.perform

abbrev PolicyTurn := CrowdTurn PolicyRequest PolicyInput PolicyOp

abbrev PolicyCalls := Crowd PolicyCall PolicyStore

/-- A call that nothing interrupts. -/
def PolicyCall.alone (input : PolicyInput) (call : PolicyCall) (store : PolicyStore) : Nat → PolicyCall × PolicyStore
  | 0 => (call, store)
  | turns + 1 =>
    let next := call.advance input store
    PolicyCall.alone input next.1 next.2 turns

end Turns

end CommandConsole.Rollouts
