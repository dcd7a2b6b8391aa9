import Mathlib.Data.Option.Basic

/-! # Policy overrides and the images of a rollout

The columns of an override, the records that a rollout keeps of it before and after, and what a
rollback compares and restores. A rollout is undone exactly where the override was absent or had
just the columns that the playbook sets.
-/
namespace CommandConsole.Rollouts
set_option autoImplicit false

section Definitions

inductive EnvironmentKey where
  | development
  | staging
  | production
  deriving DecidableEq

def EnvironmentKey.text : EnvironmentKey → String
  | .development => "development"
  | .staging => "staging"
  | .production => "production"

def toEnvironment (value : String) : EnvironmentKey :=
  if value = "production" then .production
  else if value = "staging" then .staging
  else .development

structure PolicyFields where
  environment : Option EnvironmentKey
  incidentApprovalCapacityLimit : Option Int
  incidentApprovalReminderMinutes : Option Int
  trustDropAction : Option String
  trustDropFollowupOwner : Option String
  requireApprovalForResolved : Option Bool
  requireApprovalForArchived : Option Bool
  promoteTrustDropToIncident : Option Bool
  deriving DecidableEq

structure PolicyOverride where
  fields : PolicyFields
  sourceType : Option String
  sourcePlaybookId : Option String
  updatedById : Option String
  updatedByName : Option String
  deriving DecidableEq

/-- A record of unknown values; one that has another type than its column is none. -/
structure OverrideRecord where
  environment : Option String
  incidentApprovalCapacityLimit : Option Int
  incidentApprovalReminderMinutes : Option Int
  trustDropAction : Option String
  trustDropFollowupOwner : Option String
  requireApprovalForResolved : Option Bool
  requireApprovalForArchived : Option Bool
  promoteTrustDropToIncident : Option Bool
  sourceType : Option String
  sourcePlaybookId : Option String
  updatedById : Option String
  updatedByName : Option String
  deriving DecidableEq

def overrideToObject (row : PolicyOverride) : OverrideRecord :=
  ⟨row.fields.environment.map EnvironmentKey.text, row.fields.incidentApprovalCapacityLimit,
    row.fields.incidentApprovalReminderMinutes, row.fields.trustDropAction, row.fields.trustDropFollowupOwner,
    row.fields.requireApprovalForResolved, row.fields.requireApprovalForArchived,
    row.fields.promoteTrustDropToIncident, row.sourceType, row.sourcePlaybookId, row.updatedById, row.updatedByName⟩

def sanitizeOverride (input : OverrideRecord) : PolicyFields :=
  ⟨input.environment.map toEnvironment, input.incidentApprovalCapacityLimit, input.incidentApprovalReminderMinutes,
    input.trustDropAction, input.trustDropFollowupOwner, input.requireApprovalForResolved,
    input.requireApprovalForArchived, input.promoteTrustDropToIncident⟩

def normalizeRolloutOverrideSnapshot (record : OverrideRecord) : PolicyOverride :=
  ⟨sanitizeOverride record, record.sourceType, record.sourcePlaybookId, record.updatedById, record.updatedByName⟩

/-- The texts of two snapshots agree where their columns do. -/
def rolloutSnapshotMatchesCurrentOverride (current : Option PolicyOverride) (recorded : OverrideRecord) : Bool :=
  current.map (fun row => normalizeRolloutOverrideSnapshot (overrideToObject row)) =
    some (normalizeRolloutOverrideSnapshot recorded)

/-- An update with `cleanedData`, which leaves a column alone where it has no value for it. -/
def PolicyFields.over (next previous : PolicyFields) : PolicyFields :=
  ⟨next.environment.or previous.environment,
    next.incidentApprovalCapacityLimit.or previous.incidentApprovalCapacityLimit,
    next.incidentApprovalReminderMinutes.or previous.incidentApprovalReminderMinutes,
    next.trustDropAction.or previous.trustDropAction,
    next.trustDropFollowupOwner.or previous.trustDropFollowupOwner,
    next.requireApprovalForResolved.or previous.requireApprovalForResolved,
    next.requireApprovalForArchived.or previous.requireApprovalForArchived,
    next.promoteTrustDropToIncident.or previous.promoteTrustDropToIncident⟩

def PolicyOverride.over (next previous : PolicyOverride) : PolicyOverride :=
  ⟨next.fields.over previous.fields, next.sourceType.or previous.sourceType,
    next.sourcePlaybookId.or previous.sourcePlaybookId, next.updatedById.or previous.updatedById,
    next.updatedByName.or previous.updatedByName⟩

structure Actor where
  id : Option String
  name : Option String
  email : Option String
  deriving DecidableEq

/-- `text || null` -/
def present (text : Option String) : Option String := text.filter fun value => value ≠ ""

def Actor.updatedById (actor : Actor) : Option String := present actor.id

def Actor.updatedByName (actor : Actor) : Option String := (present actor.name).or (present actor.email)

structure PolicyPlaybook where
  id : String
  environment : EnvironmentKey
  incidentApprovalCapacityLimit : Int
  trustDropAction : String
  requireApprovalForResolved : Bool
  promoteTrustDropToIncident : Bool
  isPreset : Bool
  deriving DecidableEq

def PolicyPlaybook.sourceType (playbook : PolicyPlaybook) : String :=
  if playbook.isPreset then "preset" else "playbook"

/-- What a rollout sets. -/
def afterOverride (playbook : PolicyPlaybook) (actor : Actor) : PolicyOverride where
  fields :=
    ⟨some playbook.environment, some playbook.incidentApprovalCapacityLimit, none, some playbook.trustDropAction, none,
      some playbook.requireApprovalForResolved, none, some playbook.promoteTrustDropToIncident⟩
  sourceType := some playbook.sourceType
  sourcePlaybookId := some playbook.id
  updatedById := actor.updatedById
  updatedByName := actor.updatedByName

def applied (after : PolicyOverride) (previous : Option PolicyOverride) : PolicyOverride :=
  match previous with
  | none => after
  | some row => after.over row

/-- What a rollback makes of the current override. -/
def restored (beforeOverride : Option OverrideRecord) (current : Option PolicyOverride) : Option PolicyOverride :=
  beforeOverride.map fun before =>
    { fields := match current with
        | none => sanitizeOverride before
        | some row => (sanitizeOverride before).over row.fields
      sourceType := before.sourceType
      sourcePlaybookId := before.sourcePlaybookId
      updatedById := before.updatedById
      updatedByName := before.updatedByName }

/-- What a save by hand makes of it. -/
def saved (policyOverride : OverrideRecord) (actor : Actor) (current : Option PolicyOverride) : PolicyOverride where
  fields := match current with
    | none => sanitizeOverride policyOverride
    | some row => (sanitizeOverride policyOverride).over row.fields
  sourceType := some "manual"
  sourcePlaybookId := none
  updatedById := actor.updatedById
  updatedByName := actor.updatedByName

end Definitions

section Restoring

/-- The override has all the columns that a rollout sets and no other, and the rollout names an updater wherever it
does. -/
structure Covered (actor : Actor) (previous : PolicyOverride) : Prop where
  environment : previous.fields.environment ≠ none
  capacity : previous.fields.incidentApprovalCapacityLimit ≠ none
  trust : previous.fields.trustDropAction ≠ none
  resolved : previous.fields.requireApprovalForResolved ≠ none
  promote : previous.fields.promoteTrustDropToIncident ≠ none
  reminder : previous.fields.incidentApprovalReminderMinutes = none
  followup : previous.fields.trustDropFollowupOwner = none
  archived : previous.fields.requireApprovalForArchived = none
  updater : actor.updatedById = none → previous.updatedById = none
  updaterName : actor.updatedByName = none → previous.updatedByName = none

theorem toEnvironment_text (key : EnvironmentKey) : toEnvironment key.text = key := by
  cases key <;> rfl

@[simp] theorem sanitizeOverride_toObject (row : PolicyOverride) :
    sanitizeOverride (overrideToObject row) = row.fields := by
  simp only [sanitizeOverride, overrideToObject, Option.map_map, Function.comp_def, toEnvironment_text, Option.map_id']

@[simp] theorem normalize_toObject (row : PolicyOverride) :
    normalizeRolloutOverrideSnapshot (overrideToObject row) = row := by
  rw [normalizeRolloutOverrideSnapshot, sanitizeOverride_toObject]
  rfl

theorem matches_iff {current : Option PolicyOverride} {after : PolicyOverride} :
    rolloutSnapshotMatchesCurrentOverride current (overrideToObject after) = true ↔ current = some after := by
  simp only [rolloutSnapshotMatchesCurrentOverride, normalize_toObject, Option.map_id', decide_eq_true_eq]

theorem or_eq_left {α : Type} {next previous : Option α} : next.or previous = next ↔ (next = none → previous = none) := by
  cases next <;> simp

theorem or_some_eq_left {α : Type} {next : Option α} {value : α} : next.or (some value) = next ↔ next ≠ none := by
  cases next <;> simp

theorem over_after_iff (playbook : PolicyPlaybook) (actor : Actor) (previous : PolicyOverride) :
    (afterOverride playbook actor).over previous = afterOverride playbook actor ↔
      previous.fields.incidentApprovalReminderMinutes = none ∧ previous.fields.trustDropFollowupOwner = none ∧
        previous.fields.requireApprovalForArchived = none ∧ (actor.updatedById = none → previous.updatedById = none) ∧
        (actor.updatedByName = none → previous.updatedByName = none) := by
  simp only [afterOverride, PolicyOverride.over, PolicyFields.over, PolicyOverride.mk.injEq, PolicyFields.mk.injEq,
    or_eq_left, reduceCtorEq, false_implies, true_implies, true_and, and_true, and_assoc]

theorem restored_after_iff (playbook : PolicyPlaybook) (actor : Actor) (previous : PolicyOverride) :
    restored (some (overrideToObject previous)) (some (afterOverride playbook actor)) = some previous ↔
      previous.fields.environment ≠ none ∧ previous.fields.incidentApprovalCapacityLimit ≠ none ∧
        previous.fields.trustDropAction ≠ none ∧ previous.fields.requireApprovalForResolved ≠ none ∧
        previous.fields.promoteTrustDropToIncident ≠ none := by
  have hFields : restored (some (overrideToObject previous)) (some (afterOverride playbook actor)) = some previous ↔
      previous.fields.over (afterOverride playbook actor).fields = previous.fields := by
    simp only [restored, Option.map_some, sanitizeOverride_toObject, Option.some.injEq]
    constructor
    · exact congrArg PolicyOverride.fields
    · intro h
      rw [h]
      rfl
  rw [hFields]
  obtain ⟨⟨environment, capacity, reminder, trust, followup, resolved, archived, promote⟩, _, _, _, _⟩ := previous
  simp only [afterOverride, PolicyFields.over, PolicyFields.mk.injEq, or_some_eq_left, Option.or_none, true_and]

/-- The check passes after the rollout and the rollback restores the override exactly where it was covered. -/
theorem covered_iff (playbook : PolicyPlaybook) (actor : Actor) (previous : PolicyOverride) :
    Covered actor previous ↔ (afterOverride playbook actor).over previous = afterOverride playbook actor ∧
      restored (some (overrideToObject previous)) (some (afterOverride playbook actor)) = some previous := by
  rw [over_after_iff, restored_after_iff]
  constructor
  · intro h
    exact ⟨⟨h.reminder, h.followup, h.archived, h.updater, h.updaterName⟩,
      h.environment, h.capacity, h.trust, h.resolved, h.promote⟩
  · rintro ⟨⟨hReminder, hFollowup, hArchived, hUpdater, hName⟩, hEnvironment, hCapacity, hTrust, hResolved, hPromote⟩
    exact ⟨hEnvironment, hCapacity, hTrust, hResolved, hPromote, hReminder, hFollowup, hArchived, hUpdater, hName⟩

theorem applied_some (after row : PolicyOverride) : applied after (some row) = after.over row := rfl

/-- An absent override is deleted again. -/
theorem undone_iff (playbook : PolicyPlaybook) (actor : Actor) (previous : Option PolicyOverride) :
    (∀ row ∈ previous, Covered actor row) ↔
      applied (afterOverride playbook actor) previous = afterOverride playbook actor ∧
        restored (previous.map overrideToObject) (some (afterOverride playbook actor)) = previous := by
  cases previous with
  | none =>
    refine iff_of_true (fun row hRow => ?_) ⟨rfl, rfl⟩
    cases hRow
  | some row =>
    have h := covered_iff playbook actor row
    simp only [Option.mem_some_iff, forall_eq', Option.map_some, applied_some]
    exact h

end Restoring

end CommandConsole.Rollouts
