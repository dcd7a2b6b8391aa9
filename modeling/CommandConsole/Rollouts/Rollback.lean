import Mathlib.Data.List.Nodup
import CommandConsole.Rollouts.Inverse

/-! # Rollbacks among other calls

A rollback that commits restores all workspaces of its rollout, each from what the rollout left
there to what it had found, in the runs where no override changes between a check and its commit,
or between the reads of a rollout and its commit.
-/
namespace CommandConsole.Rollouts
open Library
set_option autoImplicit false

section Statement

/-- All workspaces of the rollout are restored, from what it left, or no override changes. -/
def RollsBack (rolloutId : String) (before after : PolicyStore) : Prop :=
  (∀ id, after.overrides id = before.overrides id) ∨
  ∃ rollout, before.rollouts.find? rolloutId = some rollout ∧
    (∀ item ∈ rollout.workspaces,
      before.overrides item.workspaceId = some item.left ∧ after.overrides item.workspaceId = item.found) ∧
    ∀ id, (∀ item ∈ rollout.workspaces, item.workspaceId ≠ id) → after.overrides id = before.overrides id

/-- A rollout finds the overrides that it has read, covered by what it sets, and a rollback finds those that it has
checked. -/
def PolicyCall.InTime (store : PolicyStore) (call : PolicyCall) : Prop :=
  match call.request, call.stage with
  | .apply _ _ actor, .opened _ _ targets =>
    ∀ target ∈ targets, store.overrides target.1.id = target.2 ∧ ∀ row ∈ target.2, Covered actor row
  | .rollback _, .checking rollout [] =>
    ∀ item ∈ rollout.workspaces,
      rolloutSnapshotMatchesCurrentOverride (store.overrides item.workspaceId) item.afterOverride = true
  | _, _ => True

def InTime (turn : PolicyTurn) (crowd : PolicyCalls) : Prop :=
  match turn with
  | .advance index _ => ∀ call ∈ crowd.calls[index]?, call.InTime crowd.store
  | _ => True

instance (actor : Actor) (row : PolicyOverride) : Decidable (Covered actor row) :=
  decidable_of_iff (row.fields.environment ≠ none ∧ row.fields.incidentApprovalCapacityLimit ≠ none ∧
      row.fields.trustDropAction ≠ none ∧ row.fields.requireApprovalForResolved ≠ none ∧
      row.fields.promoteTrustDropToIncident ≠ none ∧ row.fields.incidentApprovalReminderMinutes = none ∧
      row.fields.trustDropFollowupOwner = none ∧ row.fields.requireApprovalForArchived = none ∧
      (actor.updatedById = none → row.updatedById = none) ∧ (actor.updatedByName = none → row.updatedByName = none))
    ⟨fun ⟨h₁, h₂, h₃, h₄, h₅, h₆, h₇, h₈, h₉, h₁₀⟩ => ⟨h₁, h₂, h₃, h₄, h₅, h₆, h₇, h₈, h₉, h₁₀⟩,
      fun ⟨h₁, h₂, h₃, h₄, h₅, h₆, h₇, h₈, h₉, h₁₀⟩ => ⟨h₁, h₂, h₃, h₄, h₅, h₆, h₇, h₈, h₉, h₁₀⟩⟩

instance (store : PolicyStore) (call : PolicyCall) : Decidable (call.InTime store) := by
  unfold PolicyCall.InTime
  split <;> infer_instance

instance (turn : PolicyTurn) (crowd : PolicyCalls) : Decidable (InTime turn crowd) := by
  unfold InTime
  split <;> infer_instance

end Statement

section Tracking

/-- The images of a rollout are those of what it left and lead back to what it had found. -/
def RolloutWorkspace.Exact (item : RolloutWorkspace) : Prop :=
  item.afterOverride = overrideToObject item.left ∧ restored item.beforeOverride (some item.left) = item.found

def Rollout.Exact (rollout : Rollout) : Prop :=
  (rollout.workspaces.map RolloutWorkspace.workspaceId).Nodup ∧ ∀ item ∈ rollout.workspaces, item.Exact

/-- The rollout that a call has opened and not yet written. -/
def PolicyCall.opened? (call : PolicyCall) : Option String :=
  match call.stage with
  | .opened rolloutId _ _ => some rolloutId
  | _ => none

/-- What the stage of a call says of the rollouts. -/
def PolicyCall.Tracks (store : PolicyStore) (call : PolicyCall) : Prop :=
  match call.stage with
  | .gathered _ targets => (targetIds targets).Nodup
  | .opened rolloutId _ targets =>
    (targetIds targets).Nodup ∧ ∃ stored, store.rollouts.find? rolloutId = some stored ∧ stored.workspaces = []
  | .checking rollout _ =>
    call.request = .rollback rollout.id ∧ ∃ stored, store.rollouts.find? rollout.id = some stored ∧
      (rollout.workspaces = [] ∨ rollout.workspaces = stored.workspaces)
  | _ => True

/-- The rollouts are still there, and only the one that was opened may have been written. -/
def Continues (opened : Option String) (before after : PolicyStore) : Prop :=
  ∀ id stored, before.rollouts.find? id = some stored → ∃ later, after.rollouts.find? id = some later ∧
    (later.workspaces = stored.workspaces ∨ opened = some id ∧ stored.workspaces = [])

theorem PolicyCall.Tracks.later {before after : PolicyStore} {call : PolicyCall} {opened : Option String}
    (h : call.Tracks before) (hContinues : Continues opened before after)
    (hOther : ∀ id, call.opened? = some id → opened ≠ some id) : call.Tracks after := by
  obtain ⟨request, stage⟩ := call
  cases stage with
  | gathered playbook targets => exact h
  | opened rolloutId playbook targets =>
    obtain ⟨hNodup, stored, hFind, hNone⟩ := h
    obtain ⟨later, hLater, hSame | ⟨hOpened, -⟩⟩ := hContinues rolloutId stored hFind
    · exact ⟨hNodup, later, hLater, hSame.trans hNone⟩
    · exact absurd hOpened (hOther rolloutId rfl)
  | checking rollout unchecked =>
    obtain ⟨hRequest, stored, hFind, hRead⟩ := h
    obtain ⟨later, hLater, hSame | ⟨-, hNone⟩⟩ := hContinues rollout.id stored hFind
    · exact ⟨hRequest, later, hLater, hSame ▸ hRead⟩
    · exact ⟨hRequest, later, hLater, .inl (hRead.elim id fun hSame => hSame.trans hNone)⟩
  | _ => trivial

theorem continues_of_rollouts {before after : PolicyStore} (opened : Option String)
    (hSame : after.rollouts = before.rollouts) : Continues opened before after := by
  intro id stored hFind
  exact ⟨stored, hSame ▸ hFind, .inl rfl⟩

def PolicyStore.Exact (store : PolicyStore) : Prop := ∀ rollout ∈ store.rollouts.rows, rollout.Exact

/-- What a section of a call may do to the rollouts. -/
structure Advances (call next : PolicyCall) (before after : PolicyStore) : Prop where
  continues : Continues call.opened? before after
  tracks : next.Tracks after
  exact : after.Exact
  opens : ∀ id, next.opened? = some id → call.opened? = some id ∨ before.rollouts.find? id = none

theorem Advances.of_rollouts {call next : PolicyCall} {before after : PolicyStore}
    (hSame : after.rollouts = before.rollouts) (hTracks : next.Tracks before) (hExact : before.Exact)
    (hOpens : ∀ id, next.opened? = some id → call.opened? = some id) : Advances call next before after where
  continues := continues_of_rollouts _ hSame
  tracks := hTracks.later (continues_of_rollouts none hSame) fun _ _ => nofun
  exact := by
    rw [PolicyStore.Exact, hSame]
    exact hExact
  opens id hId := .inl (hOpens id hId)

end Tracking

section Sections

variable {store : PolicyStore} {input : PolicyInput}

theorem targetIds_nodup (store : PolicyStore) (workspaceIds : List String) :
    (targetIds (findTargets store workspaceIds)).Nodup := by
  rw [targetIds, findTargets, List.map_map, List.Nodup, List.pairwise_map]
  exact (store.workspaces.unique.filter _).imp fun h => h.1

theorem open_advances {request : PolicyRequest} {playbook : PolicyPlaybook} {targets : List Target} {actor : Actor}
    (hTracks : (targetIds targets).Nodup) (hExact : store.Exact) :
    Advances ⟨request, .gathered playbook targets⟩ ⟨request, (openRollout input store playbook targets actor).1⟩ store
      (openRollout input store playbook targets actor).2 := by
  unfold openRollout
  split
  · exact .of_rollouts rfl trivial hExact nofun
  · rename_i rollouts hInsert
    have hFree := (Table.insert_eq_some hInsert).1
    have hRows := (Table.insert_eq_some hInsert).2.2
    refine ⟨fun id stored hFind => ⟨stored, ?_, .inl rfl⟩,
      ⟨hTracks, newRollout input.newId playbook targets actor, ?_, rfl⟩, fun rollout hRollout => ?_, ?_⟩
    · change rollouts.find? id = some stored
      rw [Table.find?_insert hInsert, if_neg]
      · exact hFind
      · rintro rfl
        rw [hFree] at hFind
        cases hFind
    · change rollouts.find? input.newId = some (newRollout input.newId playbook targets actor)
      rw [Table.find?_insert hInsert]
      exact if_pos rfl
    · change rollout ∈ rollouts.rows at hRollout
      rw [hRows] at hRollout
      rcases List.mem_append.mp hRollout with hOld | hNew
      · exact hExact rollout hOld
      · obtain rfl := List.mem_singleton.mp hNew
        exact ⟨List.nodup_nil, fun item hItem => absurd hItem List.not_mem_nil⟩
    · rintro id hId
      cases hId
      exact .inr hFree

theorem rolledOut_exact {playbook : PolicyPlaybook} {actor : Actor} {target : Target}
    (hFound : store.overrides target.1.id = target.2) (hCovered : ∀ row ∈ target.2, Covered actor row) :
    (Target.rolledOut (afterOverride playbook actor) store.overrides target).Exact := by
  obtain ⟨hLeft, hRestored⟩ := (undone_iff playbook actor target.2).mp hCovered
  unfold RolloutWorkspace.Exact Target.rolledOut
  dsimp only
  rw [hFound, hLeft]
  exact ⟨rfl, hRestored⟩

theorem commit_advances {request : PolicyRequest} {rolloutId : String} {playbook : PolicyPlaybook}
    {targets : List Target} {actor : Actor} (hTracks : PolicyCall.Tracks store ⟨request, .opened rolloutId playbook targets⟩)
    (hExact : store.Exact)
    (hInTime : ∀ target ∈ targets, store.overrides target.1.id = target.2 ∧ ∀ row ∈ target.2, Covered actor row) :
    Advances ⟨request, .opened rolloutId playbook targets⟩ ⟨request, .ended (.applied (some rolloutId))⟩ store
      (commitRollout store rolloutId playbook targets actor) := by
  obtain ⟨hNodup, opened, hOpened, hNone⟩ := hTracks
  have hId : opened.id = rolloutId := Table.find?_key hOpened
  refine ⟨fun id stored hFind => ?_, trivial, ?_, nofun⟩
  · rw [find?_commitRollout, hFind]
    refine ⟨_, rfl, ?_⟩
    unfold Rollout.add
    split
    · rename_i hSame
      obtain rfl := Table.eq_of_key_eq _ (Table.find?_mem hFind) (Table.find?_mem hOpened) (hSame.trans hId.symm)
      exact .inr ⟨congrArg some (hId.symm.trans (Table.find?_key hFind)), hNone⟩
    · exact .inl rfl
  · intro rollout hRollout
    obtain ⟨row, hRow, rfl⟩ := List.mem_map.mp hRollout
    unfold Rollout.add
    split
    · rename_i hSame
      obtain rfl := Table.eq_of_key_eq _ hRow (Table.find?_mem hOpened) (hSame.trans hId.symm)
      rw [hNone, List.nil_append]
      refine ⟨?_, fun item hItem => ?_⟩
      · rwa [List.map_map]
      · obtain ⟨target, hTarget, rfl⟩ := List.mem_map.mp hItem
        exact rolledOut_exact (hInTime target hTarget).1 (hInTime target hTarget).2
    · exact hExact row hRow

theorem close_advances {request : PolicyRequest} {rollout : Rollout} {unchecked : List RolloutWorkspace} {now : Nat}
    (hExact : store.Exact) :
    Advances ⟨request, .checking rollout unchecked⟩ ⟨request, .ended .rolledBack⟩ store
      (commitRollback store rollout now) := by
  refine ⟨fun id stored hFind => ?_, trivial, fun row hRow => ?_, nofun⟩
  · rw [find?_commitRollback, hFind]
    exact ⟨_, rfl, .inl (Rollout.workspaces_close _ _ _)⟩
  · obtain ⟨earlier, hEarlier, rfl⟩ := List.mem_map.mp hRow
    rw [Rollout.Exact, Rollout.workspaces_close]
    exact hExact earlier hEarlier

theorem apply_advances {playbookId : String} {workspaceIds : List String} {actor : Actor} {stage : PolicyStage}
    (hTracks : PolicyCall.Tracks store ⟨.apply playbookId workspaceIds actor, stage⟩) (hExact : store.Exact)
    (hInTime : PolicyCall.InTime store ⟨.apply playbookId workspaceIds actor, stage⟩) :
    Advances ⟨.apply playbookId workspaceIds actor, stage⟩
      (PolicyCall.advance input ⟨.apply playbookId workspaceIds actor, stage⟩ store).1 store
      (PolicyCall.advance input ⟨.apply playbookId workspaceIds actor, stage⟩ store).2 := by
  cases stage with
  | received =>
    dsimp only [PolicyCall.advance, PolicyCall.section, applyPolicyPlaybookToWorkspaces, findPlaybook]
    split <;> exact .of_rollouts rfl trivial hExact nofun
  | planned playbook =>
    dsimp only [PolicyCall.advance, PolicyCall.section, applyPolicyPlaybookToWorkspaces, gather]
    split
    · exact .of_rollouts rfl trivial hExact nofun
    · exact .of_rollouts rfl (targetIds_nodup store workspaceIds) hExact nofun
  | gathered playbook targets => exact open_advances hTracks hExact
  | opened rolloutId playbook targets => exact commit_advances hTracks hExact hInTime
  | _ => exact .of_rollouts rfl hTracks hExact fun _ h => h

theorem findRollout_tracks (store : PolicyStore) (rolloutId : String) :
    PolicyCall.Tracks store ⟨.rollback rolloutId, findRollout store rolloutId⟩ := by
  unfold findRollout
  split
  · trivial
  · rename_i rollout hFind
    split
    · trivial
    · obtain rfl := Table.find?_key hFind
      exact ⟨rfl, rollout, hFind, .inr rfl⟩

theorem findRollout_opens (store : PolicyStore) (request : PolicyRequest) (rolloutId : String) :
    PolicyCall.opened? ⟨request, findRollout store rolloutId⟩ = none := by
  unfold findRollout
  split
  · rfl
  · split <;> rfl

theorem rollback_advances {rolloutId : String} {stage : PolicyStage}
    (hTracks : PolicyCall.Tracks store ⟨.rollback rolloutId, stage⟩) (hExact : store.Exact) :
    Advances ⟨.rollback rolloutId, stage⟩ (PolicyCall.advance input ⟨.rollback rolloutId, stage⟩ store).1 store
      (PolicyCall.advance input ⟨.rollback rolloutId, stage⟩ store).2 := by
  cases stage with
  | received =>
    refine .of_rollouts rfl (findRollout_tracks store rolloutId) hExact fun id hId => ?_
    have hNone := findRollout_opens store (.rollback rolloutId) rolloutId
    exact absurd (hNone.symm.trans hId) nofun
  | checking rollout unchecked =>
    cases unchecked with
    | nil => exact close_advances hExact
    | cons item unchecked =>
      dsimp only [PolicyCall.advance, PolicyCall.section, rollbackPolicyPlaybookRollout, checkOverride]
      split
      · exact .of_rollouts rfl hTracks hExact nofun
      · exact .of_rollouts rfl trivial hExact nofun
  | _ => exact .of_rollouts rfl hTracks hExact fun _ h => h

theorem save_advances {workspaceId : String} {policyOverride : OverrideRecord} {actor : Actor} {stage : PolicyStage}
    (hTracks : PolicyCall.Tracks store ⟨.save workspaceId policyOverride actor, stage⟩) (hExact : store.Exact) :
    Advances ⟨.save workspaceId policyOverride actor, stage⟩
      (PolicyCall.advance input ⟨.save workspaceId policyOverride actor, stage⟩ store).1 store
      (PolicyCall.advance input ⟨.save workspaceId policyOverride actor, stage⟩ store).2 := by
  cases stage with
  | received =>
    dsimp only [PolicyCall.advance, PolicyCall.section, saveWorkspacePolicyOverride]
    split <;> exact .of_rollouts rfl trivial hExact nofun
  | saving => exact .of_rollouts rfl trivial hExact nofun
  | _ => exact .of_rollouts rfl hTracks hExact fun _ h => h

theorem advance_advances {call : PolicyCall} (hTracks : call.Tracks store) (hExact : store.Exact)
    (hInTime : call.InTime store) : Advances call (call.advance input store).1 store (call.advance input store).2 := by
  obtain ⟨request, stage⟩ := call
  cases request with
  | apply playbookId workspaceIds actor => exact apply_advances hTracks hExact hInTime
  | rollback rolloutId => exact rollback_advances hTracks hExact
  | save workspaceId policyOverride actor => exact save_advances hTracks hExact
  | reset workspaceIds =>
    cases stage with
    | received => exact .of_rollouts rfl trivial hExact nofun
    | _ => exact .of_rollouts rfl hTracks hExact fun _ h => h

end Sections

section Runs

/-- The images of the stored rollouts are exact, and a rollout is written by the call that has opened it. -/
structure Sound (crowd : PolicyCalls) : Prop where
  exact : crowd.store.Exact
  tracks : ∀ call ∈ crowd.calls, call.Tracks crowd.store
  exclusive : Crowd.Exclusive PolicyCall.opened? crowd.calls

variable {crowd : PolicyCalls}

theorem Sound.enter (h : Sound crowd) (request : PolicyRequest) :
    Sound (Crowd.step policyRules (.enter request) crowd) := by
  refine ⟨h.exact, fun call hMem => ?_, h.exclusive.append rfl⟩
  rcases List.mem_append.mp hMem with hOld | hNew
  · exact h.tracks call hOld
  · obtain rfl := List.mem_singleton.mp hNew
    trivial

theorem Sound.advance (h : Sound crowd) {index : Nat} {call : PolicyCall} (input : PolicyInput)
    (hCall : crowd.calls[index]? = some call) (hInTime : call.InTime crowd.store) :
    Sound (Crowd.step policyRules (.advance index input) crowd) := by
  have hAdvances : Advances call (call.advance input crowd.store).1 crowd.store (call.advance input crowd.store).2 :=
    advance_advances (h.tracks call (List.mem_of_getElem? hCall)) h.exact hInTime
  rw [Crowd.step_advance hCall]
  refine ⟨hAdvances.exact, fun other hMem => ?_, h.exclusive.set hCall fun id hId => ?_⟩
  · obtain ⟨i, hi⟩ := List.mem_iff_getElem?.mp hMem
    by_cases hIndex : i = index
    · subst hIndex
      rw [Crowd.getElem?_set_self' hCall] at hi
      obtain rfl := Option.some.inj hi
      exact hAdvances.tracks
    · rw [List.getElem?_set_ne (Ne.symm hIndex)] at hi
      refine (h.tracks other (List.mem_of_getElem? hi)).later hAdvances.continues fun id hOther hMine => ?_
      exact hIndex (h.exclusive i index other call id hi hCall hOther hMine)
  · refine (hAdvances.opens id hId).imp_right fun hFree i other hNe hOther hOpened => ?_
    have hTracks := h.tracks other (List.mem_of_getElem? hOther)
    obtain ⟨request, stage⟩ := other
    cases stage with
    | opened rolloutId playbook targets =>
      obtain ⟨-, stored, hFind, -⟩ := hTracks
      cases hOpened
      rw [hFree] at hFind
      cases hFind
    | _ => cases hOpened

theorem Sound.outside (h : Sound crowd) (op : PolicyOp) : Sound (Crowd.step policyRules (.outside op) crowd) := by
  have hSame : (op.perform crowd.store).rollouts = crowd.store.rollouts := by
    cases op <;> rfl
  refine ⟨?_, fun call hMem => ?_, h.exclusive⟩
  · change PolicyStore.Exact (op.perform crowd.store)
    rw [PolicyStore.Exact, hSame]
    exact h.exact
  · exact (h.tracks call hMem).later (continues_of_rollouts none hSame) fun _ _ => nofun

theorem run_sound (h : Reaches (Crowd.step policyRules) InTime (Crowd.init .empty) crowd) : Sound crowd := by
  refine h.invariant (P := Sound) ?_ ?_
  · refine ⟨?_, ?_, ?_⟩
    · intro rollout hRollout
      cases hRollout
    · intro call hCall
      cases hCall
    · intro i j left right id hLeft
      cases hLeft
  · intro turn crowd hSound hInTime
    cases turn with
    | enter request => exact hSound.enter request
    | outside op => exact hSound.outside op
    | advance index input =>
      cases hCall : crowd.calls[index]? with
      | none =>
        rw [Crowd.step, hCall]
        exact hSound
      | some call => exact hSound.advance input hCall (hInTime call hCall)

theorem find?_item {rollout : Rollout} {item : RolloutWorkspace}
    (hNodup : (rollout.workspaces.map RolloutWorkspace.workspaceId).Nodup) (hItem : item ∈ rollout.workspaces) :
    (rollout.workspaces.find? fun other => other.workspaceId = item.workspaceId) = some item := by
  cases hFind : rollout.workspaces.find? fun other => other.workspaceId = item.workspaceId with
  | none => simpa using List.find?_eq_none.mp hFind item hItem
  | some other =>
    have hId : other.workspaceId = item.workspaceId := by simpa using List.find?_some hFind
    exact congrArg some (List.inj_on_of_nodup_map hNodup (List.mem_of_find?_eq_some hFind) hItem hId)

theorem commitRollback_rollsBack {rollout stored : Rollout} {now : Nat} {store : PolicyStore}
    (hFind : store.rollouts.find? rollout.id = some stored)
    (hRead : rollout.workspaces = [] ∨ rollout.workspaces = stored.workspaces) (hExact : rollout.Exact)
    (hInTime : ∀ item ∈ rollout.workspaces,
      rolloutSnapshotMatchesCurrentOverride (store.overrides item.workspaceId) item.afterOverride = true) :
    RollsBack rollout.id store (commitRollback store rollout now) := by
  rcases hRead with hNone | hSame
  · refine .inl fun id => ?_
    simp only [commitRollback, hNone, List.find?_nil]
  · refine .inr ⟨stored, hFind, ?_, ?_⟩
    · rw [← hSame]
      intro item hItem
      obtain ⟨hAfter, hFound⟩ := hExact.2 item hItem
      have hMatches := hInTime item hItem
      rw [hAfter, matches_iff] at hMatches
      refine ⟨hMatches, ?_⟩
      simp only [commitRollback, find?_item hExact.1 hItem, hMatches]
      exact hFound
    · rw [← hSame]
      intro id hOther
      have hNone : (rollout.workspaces.find? fun item => item.workspaceId = id) = none :=
        List.find?_eq_none.mpr fun item hItem => by simpa using hOther item hItem
      simp only [commitRollback, hNone]

theorem Sound.rollsBack (h : Sound crowd) {index : Nat} {input : PolicyInput} {call : PolicyCall} {rolloutId : String}
    (hCall : crowd.calls[index]? = some call) (hRequest : call.request = .rollback rolloutId)
    (hInTime : call.InTime crowd.store) : RollsBack rolloutId crowd.store (call.advance input crowd.store).2 := by
  have hTracks := h.tracks call (List.mem_of_getElem? hCall)
  obtain ⟨request, stage⟩ := call
  dsimp only at hRequest
  subst hRequest
  cases stage with
  | checking rollout unchecked =>
    cases unchecked with
    | cons item unchecked => exact .inl fun id => rfl
    | nil =>
      obtain ⟨hOwn, stored, hFind, hRead⟩ := hTracks
      cases hOwn
      refine commitRollback_rollsBack hFind hRead ?_ hInTime
      rcases hRead with hNone | hSame
      · rw [Rollout.Exact, hNone]
        exact ⟨List.nodup_nil, fun item hItem => absurd hItem List.not_mem_nil⟩
      · have hStored := h.exact stored (Table.find?_mem hFind)
        rw [Rollout.Exact, hSame]
        exact hStored
  | _ => exact .inl fun id => rfl

/-- A rollout alone is undone exactly where every override was absent or covered, and among other calls a rollback
in time restores all of its workspaces or none. -/
theorem policy_rollouts_undone (rolloutId : String) :
    (∀ (input : PolicyInput) (playbookId : String) (workspaceIds : List String) (actor : Actor) (turns : Nat)
      (before after : PolicyStore) (call : PolicyCall),
      PolicyCall.alone input ⟨.apply playbookId workspaceIds actor, .received⟩ before turns = (call, after) →
      call.stage = .ended (.applied (some rolloutId)) →
      ((∀ current, Untouched rolloutId (targetIds (findTargets before workspaceIds)) after current → ∀ rollbackInput,
          Undoes rollbackInput rolloutId (targetIds (findTargets before workspaceIds)) before current) ↔
        ∀ target ∈ findTargets before workspaceIds, ∀ row ∈ target.2, Covered actor row)) ∧
    ∀ crowd, Reaches (Crowd.step policyRules) InTime (Crowd.init .empty) crowd →
      ∀ index input call, InTime (.advance index input) crowd → crowd.calls[index]? = some call →
        call.request = .rollback rolloutId →
          RollsBack rolloutId crowd.store (Crowd.step policyRules (.advance index input) crowd).store := by
  constructor
  · intro input playbookId workspaceIds actor turns before after call hAlone hEnded
    obtain ⟨playbook, rollouts, hInsert, rfl⟩ := alone_applied hAlone hEnded
    constructor
    · intro hUndoes
      exact (undoes_iff (fun _ => findTargets_override) hInsert ⟨rfl, fun _ _ => rfl⟩).mp
        (hUndoes _ ⟨rfl, fun _ _ => rfl⟩ input)
    · intro hCovered current hUntouched rollbackInput
      exact (undoes_iff (fun _ => findTargets_override) hInsert hUntouched).mpr hCovered
  · intro crowd hRun index input call hInTime hCall hRequest
    rw [Crowd.step_advance hCall]
    exact (run_sound hRun).rollsBack hCall hRequest (hInTime call hCall)

end Runs

section Examples

def admin : Actor := ⟨some "admin_1", some "Admin", none⟩

def production : PolicyPlaybook := ⟨"preset-prod", .production, 1, "followup", true, true, true⟩

/-- Only the environment is overridden. -/
def sparseRecord : OverrideRecord := ⟨some "staging", none, none, none, none, none, none, none, none, none, none, none⟩

def fullRecord : OverrideRecord :=
  { sparseRecord with
    incidentApprovalCapacityLimit := some 2
    trustDropAction := some "digest"
    requireApprovalForResolved := some false
    promoteTrustDropToIncident := some false }

def notifyRecord : OverrideRecord := { fullRecord with trustDropAction := some "notify" }

def remindedRecord : OverrideRecord := { fullRecord with incidentApprovalReminderMinutes := some 10 }

def rolloutInput : PolicyInput := ⟨"rollout-1", 7⟩

def callTurns (index sections : Nat) (request : PolicyRequest) : List PolicyTurn :=
  .enter request :: List.replicate sections (.advance index rolloutInput)

/-- Two workspaces, of which one has an override. -/
def settledTurns (record : OverrideRecord) : List PolicyTurn :=
  [.outside (.createWorkspace ⟨"workspace_1", "Operations"⟩), .outside (.createWorkspace ⟨"workspace_2", "Lab"⟩),
    .outside (.savePolicyPlaybook production)] ++ callTurns 0 2 (.save "workspace_1" record admin)

def runPolicies (turns : List PolicyTurn) : PolicyCalls := runAll (Crowd.step policyRules) (Crowd.init .empty) turns

def settled (record : OverrideRecord) : PolicyStore := (runPolicies (settledTurns record)).store

def bothWorkspaces : List String := ["workspace_1", "workspace_2"]

def applyRequest : PolicyRequest := .apply "preset-prod" bothWorkspaces admin

/-- The playbook applied to both workspaces of a settled store. -/
def rolledOut (record : OverrideRecord) : PolicyCall × PolicyStore :=
  PolicyCall.alone rolloutInput ⟨applyRequest, .received⟩ (settled record) 4

/-- A rollback that has checked both overrides. -/
def checkedTurns (record : OverrideRecord) : List PolicyTurn :=
  settledTurns record ++ callTurns 1 4 applyRequest ++ callTurns 2 3 (.rollback "rollout-1")

theorem policy_rollouts_undone_full :
    Undoes rolloutInput "rollout-1" (targetIds (findTargets (settled fullRecord) bothWorkspaces)) (settled fullRecord)
      (rolledOut fullRecord).2 ∧
    RollsBack "rollout-1" (runPolicies (checkedTurns fullRecord)).store
      (Crowd.step policyRules (.advance 2 rolloutInput) (runPolicies (checkedTurns fullRecord))).store := by
  have hEnded : (rolledOut fullRecord).1.stage = .ended (.applied (some "rollout-1")) := by decide +kernel
  have hCovered : ∀ target ∈ findTargets (settled fullRecord) bothWorkspaces, ∀ row ∈ target.2, Covered admin row := by
    decide +kernel
  obtain ⟨call, hCall, hRequest⟩ : ∃ call, (runPolicies (checkedTurns fullRecord)).calls[2]? = some call ∧
      call.request = .rollback "rollout-1" :=
    Option.map_eq_some_iff.mp
      (by decide +kernel : ((runPolicies (checkedTurns fullRecord)).calls[2]?).map PolicyCall.request =
        some (.rollback "rollout-1"))
  refine ⟨?_, ?_⟩
  · exact ((policy_rollouts_undone "rollout-1").1 rolloutInput "preset-prod" bothWorkspaces admin 4 (settled fullRecord) _ _ rfl
      hEnded).mpr hCovered _ ⟨rfl, fun _ _ => rfl⟩ rolloutInput
  · exact (policy_rollouts_undone "rollout-1").2 _ (GuardedAll.reaches (by decide +kernel)) 2 rolloutInput call
      (by decide +kernel) hCall hRequest

/-- The override is saved by hand after its check. -/
def savedBetween : PolicyCalls :=
  runPolicies (checkedTurns fullRecord ++ callTurns 3 2 (.save "workspace_1" notifyRecord admin))

def overwritten : PolicyCalls := Crowd.step policyRules (.advance 2 rolloutInput) savedBetween

def asLeft (store : PolicyStore) (rolloutId : String) : Bool :=
  (store.rollouts.find? rolloutId).any fun rollout =>
    rollout.workspaces.all fun item => store.overrides item.workspaceId = some item.left

theorem policy_rollouts_not_undone :
    ((PolicyCall.alone rolloutInput ⟨.rollback "rollout-1", .received⟩ (rolledOut remindedRecord).2 2).1.stage =
        .ended (.threw (rolloutStale "rollout-1" "workspace_1"))) ∧
    ((PolicyCall.alone rolloutInput ⟨.rollback "rollout-1", .received⟩ (rolledOut sparseRecord).2 4).1.stage =
        .ended .rolledBack ∧
      ((PolicyCall.alone rolloutInput ⟨.rollback "rollout-1", .received⟩ (rolledOut sparseRecord).2 4).2.overrides
        "workspace_1").map (fun row => row.fields.incidentApprovalCapacityLimit) = some (some 1) ∧
      ((settled sparseRecord).overrides "workspace_1").map (fun row => row.fields.incidentApprovalCapacityLimit) =
        some none) ∧
    ((savedBetween.store.overrides "workspace_1").map PolicyOverride.sourceType = some (some "manual") ∧
      savedBetween.store.overrides "workspace_1" ≠ overwritten.store.overrides "workspace_1") ∧
    ¬ ((∀ (input : PolicyInput) (playbookId : String) (workspaceIds : List String) (actor : Actor) (turns : Nat)
        (before after : PolicyStore) (call : PolicyCall) (rolloutId : String),
        PolicyCall.alone input ⟨.apply playbookId workspaceIds actor, .received⟩ before turns = (call, after) →
        call.stage = .ended (.applied (some rolloutId)) →
        ∀ current, Untouched rolloutId (targetIds (findTargets before workspaceIds)) after current → ∀ rollbackInput,
          Undoes rollbackInput rolloutId (targetIds (findTargets before workspaceIds)) before current)) ∧
    ¬ ∀ crowd, Reaches (Crowd.step policyRules) (fun _ _ => True) (Crowd.init .empty) crowd →
      ∀ index input call rolloutId, crowd.calls[index]? = some call → call.request = .rollback rolloutId →
        RollsBack rolloutId crowd.store (Crowd.step policyRules (.advance index input) crowd).store := by
  have hChanges : savedBetween.store.overrides "workspace_1" ≠ overwritten.store.overrides "workspace_1" := by
    decide +kernel
  refine ⟨by decide +kernel, ⟨by decide +kernel, by decide +kernel, by decide +kernel⟩,
    ⟨by decide +kernel, hChanges⟩, fun h => ?_, fun h => ?_⟩
  · have hEnded : (rolledOut sparseRecord).1.stage = .ended (.applied (some "rollout-1")) := by decide +kernel
    have hAlone : PolicyCall.alone rolloutInput ⟨applyRequest, .received⟩ (settled sparseRecord) 4 =
        ((rolledOut sparseRecord).1, (rolledOut sparseRecord).2) := rfl
    have hUndoes := h rolloutInput "preset-prod" bothWorkspaces admin 4 (settled sparseRecord)
      (rolledOut sparseRecord).2 (rolledOut sparseRecord).1 "rollout-1" hAlone hEnded (rolledOut sparseRecord).2
      ⟨rfl, fun _ _ => rfl⟩ rolloutInput
    obtain ⟨playbook, rollouts, hInsert, hAfter⟩ := alone_applied hAlone hEnded
    rw [hAfter] at hUndoes
    have hCovered := (undoes_iff (fun _ => findTargets_override) hInsert ⟨rfl, fun _ _ => rfl⟩).mp hUndoes
    revert hCovered
    decide +kernel
  · obtain ⟨call, hCall, hRequest⟩ : ∃ call, savedBetween.calls[2]? = some call ∧
        call.request = .rollback "rollout-1" :=
      Option.map_eq_some_iff.mp
        (by decide +kernel : (savedBetween.calls[2]?).map PolicyCall.request = some (.rollback "rollout-1"))
    rcases h savedBetween (reaches_runAll _ _ _) 2 rolloutInput call "rollout-1" hCall hRequest with
      hSame | ⟨rollout, hFind, hItems, -⟩
    · exact hChanges (hSame "workspace_1").symm
    · have hLeft : asLeft savedBetween.store "rollout-1" = true := by
        rw [asLeft, hFind, Option.any_some, List.all_eq_true]
        exact fun item hItem => decide_eq_true (hItems item hItem).1
      revert hLeft
      decide +kernel

end Examples

end CommandConsole.Rollouts
