import Mathlib.Order.WellFounded
import CommandConsole.Archive.Operations
import CommandConsole.Library.Digraph

/-! # The supersession relation

The relation and its converse grow together in all runs. They form chains, with the statuses to
match, in the runs in which items are superseded, activated and restored only while they have
no successor.
-/
namespace CommandConsole.Archive
open Library
open Relation (TransGen ReflTransGen)
set_option autoImplicit false

section Statement

def Related (kind : RelationshipType) (store : ArchiveStore) (source target : String) : Prop :=
  ∃ row ∈ store.relationships, row.relationshipType = kind ∧ row.sourceItemId = source ∧ row.targetItemId = target

def Supersedes (store : ArchiveStore) : String → String → Prop := Related .supersedes store

def statusOf (id : String) (store : ArchiveStore) : Option KnowledgeStatus :=
  (store.items.find? id).map ArchiveItem.status

/-- Chains of items, each superseded by at most one other. -/
structure Chains (store : ArchiveStore) : Prop where
  acyclic : ∀ id, ¬TransGen (Supersedes store) id id
  oneSuccessor : ∀ id left right, Supersedes store left id → Supersedes store right id → left = right
  status : ∀ id successor, Supersedes store successor id → statusOf id store = some .superseded

def Converse (store : ArchiveStore) : Prop :=
  ∀ source target, Related .supersededBy store source target ↔ Supersedes store target source

/-- The call has ended by throwing. -/
def ArchiveCall.Threw (call : ArchiveCall) (error : ArchiveError) : Prop := call.stage = .ended (.error error)

/-- The claims about a state: chains, the converse, and calls that throw without a change. -/
structure ArchiveForest (crowd : Archives) : Prop where
  chains : Chains crowd.store
  converse : Converse crowd.store
  unchanged : ∀ call ∈ crowd.calls, ∀ error, call.Threw error → call.changed = false

/-- What holds of all states. -/
structure ArchiveKept (crowd : Archives) : Prop where
  converse : Converse crowd.store
  irreflexive : ∀ id, ¬Supersedes crowd.store id id
  refused : ∀ call ∈ crowd.calls, ∀ error, call.Threw error → error ≠ .database → call.changed = false
  missing : ∀ call ∈ crowd.calls, call.stage = .ended (.ok .missing) → call.changed = false

def NoSuccessor (id : String) (store : ArchiveStore) : Prop :=
  ∀ row ∈ store.relationships, row.relationshipType = .supersedes → row.targetItemId ≠ id

/-- What is superseded, activated or restored has no successor, or none but the one it gets again. -/
def ActsOnLast (turn : ArchiveTurn) (crowd : Archives) : Prop :=
  match turn with
  | .advance index _ => ∀ call ∈ crowd.calls[index]?, match call.stage with
    | .creating previous _ _ => NoSuccessor previous.id crowd.store
    | .activating currentItemId successorItemId _ =>
      (∀ row ∈ crowd.store.relationships, row.relationshipType = .supersedes → row.targetItemId = currentItemId →
        row.sourceItemId = successorItemId) ∧ NoSuccessor successorItemId crowd.store
    | .restoring id _ => NoSuccessor id crowd.store
    | _ => True
  | _ => True

instance (id : String) (store : ArchiveStore) : Decidable (NoSuccessor id store) :=
  inferInstanceAs (Decidable (∀ row ∈ store.relationships, _))

instance (turn : ArchiveTurn) (crowd : Archives) : Decidable (ActsOnLast turn crowd) :=
  match turn with
  | .advance index _ => by
    unfold ActsOnLast
    dsimp only
    have (call : ArchiveCall) : Decidable (match call.stage with
        | .creating previous _ _ => NoSuccessor previous.id crowd.store
        | .activating currentItemId successorItemId _ =>
          (∀ row ∈ crowd.store.relationships, row.relationshipType = .supersedes →
            row.targetItemId = currentItemId → row.sourceItemId = successorItemId) ∧
              NoSuccessor successorItemId crowd.store
        | .restoring id _ => NoSuccessor id crowd.store
        | _ => True) := by split <;> infer_instance
    infer_instance
  | .enter _ => inferInstanceAs (Decidable True)
  | .outside _ => inferInstanceAs (Decidable True)

end Statement

section Writes

variable {store next : ArchiveStore} {id : String}

theorem changeStatus_eq_some {status : KnowledgeStatus} {items changed : PlainTable ArchiveItem.id}
    (h : changeStatus id status items = some changed) :
    (∃ item, items.find? id = some item) ∧ ∀ other, (changed.find? other).map ArchiveItem.status =
      if other = id then some status else (items.find? other).map ArchiveItem.status := by
  unfold changeStatus at h
  split at h
  · next hThere =>
    obtain ⟨item, hItem⟩ := Option.isSome_iff_exists.mp hThere
    refine ⟨⟨item, hItem⟩, fun other => ?_⟩
    obtain rfl := Option.some.inj h
    have hFind : (items.update (fun item => item.id = id) fun item => { item with status }).find? other =
        (items.find? other).map fun item => if decide (item.id = id) then { item with status } else item :=
      Table.find?_update items (fun item => item.id = id) (fun item => { item with status }) (fun _ => rfl)
        (fun _ => rfl) other
    rw [hFind]
    cases hOther : items.find? other with
    | none =>
      have hNe : other ≠ id := by
        rintro rfl
        cases hItem.symm.trans hOther
      rw [if_neg hNe]
      rfl
    | some found =>
      obtain rfl := Table.find?_key hOther
      by_cases hSame : found.id = id
      · simp [hSame]
      · simp [hSame]
  · cases h

theorem related_append {kind : RelationshipType} {newId oldId evidence actor source target : String}
    (hRelationships : next.relationships = store.relationships ++ supersessionPair newId oldId evidence actor) :
    Related kind next source target ↔ Related kind store source target ∨
      (kind = .supersedes ∧ source = newId ∧ target = oldId) ∨
        (kind = .supersededBy ∧ source = oldId ∧ target = newId) := by
  unfold Related
  rw [hRelationships]
  constructor
  · rintro ⟨row, hRow, rfl, rfl, rfl⟩
    rcases List.mem_append.mp hRow with hOld | hNew
    · exact .inl ⟨row, hOld, rfl, rfl, rfl⟩
    · rcases List.mem_cons.mp hNew with rfl | hLast
      · exact .inr (.inl ⟨rfl, rfl, rfl⟩)
      · obtain rfl := List.mem_singleton.mp hLast
        exact .inr (.inr ⟨rfl, rfl, rfl⟩)
  · rintro (⟨row, hRow, hRest⟩ | ⟨rfl, rfl, rfl⟩ | ⟨rfl, rfl, rfl⟩)
    · exact ⟨row, List.mem_append_left _ hRow, hRest⟩
    · exact ⟨_, List.mem_append_right _ List.mem_cons_self, rfl, rfl, rfl⟩
    · exact ⟨_, List.mem_append_right _ (List.mem_cons_of_mem _ List.mem_cons_self), rfl, rfl, rfl⟩

/-- What a write does to the relation: nothing, or it adds one pair between two items. -/
structure Superseding (newId oldId : String) (store next : ArchiveStore) : Prop where
  relates : ∀ kind source target, Related kind next source target ↔ Related kind store source target ∨
    (kind = .supersedes ∧ source = newId ∧ target = oldId) ∨
      (kind = .supersededBy ∧ source = oldId ∧ target = newId)
  distinct : newId ≠ oldId
  statuses : ∀ other, statusOf other next = if other = oldId then some .superseded
    else if other = newId then some .archived else statusOf other store
  found : statusOf oldId store ≠ none

theorem createVersion_superseding {newId actor : String} {input : ArchiveItemInput} {previous : ArchiveItem}
    (hPrevious : statusOf previous.id store ≠ none)
    (h : createVersion newId input previous actor store = some next) :
    Superseding newId previous.id store next ∧ statusOf newId store = none ∧ next.audit = store.audit := by
  obtain ⟨created, hCreated, h⟩ := Option.bind_eq_some_iff.mp h
  obtain ⟨items, hItems, h⟩ := Option.bind_eq_some_iff.mp h
  obtain rfl := Option.some.inj h
  have hNew : store.items.find? newId = none := (Table.insert_eq_some hCreated).1
  have hNone : statusOf newId store = none := by
    rw [statusOf, hNew]
    rfl
  have hDistinct : newId ≠ previous.id := by
    intro hSame
    rw [← hSame] at hPrevious
    exact hPrevious hNone
  refine ⟨⟨fun _ _ _ => related_append rfl, hDistinct, fun other => ?_, hPrevious⟩, hNone, rfl⟩
  rw [statusOf, (changeStatus_eq_some hItems).2 other, Table.find?_insert hCreated]
  split
  · rfl
  · change Option.map ArchiveItem.status (if other = newId then _ else _) = _
    split <;> rfl

theorem activate_superseding {currentItemId successorItemId actor : String} (hDistinct : currentItemId ≠ successorItemId)
    (h : activate currentItemId successorItemId actor store = some next) :
    Superseding successorItemId currentItemId store next ∧ next.audit = store.audit := by
  obtain ⟨closed, hClosed, h⟩ := Option.bind_eq_some_iff.mp h
  obtain ⟨items, hItems, h⟩ := Option.bind_eq_some_iff.mp h
  obtain rfl := Option.some.inj h
  obtain ⟨⟨current, hCurrent⟩, hStatus⟩ := changeStatus_eq_some hClosed
  refine ⟨⟨fun _ _ _ => related_append rfl, Ne.symm hDistinct, fun other => ?_, ?_⟩, rfl⟩
  · rw [statusOf, (changeStatus_eq_some hItems).2 other, hStatus other]
    by_cases hOld : other = currentItemId
    · subst hOld
      rw [if_neg hDistinct, if_pos rfl, if_pos rfl]
    · rw [if_neg hOld, if_neg hOld]
      rfl
  · rw [statusOf, hCurrent]
    nofun

theorem restoreItem_eq_some (h : restoreItem id store = some next) : next.relationships = store.relationships ∧
    next.audit = store.audit ∧
      ∀ other, statusOf other next = if other = id then some .archived else statusOf other store := by
  obtain ⟨items, hItems, h⟩ := Option.bind_eq_some_iff.mp h
  obtain rfl := Option.some.inj h
  exact ⟨rfl, rfl, (changeStatus_eq_some hItems).2⟩

end Writes

section Steps

variable {store next before after : ArchiveStore} {newId oldId : String}

/-- The converse and the distinct ends, in all runs. -/
structure Paired (store : ArchiveStore) : Prop where
  converse : Converse store
  irreflexive : ∀ id, ¬Supersedes store id id

structure Founded (store : ArchiveStore) : Prop where
  wellFounded : WellFounded (Supersedes store)
  oneSuccessor : ∀ id left right, Supersedes store left id → Supersedes store right id → left = right
  status : ∀ id successor, Supersedes store successor id → statusOf id store = some .superseded

theorem Founded.chains (h : Founded store) : Chains store := by
  refine ⟨fun id hCycle => ?_, h.oneSuccessor, h.status⟩
  exact h.wellFounded.transGen.irrefl.irrefl id hCycle

theorem Superseding.paired (h : Superseding newId oldId store next) (hPaired : Paired store) : Paired next := by
  constructor
  · intro source target
    rw [Supersedes, h.relates, h.relates]
    have hOld := hPaired.converse source target
    constructor
    · rintro (hBefore | ⟨hKind, -⟩ | ⟨-, rfl, rfl⟩)
      · exact .inl (hOld.mp hBefore)
      · cases hKind
      · exact .inr (.inl ⟨rfl, rfl, rfl⟩)
    · rintro (hBefore | ⟨-, rfl, rfl⟩ | ⟨hKind, -⟩)
      · exact .inl (hOld.mpr hBefore)
      · exact .inr (.inr ⟨rfl, rfl, rfl⟩)
      · cases hKind
  · intro id hSelf
    rcases (h.relates _ _ _).mp hSelf with hBefore | ⟨-, hSource, hTarget⟩ | ⟨hKind, -⟩
    · exact hPaired.irreflexive id hBefore
    · exact h.distinct (hSource.symm.trans hTarget)
    · cases hKind

theorem Superseding.founded (h : Superseding newId oldId store next) (hFounded : Founded store)
    (hLast : ∀ id, ¬Supersedes store id newId) (hOnly : ∀ id, Supersedes store id oldId → id = newId) :
    Founded next := by
  have hEdges : ∀ left right, Supersedes next left right →
      Supersedes store left right ∨ left = newId ∧ right = oldId := by
    intro left right hEdge
    rcases (h.relates _ _ _).mp hEdge with hBefore | ⟨-, hEnds⟩ | ⟨hKind, -⟩
    · exact .inl hBefore
    · exact .inr hEnds
    · cases hKind
  refine ⟨wellFounded_insert hFounded.wellFounded hEdges fun hBack => ?_, fun id left right hLeft hRight => ?_,
    fun id successor hEdge => ?_⟩
  · rcases hBack.cases_tail with hSame | ⟨last, -, hInto⟩
    · exact h.distinct hSame
    · exact hLast last hInto
  · rcases hEdges left id hLeft with hOld | ⟨rfl, rfl⟩ <;> rcases hEdges right id hRight with hOld' | ⟨rfl, hId⟩
    · exact hFounded.oneSuccessor id left right hOld hOld'
    · exact hOnly left (hId ▸ hOld)
    · exact (hOnly right hOld').symm
    · rfl
  · rw [h.statuses]
    rcases hEdges successor id hEdge with hOld | ⟨-, rfl⟩
    · have hNe : id ≠ newId := by
        rintro rfl
        exact hLast successor hOld
      rw [if_neg hNe, hFounded.status id successor hOld, ite_self]
    · exact if_pos rfl

/-- Items stay. -/
def Stays (before after : ArchiveStore) : Prop := ∀ id, statusOf id before ≠ none → statusOf id after ≠ none

theorem Superseding.stays (h : Superseding newId oldId store next) : Stays store next := by
  intro id hThere
  rw [h.statuses]
  split
  · nofun
  · split
    · nofun
    · exact hThere

def ArchiveStage.Known (store : ArchiveStore) : ArchiveStage → Prop
  | .registering previous _ _ => statusOf previous.id store ≠ none
  | .creating previous _ _ => statusOf previous.id store ≠ none
  | .activating currentItemId successorItemId _ => currentItemId ≠ successorItemId
  | _ => True

theorem ArchiveStage.Known.later {stage : ArchiveStage} (h : stage.Known before) (hStays : Stays before after) :
    stage.Known after := by
  cases stage with
  | registering => exact hStays _ h
  | creating => exact hStays _ h
  | activating => exact h
  | received => trivial
  | restoring => trivial
  | auditing => trivial
  | ended => trivial

theorem readRequest_known (request : ArchiveRequest) (store : ArchiveStore) : (readRequest request store).Known store := by
  cases request with
  | version previousId input actor =>
    dsimp only [readRequest]
    split
    · trivial
    · trivial
    · cases hFind : store.items.find? previousId with
      | none => trivial
      | some previous =>
        have hThere : statusOf previous.id store ≠ none := by
          rw [statusOf, Table.find?_key hFind, hFind]
          nofun
        exact hThere
  | activateSupersession currentItemId successorItemId actor =>
    dsimp only [readRequest]
    split
    · trivial
    · split
      · trivial
      · next hDistinct =>
        split
        · trivial
        · exact hDistinct
  | restore id actor =>
    dsimp only [readRequest]
    split
    · trivial
    · split
      · trivial
      · split <;> trivial

/-- A section leaves the relation as it is or supersedes one item; the others only touch statuses or the audit. -/
inductive SectionEffect (stage : ArchiveStage) (store next : ArchiveStore) : Prop where
  | same (hRelationships : next.relationships = store.relationships) (hItems : next.items = store.items)
  | created (previous : ArchiveItem) (input : ArchiveItemInput) (actor newId : String)
      (hStage : stage = .creating previous input actor) (hNew : statusOf newId store = none)
      (hSuperseding : Superseding newId previous.id store next)
  | activated (currentItemId successorItemId actor : String)
      (hStage : stage = .activating currentItemId successorItemId actor)
      (hSuperseding : Superseding successorItemId currentItemId store next)
  | restored (id actor : String) (hStage : stage = .restoring id actor)
      (hRelationships : next.relationships = store.relationships)
      (hStatus : ∀ other, statusOf other next = if other = id then some .archived else statusOf other store)

theorem advance_effect (input : ArchiveInput) {stage : ArchiveStage} (hKnown : stage.Known store) :
    SectionEffect stage store (stage.advance input store).2 := by
  cases stage with
  | received request => exact .same rfl rfl
  | registering previous item actor =>
    dsimp only [ArchiveStage.advance]
    split <;> exact .same rfl rfl
  | creating previous item actor =>
    dsimp only [ArchiveStage.advance]
    split
    · next next hCreate _ =>
      obtain ⟨hSuperseding, hNew, -⟩ := createVersion_superseding hKnown hCreate
      refine .created previous item actor input.newId rfl hNew ?_
      exact ⟨hSuperseding.relates, hSuperseding.distinct, hSuperseding.statuses, hSuperseding.found⟩
    · exact .same rfl rfl
    · exact .same rfl rfl
  | activating currentItemId successorItemId actor =>
    dsimp only [ArchiveStage.advance]
    split
    · next next hActivate _ =>
      exact .activated currentItemId successorItemId actor rfl (activate_superseding hKnown hActivate).1
    · exact .same rfl rfl
  | restoring id actor =>
    dsimp only [ArchiveStage.advance]
    split
    · next next hRestore _ =>
      obtain ⟨hRelationships, -, hStatus⟩ := restoreItem_eq_some hRestore
      exact .restored id actor rfl hRelationships hStatus
    · exact .same rfl rfl
  | auditing event reply =>
    dsimp only [ArchiveStage.advance]
    split <;> exact .same rfl rfl
  | ended result => exact .same rfl rfl

theorem advance_known (input : ArchiveInput) {stage : ArchiveStage} (hKnown : stage.Known store) :
    (stage.advance input store).1.Known (stage.advance input store).2 := by
  cases stage with
  | received request => exact readRequest_known request store
  | registering previous item actor =>
    dsimp only [ArchiveStage.advance]
    split
    · trivial
    · exact hKnown
  | creating previous item actor =>
    dsimp only [ArchiveStage.advance]
    split <;> trivial
  | activating currentItemId successorItemId actor =>
    dsimp only [ArchiveStage.advance]
    split <;> trivial
  | restoring id actor =>
    dsimp only [ArchiveStage.advance]
    split <;> trivial
  | auditing event reply =>
    dsimp only [ArchiveStage.advance]
    split <;> trivial
  | ended result => trivial

theorem related_of_eq (h : after.relationships = before.relationships) (kind : RelationshipType) :
    Related kind after = Related kind before := by
  funext source target
  rw [Related, Related, h]

theorem SectionEffect.stays {stage : ArchiveStage} (h : SectionEffect stage store next) : Stays store next := by
  cases h with
  | same hRelationships hItems =>
    intro id hThere
    rw [statusOf, hItems]
    exact hThere
  | created previous input actor newId hStage hNew hSuperseding => exact hSuperseding.stays
  | activated currentItemId successorItemId actor hStage hSuperseding => exact hSuperseding.stays
  | restored id actor hStage hRelationships hStatus =>
    intro other hThere
    rw [hStatus]
    split
    · nofun
    · exact hThere

theorem Paired.of_eq (h : Paired before) (hRelationships : after.relationships = before.relationships) :
    Paired after := by
  constructor
  · intro source target
    rw [Supersedes, related_of_eq hRelationships, related_of_eq hRelationships]
    exact h.converse source target
  · intro id
    rw [Supersedes, related_of_eq hRelationships]
    exact h.irreflexive id

theorem SectionEffect.paired {stage : ArchiveStage} (h : SectionEffect stage store next) (hPaired : Paired store) :
    Paired next := by
  cases h with
  | same hRelationships hItems => exact hPaired.of_eq hRelationships
  | created previous input actor newId hStage hNew hSuperseding => exact hSuperseding.paired hPaired
  | activated currentItemId successorItemId actor hStage hSuperseding => exact hSuperseding.paired hPaired
  | restored id actor hStage hRelationships hStatus => exact hPaired.of_eq hRelationships

theorem Founded.of_eq (h : Founded before) (hRelationships : after.relationships = before.relationships)
    (hStatus : ∀ id successor, Supersedes before successor id → statusOf id after = some .superseded) :
    Founded after := by
  have hSame : Supersedes after = Supersedes before := related_of_eq hRelationships .supersedes
  refine ⟨?_, ?_, ?_⟩
  · rw [hSame]
    exact h.wellFounded
  · rw [hSame]
    exact h.oneSuccessor
  · rw [hSame]
    exact hStatus

theorem noSuccessor_iff {id : String} : NoSuccessor id store ↔ ∀ successor, ¬Supersedes store successor id := by
  constructor
  · rintro h successor ⟨row, hRow, hKind, -, hTarget⟩
    exact h row hRow hKind hTarget
  · intro h row hRow hKind hTarget
    exact h row.sourceItemId ⟨row, hRow, hKind, rfl, hTarget⟩

theorem SectionEffect.founded {crowd : Archives} {index : Nat} {input : ArchiveInput} {call : ArchiveCall}
    (hGuard : ActsOnLast (.advance index input) crowd) (hCall : crowd.calls[index]? = some call)
    (h : SectionEffect call.stage crowd.store next) (hFounded : Founded crowd.store) : Founded next := by
  have hLast := hGuard call hCall
  cases h with
  | same hRelationships hItems =>
    refine hFounded.of_eq hRelationships fun id successor hEdge => ?_
    rw [statusOf, hItems]
    exact hFounded.status id successor hEdge
  | created previous item actor newId hStage hNew hSuperseding =>
    rw [hStage] at hLast
    refine hSuperseding.founded hFounded (fun id hEdge => ?_) fun id hEdge => ?_
    · cases hNew.symm.trans (hFounded.status newId id hEdge)
    · exact absurd hEdge (noSuccessor_iff.mp hLast id)
  | activated currentItemId successorItemId actor hStage hSuperseding =>
    rw [hStage] at hLast
    refine hSuperseding.founded hFounded (noSuccessor_iff.mp hLast.2) ?_
    rintro id ⟨row, hRow, hKind, hSource, hTarget⟩
    exact hSource.symm.trans (hLast.1 row hRow hKind hTarget)
  | restored id actor hStage hRelationships hStatus =>
    rw [hStage] at hLast
    refine hFounded.of_eq hRelationships fun other successor hEdge => ?_
    have hNe : other ≠ id := by
      rintro rfl
      exact noSuccessor_iff.mp hLast successor hEdge
    rw [hStatus, if_neg hNe]
    exact hFounded.status other successor hEdge

end Steps

section Quiet

variable {store : ArchiveStore} {call : ArchiveCall}

/-- The call has not changed anything, as far as it has not come to its writes. -/
def ArchiveCall.Quiet (call : ArchiveCall) : Prop :=
  match call.stage with
  | .received _ => call.changed = false
  | .auditing _ reply => reply ≠ .missing
  | .ended (.ok reply) => reply = .missing → call.changed = false
  | .ended (.error error) => error ≠ .database → call.changed = false
  | _ => True

theorem not_differs (store : ArchiveStore) : store.differs store = false := by
  simp [ArchiveStore.differs]

theorem readRequest_quiet (request : ArchiveRequest) (store : ArchiveStore) :
    ArchiveCall.Quiet ⟨readRequest request store, false⟩ := by
  cases request with
  | version previousId input actor =>
    dsimp only [readRequest]
    split
    · exact fun _ => rfl
    · exact fun _ => rfl
    · split
      · exact fun _ => rfl
      · trivial
  | activateSupersession currentItemId successorItemId actor =>
    dsimp only [readRequest]
    split
    · exact fun _ => rfl
    · split
      · exact fun _ => rfl
      · split
        · exact fun _ => rfl
        · trivial
  | restore id actor =>
    dsimp only [readRequest]
    split
    · exact fun _ => rfl
    · split
      · exact fun _ => rfl
      · split
        · trivial
        · exact fun _ => rfl

theorem advance_quiet (input : ArchiveInput) (h : call.Quiet) : (call.advance input store).1.Quiet := by
  obtain ⟨stage, changed⟩ := call
  cases stage with
  | received request =>
    obtain rfl : changed = false := h
    have hSame : (ArchiveCall.advance input ⟨.received request, false⟩ store).1 = ⟨readRequest request store, false⟩ := by
      simp [ArchiveCall.advance, ArchiveStage.advance, not_differs]
    rw [hSame]
    exact readRequest_quiet request store
  | registering previous item actor =>
    dsimp only [ArchiveCall.advance, ArchiveStage.advance]
    split
    · exact fun hNot => absurd rfl hNot
    · trivial
  | creating previous item actor =>
    dsimp only [ArchiveCall.advance, ArchiveStage.advance]
    split
    · nofun
    · exact fun hNot => absurd rfl hNot
    · exact fun hNot => absurd rfl hNot
  | activating currentItemId successorItemId actor =>
    dsimp only [ArchiveCall.advance, ArchiveStage.advance]
    split
    · nofun
    · exact fun hNot => absurd rfl hNot
  | restoring id actor =>
    dsimp only [ArchiveCall.advance, ArchiveStage.advance]
    split
    · nofun
    · exact fun hNot => absurd rfl hNot
  | auditing event reply =>
    dsimp only [ArchiveCall.advance, ArchiveStage.advance]
    split
    · exact fun hNot => absurd rfl hNot
    · exact fun hMissing => absurd hMissing h
  | ended result =>
    have hSame : (ArchiveCall.advance input ⟨.ended result, changed⟩ store).1 = ⟨.ended result, changed⟩ := by
      simp [ArchiveCall.advance, ArchiveStage.advance, not_differs]
    rw [hSame]
    exact h

end Quiet

section Runs

variable {items : PlainTable ArchiveItem.id} {crowd : Archives} {guard : ArchiveTurn → Archives → Prop}

def startOf (items : PlainTable ArchiveItem.id) : Archives := Crowd.init ⟨items, [], []⟩

theorem addItem_stays (item : ArchiveItem) (store : ArchiveStore) :
    ∀ id status, statusOf id store = some status → statusOf id (addItem item store) = some status := by
  intro id status hStatus
  dsimp only [addItem, statusOf]
  cases hInsert : store.items.insert item with
  | none => exact hStatus
  | some added =>
    have hNew := (Table.insert_eq_some hInsert).1
    have hNe : id ≠ item.id := by
      rintro rfl
      rw [statusOf, hNew] at hStatus
      cases hStatus
    rw [Option.getD_some, Table.find?_insert hInsert, if_neg hNe]
    exact hStatus

theorem addItem_keeps (item : ArchiveItem) (store : ArchiveStore) : Stays store (addItem item store) := by
  intro id hThere
  obtain ⟨status, hStatus⟩ := Option.ne_none_iff_exists'.mp hThere
  rw [addItem_stays item store id status hStatus]
  nofun

theorem run_paired (h : Reaches (Crowd.step archiveRules) guard (startOf items) crowd) :
    Paired crowd.store ∧ ∀ call ∈ crowd.calls, call.stage.Known crowd.store ∧ call.Quiet := by
  refine Crowd.invariant (P := Paired) (Q := fun call store => call.stage.Known store ∧ call.Quiet) (R := Stays) h
    ?_ (fun _ _ _ => ⟨trivial, rfl⟩) ?_ (fun item crowd _ hPaired => ⟨hPaired.of_eq rfl, addItem_keeps item crowd.store⟩)
      fun _ _ _ hStays hKnown => ⟨hKnown.1.later hStays, hKnown.2⟩
  · refine ⟨fun _ _ => ⟨?_, ?_⟩, ?_⟩
    · rintro ⟨row, hRow, -⟩
      cases hRow
    · rintro ⟨row, hRow, -⟩
      cases hRow
    · rintro id ⟨row, hRow, -⟩
      cases hRow
  · intro index input call crowd _ _ hPaired hKnown
    have hEffect := advance_effect input hKnown.1
    exact ⟨hEffect.paired hPaired, hEffect.stays, advance_known input hKnown.1, advance_quiet input hKnown.2⟩

theorem run_founded (h : Reaches (Crowd.step archiveRules) ActsOnLast (startOf items) crowd) :
    Founded crowd.store := by
  have hInvariant := Crowd.invariant (P := Founded) (Q := fun call store => call.stage.Known store) (R := Stays) h
    ?start (fun _ _ _ => trivial) ?advance ?outside fun _ _ _ hStays hKnown => hKnown.later hStays
  · exact hInvariant.1
  case start =>
    have hNone : ∀ left right, ¬Supersedes (⟨items, [], []⟩ : ArchiveStore) left right := by
      rintro left right ⟨row, hRow, -⟩
      cases hRow
    exact ⟨⟨fun id => .intro id fun other hEdge => absurd hEdge (hNone other id)⟩,
      fun id left _ hEdge => absurd hEdge (hNone left id), fun id other hEdge => absurd hEdge (hNone other id)⟩
  case advance =>
    intro index input call crowd hGuard hCall hFounded hKnown
    have hEffect := advance_effect input hKnown
    exact ⟨hEffect.founded hGuard hCall hFounded, hEffect.stays, advance_known input hKnown⟩
  case outside =>
    intro item crowd _ hFounded
    refine ⟨hFounded.of_eq rfl fun id successor hEdge => ?_, addItem_keeps item crowd.store⟩
    exact addItem_stays item crowd.store id _ (hFounded.status id successor hEdge)

/-- In all runs; and in those in which only items without a successor are superseded, activated or restored. -/
theorem archive_supersession (h : Reaches (Crowd.step archiveRules) guard (startOf items) crowd) :
    ArchiveKept crowd ∧ ((∀ turn u, guard turn u → ActsOnLast turn u) → Chains crowd.store) := by
  obtain ⟨hPaired, hCalls⟩ := run_paired h
  refine ⟨⟨hPaired.converse, hPaired.irreflexive, ?_, ?_⟩, fun hGuard => (run_founded (h.mono hGuard)).chains⟩
  · rintro ⟨stage, changed⟩ hCall error hThrew hError
    have hQuiet := (hCalls _ hCall).2
    obtain rfl : stage = .ended (.error error) := hThrew
    exact hQuiet hError
  · rintro ⟨stage, changed⟩ hCall hMissing
    have hQuiet := (hCalls _ hCall).2
    obtain rfl : stage = .ended (.ok .missing) := hMissing
    exact hQuiet rfl

end Runs

section Examples

def archivedItem (id : String) : ArchiveItem := ⟨id, "Boundary", "Services enforce.", "Decision", "S-1", .archived, 1⟩

def threeItems : PlainTable ArchiveItem.id :=
  PlainTable.put (PlainTable.put (PlainTable.put .empty (archivedItem "K-1")) (archivedItem "K-2")) (archivedItem "K-3")

def activateFor (currentItemId successorItemId : String) : ArchiveTurn :=
  .enter (.activateSupersession currentItemId successorItemId "nuru.governance.v1")

def turnOf (index : Nat) : ArchiveTurn := .advance index ⟨"", none⟩

def archivesAfter (turns : List ArchiveTurn) : Archives := runAll (Crowd.step archiveRules) (startOf threeItems) turns

def chainOfThree : List ArchiveTurn :=
  [activateFor "K-1" "K-2", turnOf 0, turnOf 0, turnOf 0, activateFor "K-2" "K-3", turnOf 1, turnOf 1, turnOf 1]

theorem archive_supersession_chain :
    (statusOf "K-1" (archivesAfter chainOfThree).store = some .superseded ∧
      statusOf "K-2" (archivesAfter chainOfThree).store = some .superseded ∧
      statusOf "K-3" (archivesAfter chainOfThree).store = some .archived) ∧
    ArchiveKept (archivesAfter chainOfThree) ∧
      ((∀ turn u, ActsOnLast turn u → ActsOnLast turn u) → Chains (archivesAfter chainOfThree).store) :=
  ⟨by decide +kernel, archive_supersession (GuardedAll.reaches (by decide +kernel))⟩

/-- An item is superseded by another and then supersedes it. -/
def thereAndBack : List ArchiveTurn :=
  [activateFor "K-1" "K-2", turnOf 0, turnOf 0, activateFor "K-2" "K-1", turnOf 1, turnOf 1]

/-- Two supersessions of one item, a restore of it, and an audit that fails after the transaction. -/
def forked : List ArchiveTurn :=
  [activateFor "K-1" "K-2", turnOf 0, turnOf 0, activateFor "K-1" "K-3", turnOf 1, turnOf 1,
    .enter (.restore "K-1" "nuru.governance.v1"), turnOf 2, turnOf 2, .advance 1 ⟨"", some .write⟩]

theorem archive_supersession_fails :
    Supersedes (archivesAfter thereAndBack).store "K-2" "K-1" ∧
    Supersedes (archivesAfter thereAndBack).store "K-1" "K-2" ∧
    Supersedes (archivesAfter forked).store "K-2" "K-1" ∧ Supersedes (archivesAfter forked).store "K-3" "K-1" ∧
    statusOf "K-1" (archivesAfter forked).store = some .archived ∧
    (archivesAfter forked).calls[1]? = some ⟨failed .database, true⟩ ∧
    ¬ ∀ items crowd, Reaches (Crowd.step archiveRules) (fun _ _ => True) (startOf items) crowd →
      ArchiveForest crowd := by
  have hThere : Supersedes (archivesAfter thereAndBack).store "K-2" "K-1" := by
    unfold Supersedes Related
    decide +kernel
  have hBack : Supersedes (archivesAfter thereAndBack).store "K-1" "K-2" := by
    unfold Supersedes Related
    decide +kernel
  have hLeft : Supersedes (archivesAfter forked).store "K-2" "K-1" := by
    unfold Supersedes Related
    decide +kernel
  have hRight : Supersedes (archivesAfter forked).store "K-3" "K-1" := by
    unfold Supersedes Related
    decide +kernel
  refine ⟨hThere, hBack, hLeft, hRight, by decide +kernel, by decide +kernel, fun h => ?_⟩
  have hForest := h threeItems _ (reaches_runAll (Crowd.step archiveRules) (startOf threeItems) thereAndBack)
  exact hForest.chains.acyclic "K-1" (.tail (.single hBack) hThere)

end Examples

end CommandConsole.Archive
