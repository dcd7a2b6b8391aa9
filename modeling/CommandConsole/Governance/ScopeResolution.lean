import CommandConsole.Governance.Admission
import CommandConsole.Library.Ascent
import Mathlib.Data.List.Sort

/-! # Resolution of knowledge along the scopes

A scope sees its own entries and the inheritable ones of the scopes above it. What an entry
overrides is left out in the scope of the entry, and only there.
-/
namespace CommandConsole.Governance
open Library
open Execution (truthy)
set_option autoImplicit false

section Resolution

structure KnowledgeRecord extends AdmittedEntry where
  createdAt : String
  updatedAt : String
  deriving DecidableEq

structure ScopeKnowledgeStore where
  scopes : List KnowledgeScope
  records : List KnowledgeRecord

/-- `new Map(store.scopes.map((scope) => [scope.id, scope])).get(id)`. -/
def ScopeKnowledgeStore.byId (store : ScopeKnowledgeStore) (id : String) : Option KnowledgeScope :=
  store.scopes.reverse.find? fun scope => scope.id = id

/-- The loop, or none where its rounds run out. -/
def ancestorLoop (store : ScopeKnowledgeStore) :
    Nat → Option KnowledgeScope → List String → List KnowledgeScope → Option (List KnowledgeScope)
  | 0, _, _, _ => none
  | _ + 1, none, _, chain => some chain
  | rounds + 1, some current, visited, chain =>
    match truthy current.parentId with
    | none => some chain
    | some parentId =>
      if current.id ∈ visited then some chain
      else
        match store.byId parentId with
        | none => some chain
        | some parent => ancestorLoop store rounds (some parent) (current.id :: visited) (parent :: chain)

def getAncestorScopes (store : ScopeKnowledgeStore) (scopeId : String) : List KnowledgeScope :=
  (ancestorLoop store (store.scopes.length + 1) (store.byId scopeId) [] []).getD []

inductive KnowledgeOrigin where
  | inherited
  | own
  deriving DecidableEq

structure ResolvedKnowledgeRecord where
  record : KnowledgeRecord
  origin : KnowledgeOrigin
  inheritedFromScopeId : Option String
  deriving DecidableEq

def ownRecords (store : ScopeKnowledgeStore) (scopeId : String) : List KnowledgeRecord :=
  store.records.filter fun record => record.scopeId = scopeId ∧ record.supersededAt = none

def overrides (records : List KnowledgeRecord) : List String := records.filterMap fun record => truthy record.overrideOfId

def inheritedRecords (store : ScopeKnowledgeStore) (scopeId : String) : List KnowledgeRecord :=
  let ancestors := (getAncestorScopes store scopeId).map KnowledgeScope.id
  store.records.filter fun record => record.scopeId ∈ ancestors ∧ record.inheritable = true ∧
    record.supersededAt = none ∧ record.id ∉ overrides (ownRecords store scopeId)

/-- None where the scope is not found. -/
def resolveKnowledge (localeCompare : String → String → Int) (store : ScopeKnowledgeStore) (scopeId : String) :
    Option (List ResolvedKnowledgeRecord) :=
  if store.scopes.any fun scope => scope.id = scopeId then
    let inherited := (inheritedRecords store scopeId).map fun record =>
      (⟨record, .inherited, some record.scopeId⟩ : ResolvedKnowledgeRecord)
    let own := (ownRecords store scopeId).map fun record => (⟨record, .own, none⟩ : ResolvedKnowledgeRecord)
    some ((inherited ++ own).insertionSort fun a b => localeCompare b.record.updatedAt a.record.updatedAt ≤ 0)
  else none

end Resolution

section Ancestors

variable {store : ScopeKnowledgeStore}

/-- The id of the scope that a scope names as its parent. -/
def ScopeKnowledgeStore.parentOf (store : ScopeKnowledgeStore) (id : String) : Option String :=
  (store.byId id).bind fun scope => ((truthy scope.parentId).bind store.byId).map KnowledgeScope.id

theorem byId_id {id : String} {scope : KnowledgeScope} (h : store.byId id = some scope) : scope.id = id := by
  have hFound := List.find?_some h
  exact of_decide_eq_true hFound

theorem byId_mem {id : String} {scope : KnowledgeScope} (h : store.byId id = some scope) :
    id ∈ store.scopes.map KnowledgeScope.id :=
  List.mem_map.mpr ⟨scope, List.mem_reverse.mp (List.mem_of_find?_eq_some h), byId_id h⟩

theorem parentOf_byId {id parentId : String} (h : store.parentOf id = some parentId) :
    (∃ scope, store.byId id = some scope) ∧ ∃ parent, store.byId parentId = some parent := by
  obtain ⟨scope, hScope, hParent⟩ := Option.bind_eq_some_iff.mp h
  obtain ⟨parent, hFound, rfl⟩ := Option.map_eq_some_iff.mp hParent
  obtain ⟨named, -, hFound⟩ := Option.bind_eq_some_iff.mp hFound
  exact ⟨⟨scope, hScope⟩, parent, (byId_id hFound).symm ▸ hFound⟩

theorem ancestorLoop_eq {scope : KnowledgeScope} (rounds : Nat) (visited : List String) (chain : List KnowledgeScope)
    (h : store.byId scope.id = some scope) : ancestorLoop store rounds (some scope) visited chain =
      (climb store.parentOf rounds scope.id visited).map fun path => (path.filterMap store.byId).reverse ++ chain := by
  induction rounds generalizing scope visited chain with
  | zero => rfl
  | succ rounds ih =>
    have hParent : store.parentOf scope.id = ((truthy scope.parentId).bind store.byId).map KnowledgeScope.id := by
      rw [ScopeKnowledgeStore.parentOf, h, Option.bind_some]
    rw [ancestorLoop, climb, hParent]
    cases hNamed : truthy scope.parentId with
    | none =>
      dsimp only [Option.bind_none, Option.map_none]
      split <;> rfl
    | some parentId =>
      dsimp only
      split
      · rfl
      · rw [Option.bind_some]
        cases hFound : store.byId parentId with
        | none => rfl
        | some parent =>
          have hSelf : store.byId parent.id = some parent := (byId_id hFound).symm ▸ hFound
          dsimp only [Option.map_some]
          rw [ih (scope.id :: visited) (parent :: chain) hSelf, Option.map_map]
          congr 1
          funext path
          rw [Function.comp_apply, List.filterMap_cons_some hSelf, List.reverse_cons, List.append_assoc,
            List.singleton_append]

/-- The ancestors are the scopes of a climb, from the farthest on, and the loop ends. -/
theorem getAncestorScopes_climbed (store : ScopeKnowledgeStore) (scopeId : String) : ∃ path,
    Climbed store.parentOf [] scopeId path ∧
      (getAncestorScopes store scopeId).map KnowledgeScope.id = path.reverse ∧
        ∀ rounds, store.scopes.length < rounds →
          ancestorLoop store rounds (store.byId scopeId) [] [] = some (getAncestorScopes store scopeId) := by
  have hNodes : ∀ a b, store.parentOf a = some b → a ∈ store.scopes.map KnowledgeScope.id := by
    intro a b hParent
    obtain ⟨⟨scope, hScope⟩, -⟩ := parentOf_byId hParent
    exact byId_mem hScope
  have hEnds : ∃ path, climb store.parentOf (store.scopes.length + 1) scopeId [] = some path := by
    refine climb_total _ hNodes (Nat.lt_succ_of_le ?_)
    have hFilter := List.length_filter_le (fun id => decide (id ∉ ([] : List String)))
      (store.scopes.map KnowledgeScope.id)
    rwa [List.length_map] at hFilter
  obtain ⟨path, hPath⟩ := hEnds
  have hClimbed := climb_climbed hPath
  have hIds : (path.filterMap store.byId).map KnowledgeScope.id = path := by
    have hFound : ∀ id ∈ path, (store.byId id).map KnowledgeScope.id = some id := by
      intro id hMem
      obtain ⟨u, -, hParent⟩ := Relation.TransGen.tail'_iff.mp (hClimbed.mem_iff.mp hMem)
      obtain ⟨-, scope, hScope⟩ := parentOf_byId hParent
      rw [hScope, Option.map_some, byId_id hScope]
    rw [List.map_filterMap]
    exact (List.filterMap_congr hFound).trans List.filterMap_some
  have hLoop : ∀ rounds, store.scopes.length < rounds →
      ancestorLoop store rounds (store.byId scopeId) [] [] = some (path.filterMap store.byId).reverse := by
    intro rounds hRounds
    have hMore := climb_mono hPath hRounds
    cases hScope : store.byId scopeId with
    | none =>
      obtain ⟨rounds, rfl⟩ : ∃ n, rounds = n + 1 := ⟨rounds - 1, by omega⟩
      have hNone : store.parentOf scopeId = none := by
        rw [ScopeKnowledgeStore.parentOf, hScope, Option.bind_none]
      rw [climb, if_neg List.not_mem_nil, hNone] at hMore
      obtain rfl := Option.some.inj hMore
      rfl
    | some scope =>
      obtain rfl := byId_id hScope
      rw [ancestorLoop_eq rounds [] [] hScope, hMore, Option.map_some, List.append_nil]
  have hScopes : getAncestorScopes store scopeId = (path.filterMap store.byId).reverse := by
    rw [getAncestorScopes, hLoop _ (Nat.lt_succ_self _), Option.getD_some]
  refine ⟨path, hClimbed, ?_, fun rounds hRounds => ?_⟩
  · rw [hScopes, List.map_reverse, hIds]
  · rw [hScopes, hLoop rounds hRounds]

theorem mem_ancestors_iff {scopeId id : String} :
    id ∈ (getAncestorScopes store scopeId).map KnowledgeScope.id ↔ Above store.parentOf scopeId id := by
  obtain ⟨path, hClimbed, hIds, -⟩ := getAncestorScopes_climbed store scopeId
  rw [hIds, List.mem_reverse, hClimbed.mem_iff]

/-- Whether an ancestor is listed twice. -/
theorem nodup_ancestors_iff {scopeId : String} : ((getAncestorScopes store scopeId).map KnowledgeScope.id).Nodup ↔
    ∀ id, Above store.parentOf scopeId id → Above store.parentOf id id → Above store.parentOf scopeId scopeId := by
  obtain ⟨path, hClimbed, hIds, -⟩ := getAncestorScopes_climbed store scopeId
  rw [hIds, List.nodup_reverse, hClimbed.nodup_iff]

end Ancestors

section Law

variable {store : ScopeKnowledgeStore} {localeCompare : String → String → Int} {scopeId parentId : String}

/-- An entry of the scope that is not superseded overrides the id. -/
def Overridden (store : ScopeKnowledgeStore) (scopeId id : String) : Prop :=
  ∃ record ∈ store.records, record.scopeId = scopeId ∧ record.supersededAt = none ∧ truthy record.overrideOfId = some id

/-- The inherited part of what is resolved. -/
def inheritedPart (resolved : List ResolvedKnowledgeRecord) : List KnowledgeRecord :=
  (resolved.filter fun entry => entry.origin = .inherited).map ResolvedKnowledgeRecord.record

theorem mem_overrides_iff {id : String} : id ∈ overrides (ownRecords store scopeId) ↔ Overridden store scopeId id := by
  simp only [overrides, ownRecords, List.mem_filterMap, List.mem_filter, decide_eq_true_eq, Overridden, and_assoc]

theorem mem_ownRecords_iff {record : KnowledgeRecord} : record ∈ ownRecords store scopeId ↔
    record ∈ store.records ∧ record.scopeId = scopeId ∧ record.supersededAt = none := by
  rw [ownRecords, List.mem_filter, decide_eq_true_eq]

theorem mem_inheritedRecords_iff {record : KnowledgeRecord} : record ∈ inheritedRecords store scopeId ↔
    record ∈ store.records ∧ Above store.parentOf scopeId record.scopeId ∧ record.inheritable = true ∧
      record.supersededAt = none ∧ ¬Overridden store scopeId record.id := by
  rw [inheritedRecords, List.mem_filter, decide_eq_true_eq, mem_ancestors_iff, mem_overrides_iff]

/-- What is resolved, up to its order. -/
theorem resolveKnowledge_perm {resolved : List ResolvedKnowledgeRecord}
    (h : resolveKnowledge localeCompare store scopeId = some resolved) : resolved.Perm
      (((inheritedRecords store scopeId).map fun record => ⟨record, .inherited, some record.scopeId⟩) ++
        (ownRecords store scopeId).map fun record => ⟨record, .own, none⟩) := by
  unfold resolveKnowledge at h
  split at h
  · obtain rfl := Option.some.inj h
    exact List.perm_insertionSort _ _
  · cases h

theorem resolveKnowledge_isSome (localeCompare : String → String → Int) (h : ∃ scope, store.byId scopeId = some scope) :
    ∃ resolved, resolveKnowledge localeCompare store scopeId = some resolved := by
  obtain ⟨scope, hScope⟩ := h
  have hAny : (store.scopes.any fun scope => scope.id = scopeId) = true :=
    List.any_eq_true.mpr ⟨scope, List.mem_reverse.mp (List.mem_of_find?_eq_some hScope), decide_eq_true (byId_id hScope)⟩
  rw [resolveKnowledge, if_pos hAny]
  exact ⟨_, rfl⟩

theorem mem_inheritedPart_iff {resolved : List ResolvedKnowledgeRecord} {record : KnowledgeRecord}
    (h : resolveKnowledge localeCompare store scopeId = some resolved) :
    record ∈ inheritedPart resolved ↔ record ∈ inheritedRecords store scopeId := by
  rw [inheritedPart, (((resolveKnowledge_perm h).filter _).map _).mem_iff]
  simp only [List.filter_append, List.filter_map, List.map_map, Function.comp_def, decide_true,
    List.filter_true, reduceCtorEq, decide_false, List.filter_false, List.map_nil, List.append_nil, List.map_id']

theorem mem_resolved_iff {resolved : List ResolvedKnowledgeRecord} {record : KnowledgeRecord}
    (h : resolveKnowledge localeCompare store scopeId = some resolved) :
    record ∈ resolved.map ResolvedKnowledgeRecord.record ↔
      record ∈ inheritedRecords store scopeId ∨ record ∈ ownRecords store scopeId := by
  rw [((resolveKnowledge_perm h).map _).mem_iff]
  simp only [List.map_append, List.map_map, Function.comp_def, List.map_id', List.mem_append]

/-- Every entry that the parent's own entries hide from what they inherit, the scope hides too. -/
def OverridesKept (store : ScopeKnowledgeStore) (scopeId parentId : String) : Prop :=
  ∀ record ∈ store.records, record.supersededAt = none → record.inheritable = true →
    Above store.parentOf parentId record.scopeId → Overridden store parentId record.id →
      Overridden store scopeId record.id

theorem inherits_iff (hParent : store.parentOf scopeId = some parentId) (hAcyclic : AcyclicAbove store.parentOf scopeId) :
    (∀ record, record ∈ inheritedRecords store scopeId ↔
      ((record ∈ inheritedRecords store parentId ∨ record ∈ ownRecords store parentId) ∧ record.inheritable = true) ∧
        ¬Overridden store scopeId record.id) ↔ OverridesKept store scopeId parentId := by
  have hSelf : ¬Above store.parentOf parentId parentId := hAcyclic.2 parentId (.single hParent)
  have hAbove : ∀ id, Above store.parentOf scopeId id ↔ id = parentId ∨ Above store.parentOf parentId id :=
    fun id => above_iff_of_parent hParent
  simp only [mem_inheritedRecords_iff, mem_ownRecords_iff, hAbove]
  constructor
  · intro hLaw record hRecord hLive hInheritable hHigher hHidden
    by_contra hOpen
    obtain ⟨⟨hSeen, -⟩, -⟩ := (hLaw record).mp ⟨hRecord, .inr hHigher, hInheritable, hLive, hOpen⟩
    rcases hSeen with ⟨-, -, -, -, hShown⟩ | ⟨-, hOwn, -⟩
    · exact hShown hHidden
    · exact hSelf (hOwn ▸ hHigher)
  · intro hKept record
    constructor
    · rintro ⟨hRecord, hWhere, hInheritable, hLive, hOpen⟩
      refine ⟨⟨?_, hInheritable⟩, hOpen⟩
      rcases hWhere with hOwn | hHigher
      · exact .inr ⟨hRecord, hOwn, hLive⟩
      · exact .inl ⟨hRecord, hHigher, hInheritable, hLive, fun hHidden =>
          hOpen (hKept record hRecord hLive hInheritable hHigher hHidden)⟩
    · rintro ⟨⟨⟨hRecord, hHigher, -, hLive, -⟩ | ⟨hRecord, hOwn, hLive⟩, hInheritable⟩, hOpen⟩
      · exact ⟨hRecord, .inr hHigher, hInheritable, hLive, hOpen⟩
      · exact ⟨hRecord, .inl hOwn, hInheritable, hLive, hOpen⟩

theorem filter_append_subperm {α : Type} {p q : α → Bool} (items : List α) (h : ∀ a, q a = true → p a = false) :
    (items.filter p ++ items.filter q).Subperm items := by
  have hRest : (items.filter q).Sublist (items.filter fun a => !p a) :=
    List.monotone_filter_right items fun a ha => by rw [h a ha, Bool.not_false]
  exact ((List.Sublist.refl _).append hRest).subperm.trans (List.filter_append_perm p items).subperm

/-- Where the scope is not above itself, no entry is resolved more often than it is stored. -/
theorem resolved_subperm (hSelf : ¬Above store.parentOf scopeId scopeId) {resolved : List ResolvedKnowledgeRecord}
    (h : resolveKnowledge localeCompare store scopeId = some resolved) :
    (resolved.map ResolvedKnowledgeRecord.record).Subperm store.records := by
  have hPerm := (resolveKnowledge_perm h).map ResolvedKnowledgeRecord.record
  simp only [List.map_append, List.map_map, Function.comp_def, List.map_id'] at hPerm
  refine hPerm.subperm.trans (filter_append_subperm store.records fun record hOwn => ?_)
  rw [decide_eq_true_eq] at hOwn
  rw [decide_eq_false_iff_not, mem_ancestors_iff, hOwn.1]
  exact fun hInherited => hSelf hInherited.1

theorem resolved_live {resolved : List ResolvedKnowledgeRecord}
    (h : resolveKnowledge localeCompare store scopeId = some resolved) :
    ∀ entry ∈ resolved, entry.record.supersededAt = none := by
  intro entry hEntry
  rcases (mem_resolved_iff h).mp (List.mem_map_of_mem hEntry) with hInherited | hOwn
  · exact (mem_inheritedRecords_iff.mp hInherited).2.2.2.1
  · exact (mem_ownRecords_iff.mp hOwn).2.2

/-- The inherited part of a scope follows from what its parent resolves exactly where the parent overrides
nothing that it would inherit and its child does not override as well; no entry comes twice or is superseded;
the ancestors are found for every store, and none is listed twice exactly where the chain of parents does
not run into a cycle past its start. -/
theorem knowledge_composes (localeCompare : String → String → Int) (store : ScopeKnowledgeStore) (scopeId : String) :
    (∀ parentId, store.parentOf scopeId = some parentId → AcyclicAbove store.parentOf scopeId →
      ∃ resolved above, resolveKnowledge localeCompare store scopeId = some resolved ∧
        resolveKnowledge localeCompare store parentId = some above ∧
        ((∀ record, record ∈ inheritedPart resolved ↔
          (record ∈ above.map ResolvedKnowledgeRecord.record ∧ record.inheritable = true) ∧
            ¬Overridden store scopeId record.id) ↔ OverridesKept store scopeId parentId)) ∧
    (AcyclicAbove store.parentOf scopeId → ∀ resolved, resolveKnowledge localeCompare store scopeId = some resolved →
      (resolved.map ResolvedKnowledgeRecord.record).Subperm store.records ∧
        ∀ entry ∈ resolved, entry.record.supersededAt = none) ∧
    (∀ rounds, store.scopes.length < rounds →
      ancestorLoop store rounds (store.byId scopeId) [] [] = some (getAncestorScopes store scopeId)) ∧
    (((getAncestorScopes store scopeId).map KnowledgeScope.id).Nodup ↔
      ∀ id, Above store.parentOf scopeId id → Above store.parentOf id id → Above store.parentOf scopeId scopeId) := by
  refine ⟨fun parentId hParent hAcyclic => ?_, fun hAcyclic resolved hResolved => ?_, ?_, nodup_ancestors_iff⟩
  · obtain ⟨hScope, hAbove⟩ := parentOf_byId hParent
    obtain ⟨resolved, hResolved⟩ := resolveKnowledge_isSome localeCompare hScope
    obtain ⟨above, hOver⟩ := resolveKnowledge_isSome localeCompare hAbove
    refine ⟨resolved, above, hResolved, hOver, ?_⟩
    rw [← inherits_iff hParent hAcyclic]
    exact forall_congr' fun record => by rw [mem_inheritedPart_iff hResolved, mem_resolved_iff hOver]
  · exact ⟨resolved_subperm hAcyclic.1 hResolved, resolved_live hResolved⟩
  · exact (getAncestorScopes_climbed store scopeId).choose_spec.2.2

def scopeBelow (id : String) (kind : ScopeKind) (parentId : Option String) : KnowledgeScope := ⟨id, kind, parentId⟩

def entryAt (id scopeId : String) (overrideOfId : Option String) : KnowledgeRecord :=
  ⟨⟨⟨id, scopeId, "Title", "Content", "key", "value", true, none, none, "user"⟩, overrideOfId, none, none⟩,
    "2026-08-23T00:00:00.000Z", "2026-08-23T00:00:00.000Z"⟩

/-- A global entry that is overridden in the program above a project. -/
def overriddenStore : ScopeKnowledgeStore where
  scopes := [scopeBelow "global" .global none, scopeBelow "program" .program (some "global"),
    scopeBelow "project" .project (some "program")]
  records := [entryAt "entry" "global" none, entryAt "override" "program" (some "entry")]

/-- A project below a program and a component that name each other as parents. -/
def loopingStore : ScopeKnowledgeStore where
  scopes := [scopeBelow "program" .program (some "component"), scopeBelow "component" .component (some "program"),
    scopeBelow "project" .project (some "program")]
  records := []

def sameTime : String → String → Int := fun _ _ => 0

theorem overriddenStore_acyclic (scopeId : String) (path : List String)
    (hClimb : climb overriddenStore.parentOf 4 scopeId [] = some path)
    (hEnds : overriddenStore.parentOf ((scopeId :: path).getLast (List.cons_ne_nil scopeId path)) = none) :
    AcyclicAbove overriddenStore.parentOf scopeId := (climb_climbed hClimb).acyclicAbove hEnds

/-- One level below the entry, the law holds. -/
theorem knowledge_composes_program : ∃ resolved above,
    resolveKnowledge sameTime overriddenStore "program" = some resolved ∧
      resolveKnowledge sameTime overriddenStore "global" = some above ∧
      ((∀ record, record ∈ inheritedPart resolved ↔
        (record ∈ above.map ResolvedKnowledgeRecord.record ∧ record.inheritable = true) ∧
          ¬Overridden overriddenStore "program" record.id) ↔ OverridesKept overriddenStore "program" "global") :=
  (knowledge_composes sameTime overriddenStore "program").1 "global" (by decide +kernel)
    (overriddenStore_acyclic "program" ["global"] (by decide +kernel) (by decide +kernel))

/-- Two levels below, the project sees the entry that its program does not; and a loop of parents is
listed with one scope twice. -/
theorem overridden_entry_reappears :
    (resolveKnowledge sameTime overriddenStore "program").map (fun resolved => resolved.map fun entry =>
        entry.record.id) = some ["override"] ∧
      (resolveKnowledge sameTime overriddenStore "project").map (fun resolved => (inheritedPart resolved).map fun record =>
        record.id) = some ["entry", "override"] ∧
      AcyclicAbove overriddenStore.parentOf "project" ∧ overriddenStore.parentOf "project" = some "program" ∧
      (getAncestorScopes loopingStore "project").map KnowledgeScope.id = ["program", "component", "program"] := by
  refine ⟨by decide +kernel, by decide +kernel, ?_, by decide +kernel, by decide +kernel⟩
  exact overriddenStore_acyclic "project" ["program", "global"] (by decide +kernel) (by decide +kernel)

end Law

end CommandConsole.Governance
