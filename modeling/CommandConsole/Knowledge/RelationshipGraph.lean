import CommandConsole.Library.Walks

/-! # Traversal of the relationship graph

A traversal asks the database, level by level, for the relationships that touch the items of the last
level, and goes on to the items at their other ends.
-/
namespace CommandConsole.Knowledge
open Library
set_option autoImplicit false

section Queries

structure Relationship where
  id : String
  sourceItemId : String
  targetItemId : String
  relationshipType : String
  confidence : Rat
  evidence : String
  proposedBy : String
  status : String
  createdAt : Int
  deriving DecidableEq

/-- The rows of the table, with its primary key. -/
structure RelationshipTable where
  rows : List Relationship
  distinct : (rows.map Relationship.id).Nodup

def relationshipTypes : List String :=
  ["RELATED_TO", "DEPENDS_ON", "IMPLEMENTS", "DERIVED_FROM", "SUPERSEDES", "SUPERSEDED_BY", "CONTRADICTS", "SUPPORTS",
    "REFINES", "EXTENDS", "EXPANDS", "EXAMPLE_OF", "PART_OF", "REFERENCES", "DEFINES_BOUNDARY"]

structure RawTraversal where
  itemId : String
  depth : Option Int
  relationshipTypes : Option (List String)
  includeProposed : Option Bool

structure GraphTraversal where
  itemId : String
  depth : Nat
  relationshipTypes : Option (List String)
  includeProposed : Bool
  deriving DecidableEq

/-- `graphTraversalSchema.parse`, none where it throws. -/
def parseTraversal (raw : RawTraversal) : Option GraphTraversal :=
  let depth := raw.depth.getD 1
  let types := raw.relationshipTypes.getD []
  if raw.itemId ≠ "" ∧ 1 ≤ depth ∧ depth ≤ 4 ∧ types.length ≤ 20 ∧ ∀ name ∈ types, name ∈ Knowledge.relationshipTypes then
    some ⟨raw.itemId, depth.toNat, raw.relationshipTypes, raw.includeProposed.getD false⟩
  else none

/-- What the query asks of a relationship, its ends aside. -/
def GraphTraversal.selects (query : GraphTraversal) (edge : Relationship) : Bool :=
  (match query.relationshipTypes with
    | none => true
    | some types => types.contains edge.relationshipType) &&
  (query.includeProposed || edge.status == "APPROVED")

/-- The order in which the database answers the query of a level. -/
structure RowOrder where
  arrange : Nat → List Relationship → List Relationship
  perm : ∀ level rows, (arrange level rows).Perm rows

def RowOrder.stored : RowOrder := ⟨fun _ rows => rows, fun _ rows => .refl rows⟩

end Queries

section Traversal

structure Visit where
  seen : List String
  next : List String
  deriving DecidableEq

def neighbor (frontier : List String) (edge : Relationship) : String :=
  if frontier.contains edge.sourceItemId then edge.targetItemId else edge.sourceItemId

def Visit.follow (frontier : List String) (visit : Visit) (edge : Relationship) : Visit :=
  if visit.seen.contains (neighbor frontier edge) then visit
  else ⟨visit.seen ++ [neighbor frontier edge], visit.next ++ [neighbor frontier edge]⟩

structure GraphView where
  rootItemId : String
  nodes : List String
  edges : List Relationship
  deriving DecidableEq

variable (order : RowOrder) (table : RelationshipTable) (query : GraphTraversal)

def findMany (level : Nat) (frontier : List String) : List Relationship :=
  order.arrange level <| table.rows.filter fun edge =>
    (frontier.contains edge.sourceItemId || frontier.contains edge.targetItemId) && query.selects edge

/-- The loop over the levels that remain. -/
def levels : Nat → Nat → List String → List Relationship → List String → List String × List Relationship
  | 0, _, seen, edges, _ => (seen, edges)
  | remaining + 1, level, seen, edges, frontier =>
    if frontier = [] then (seen, edges)
    else
      let found := findMany order table query level frontier
      let visit := found.foldl (Visit.follow frontier) ⟨seen, []⟩
      levels remaining (level + 1) visit.seen (edges ++ found) visit.next

def traverse (raw : RawTraversal) : Option GraphView := do
  let query ← parseTraversal raw
  let (nodes, edges) := levels order table query query.depth 0 [query.itemId] [] [query.itemId]
  return ⟨query.itemId, nodes, edges⟩

end Traversal

section Levels

variable {order : RowOrder} {table : RelationshipTable} {query : GraphTraversal}

def Selected (table : RelationshipTable) (query : GraphTraversal) (edge : Relationship) : Prop :=
  edge ∈ table.rows ∧ query.selects edge = true

/-- A selected relationship joins the items, in either direction. -/
def Adjacent (table : RelationshipTable) (query : GraphTraversal) (v w : String) : Prop :=
  ∃ edge, Selected table query edge ∧
    (edge.sourceItemId = v ∧ edge.targetItemId = w ∨ edge.sourceItemId = w ∧ edge.targetItemId = v)

def EndAt (P : String → Prop) (edge : Relationship) : Prop := P edge.sourceItemId ∨ P edge.targetItemId

theorem mem_findMany {level : Nat} {frontier : List String} {edge : Relationship} :
    edge ∈ findMany order table query level frontier ↔ Selected table query edge ∧ EndAt (· ∈ frontier) edge := by
  rw [findMany, (order.perm level _).mem_iff, List.mem_filter, Selected, EndAt]
  simp only [Bool.and_eq_true, Bool.or_eq_true, List.contains_iff_mem]
  tauto

theorem rows_nodup (table : RelationshipTable) : table.rows.Nodup := List.Nodup.of_map _ table.distinct

theorem findMany_nodup (level : Nat) (frontier : List String) : (findMany order table query level frontier).Nodup :=
  (order.perm level _).nodup_iff.mpr ((rows_nodup table).filter _)

theorem foldl_follow (frontier : List String) (found : List Relationship) (seen next : List String) :
    ∃ more, (found.foldl (Visit.follow frontier) ⟨seen, next⟩) = ⟨seen ++ more, next ++ more⟩ ∧ more.Nodup ∧
      ∀ w, w ∈ more ↔ (∃ edge ∈ found, neighbor frontier edge = w) ∧ w ∉ seen := by
  induction found generalizing seen next with
  | nil => exact ⟨[], by simp, List.nodup_nil, by simp⟩
  | cons edge found ih =>
    rw [List.foldl_cons, Visit.follow]
    by_cases hSeen : neighbor frontier edge ∈ seen
    · rw [if_pos (List.contains_iff_mem.mpr hSeen)]
      obtain ⟨more, hFold, hNodup, hMore⟩ := ih seen next
      refine ⟨more, hFold, hNodup, fun w => ?_⟩
      rw [hMore, List.exists_mem_cons_iff]
      refine and_congr_left fun hNew => ⟨.inr, ?_⟩
      rintro (rfl | hFound)
      · exact absurd hSeen hNew
      · exact hFound
    · rw [if_neg (by simpa using hSeen)]
      obtain ⟨more, hFold, hNodup, hMore⟩ := ih (seen ++ [neighbor frontier edge]) (next ++ [neighbor frontier edge])
      refine ⟨neighbor frontier edge :: more, ?_, List.nodup_cons.mpr ⟨?_, hNodup⟩, fun w => ?_⟩
      · rw [hFold, List.append_assoc, List.append_assoc]
        rfl
      · rw [hMore]
        exact fun h => h.2 (List.mem_append_right _ List.mem_cons_self)
      · rw [List.mem_cons, hMore, List.mem_append, List.mem_singleton, List.exists_mem_cons_iff]
        constructor
        · rintro (rfl | ⟨hFound, hNew⟩)
          · exact ⟨.inl rfl, hSeen⟩
          · exact ⟨.inr hFound, fun h => hNew (.inl h)⟩
        · rintro ⟨rfl | hFound, hNew⟩
          · exact .inl rfl
          · by_cases hSame : w = neighbor frontier edge
            · exact .inl hSame
            · exact .inr ⟨hFound, fun h => h.elim hNew hSame⟩

/-- The new ends of the relationships found are the new neighbours of the level. -/
theorem neighbor_iff {level : Nat} {seen frontier : List String} (hSeen : ∀ v ∈ frontier, v ∈ seen) (w : String) :
    (∃ edge ∈ findMany order table query level frontier, neighbor frontier edge = w) ∧ w ∉ seen ↔
      (∃ v ∈ frontier, Adjacent table query v w) ∧ w ∉ seen := by
  refine and_congr_left fun hNew => ?_
  constructor
  · rintro ⟨edge, hFound, hEnd⟩
    obtain ⟨hSelected, hTouch⟩ := mem_findMany.mp hFound
    unfold neighbor at hEnd
    split at hEnd
    · rename_i hSource
      exact ⟨_, List.contains_iff_mem.mp hSource, edge, hSelected, .inl ⟨rfl, hEnd⟩⟩
    · rename_i hSource
      have hTarget := hTouch.resolve_left fun h => hSource (List.contains_iff_mem.mpr h)
      exact ⟨_, hTarget, edge, hSelected, .inr ⟨hEnd, rfl⟩⟩
  · rintro ⟨v, hv, edge, hSelected, ⟨rfl, rfl⟩ | ⟨rfl, rfl⟩⟩
    · refine ⟨edge, mem_findMany.mpr ⟨hSelected, .inl hv⟩, ?_⟩
      rw [neighbor, if_pos (List.contains_iff_mem.mpr hv)]
    · refine ⟨edge, mem_findMany.mpr ⟨hSelected, .inr hv⟩, ?_⟩
      rw [neighbor, if_neg fun h => hNew (hSeen _ (List.contains_iff_mem.mp h))]

theorem Level.follow (order : RowOrder) {level : Nat} {root : String} {seen frontier : List String}
    (h : Level (Adjacent table query) root level seen frontier) :
    let visit := (findMany order table query level frontier).foldl (Visit.follow frontier) ⟨seen, []⟩
    Level (Adjacent table query) root (level + 1) visit.seen visit.next := by
  obtain ⟨more, hFold, hNodup, hMore⟩ := foldl_follow frontier (findMany order table query level frontier) seen []
  rw [hFold]
  refine h.step hNodup fun w => ?_
  rw [hMore, neighbor_iff fun v hv => h.frontier_seen hv]

/-- The loop from a level on: the nodes within the depth, and the relationships with an end in a level before it. -/
theorem levels_spec (order : RowOrder) {root : String} (remaining level : Nat) {seen frontier : List String} (edges : List Relationship)
    (h : Level (Adjacent table query) root level seen frontier) :
    ∃ more, (levels order table query remaining level seen edges frontier).2 = edges ++ more ∧
      (∀ edge, edge ∈ more ↔ Selected table query edge ∧
        ∃ k, level ≤ k ∧ k < level + remaining ∧ EndAt (Distance (Adjacent table query) root · k) edge) ∧
      (∀ v, v ∈ (levels order table query remaining level seen edges frontier).1 ↔
        Within (Adjacent table query) (level + remaining) root v) ∧
      (levels order table query remaining level seen edges frontier).1.Nodup := by
  induction remaining generalizing level seen edges frontier with
  | zero =>
    refine ⟨[], (List.append_nil edges).symm, fun edge => ?_, h.seen_iff, h.nodup⟩
    refine iff_of_false List.not_mem_nil ?_
    rintro ⟨-, k, hLow, hHigh, -⟩
    omega
  | succ remaining ih =>
    rw [levels]
    split
    · rename_i hEmpty
      subst hEmpty
      refine ⟨[], (List.append_nil edges).symm, fun edge => ?_, h.seen_of_stuck (remaining + 1), h.nodup⟩
      refine iff_of_false List.not_mem_nil ?_
      rintro ⟨-, k, hLow, -, hSource | hTarget⟩
      · exact h.stuck hLow hSource
      · exact h.stuck hLow hTarget
    · obtain ⟨more, hEdges, hMore, hSeen, hNodup⟩ :=
        ih (level + 1) (edges ++ findMany order table query level frontier) (Level.follow order h)
      refine ⟨findMany order table query level frontier ++ more, ?_, fun edge => ?_, fun v => ?_, hNodup⟩
      · rw [hEdges, List.append_assoc]
      · rw [List.mem_append, mem_findMany, hMore, ← and_or_left]
        refine and_congr_right fun _ => ?_
        simp only [EndAt, h.frontier_iff]
        constructor
        · rintro (hHere | ⟨k, hLow, hHigh, hEnd⟩)
          · exact ⟨level, Nat.le_refl _, by omega, hHere⟩
          · exact ⟨k, by omega, by omega, hEnd⟩
        · rintro ⟨k, hLow, hHigh, hEnd⟩
          rcases Nat.eq_or_lt_of_le hLow with rfl | hLater
          · exact .inl hEnd
          · exact .inr ⟨k, hLater, by omega, hEnd⟩
      · rw [hSeen, Nat.add_right_comm, Nat.add_assoc]

end Levels

section Exactness

variable {order : RowOrder} {table : RelationshipTable} {query : GraphTraversal} {raw : RawTraversal}

/-- The items within the depth, and once each the relationships that touch an item nearer than the depth. -/
structure TraversalExact (table : RelationshipTable) (query : GraphTraversal) (view : GraphView) : Prop where
  nodes : ∀ v, v ∈ view.nodes ↔ Within (Adjacent table query) query.depth query.itemId v
  nodesOnce : view.nodes.Nodup
  edges : ∀ edge, edge ∈ view.edges ↔ Selected table query edge ∧
    EndAt (fun v => ∃ k < query.depth, Distance (Adjacent table query) query.itemId v k) edge
  edgesOnce : view.edges.Nodup

theorem parseTraversal_depth (h : parseTraversal raw = some query) : 1 ≤ query.depth := by
  simp only [parseTraversal] at h
  split at h
  · rename_i hValid
    obtain rfl := Option.some.inj h
    exact Int.toNat_le_toNat hValid.2.1
  · cases h

theorem distance_of_alone {root v : String} {k : Nat} (hAlone : ∀ w, Adjacent table query root w → w = root)
    (h : Distance (Adjacent table query) root v k) : k = 0 := by
  have hRoot : v = root := by
    have hWalk := h.1
    clear h
    induction hWalk with
    | nil => rfl
    | snoc _ hStep ih => exact hAlone _ (ih hAlone ▸ hStep)
  subst hRoot
  exact Nat.eq_zero_of_not_pos fun hPos => h.2 0 hPos (.nil v)

/-- An end that is not the root, of a relationship of the root, is one step away from it. -/
theorem distance_one {root w : String} (h : Adjacent table query root w) (hOther : w ≠ root) :
    Distance (Adjacent table query) root w 1 := by
  refine ⟨.snoc (.nil root) h, fun k hk hWalk => ?_⟩
  obtain rfl := Nat.lt_one_iff.mp hk
  exact hOther hWalk.eq_of_zero.symm

theorem levels_from_root (order : RowOrder) (root : String) (depth : Nat) :
    ∃ more, (levels order table query (depth + 1) 0 [root] [] [root]).2 = findMany order table query 0 [root] ++ more ∧
      ∀ edge, edge ∈ more ↔ Selected table query edge ∧
        ∃ k, 1 ≤ k ∧ k < 1 + depth ∧ EndAt (Distance (Adjacent table query) root · k) edge := by
  obtain ⟨more, hEdges, hMore, -, -⟩ := levels_spec order depth 1 ([] ++ findMany order table query 0 [root])
    (Level.follow order (Level.start root))
  refine ⟨more, ?_, hMore⟩
  rw [levels, if_neg (List.cons_ne_nil root [])]
  exact hEdges

/-- A relationship of the start item with another item is found from both of its ends. -/
theorem edges_nodup_iff (order : RowOrder) (root : String) (depth : Nat) :
    (levels order table query (depth + 1) 0 [root] [] [root]).2.Nodup ↔
      depth = 0 ∨ ∀ w, Adjacent table query root w → w = root := by
  obtain ⟨more, hEdges, hMore⟩ := levels_from_root order root depth
  rw [hEdges]
  constructor
  · intro hNodup
    refine Classical.byContradiction fun hNot => ?_
    obtain ⟨hDeep, hOthers⟩ := not_or.mp hNot
    refine hOthers fun w hAdjacent => Classical.byContradiction fun hOther => ?_
    have hOne := distance_one hAdjacent hOther
    obtain ⟨edge, hSelected, hEnds⟩ := hAdjacent
    have hTwice : edge ∈ findMany order table query 0 [root] ∧ edge ∈ more := by
      rw [mem_findMany, hMore]
      rcases hEnds with ⟨hSource, hTarget⟩ | ⟨hSource, hTarget⟩
      · exact ⟨⟨hSelected, .inl (by simp [hSource])⟩, hSelected, 1, Nat.le_refl 1, by omega, .inr (hTarget ▸ hOne)⟩
      · exact ⟨⟨hSelected, .inr (by simp [hTarget])⟩, hSelected, 1, Nat.le_refl 1, by omega, .inl (hSource ▸ hOne)⟩
    exact List.disjoint_of_nodup_append hNodup hTwice.1 hTwice.2
  · intro hOnce
    have hNil : more = [] := by
      refine List.eq_nil_iff_forall_not_mem.mpr fun edge hEdge => ?_
      obtain ⟨-, k, hLow, hHigh, hEnd⟩ := (hMore edge).mp hEdge
      rcases hOnce with rfl | hAlone
      · omega
      · rcases hEnd with hSource | hTarget
        · exact absurd (distance_of_alone hAlone hSource) (by omega)
        · exact absurd (distance_of_alone hAlone hTarget) (by omega)
    rw [hNil, List.append_nil]
    exact findMany_nodup 0 [root]

/-- The traversal is exact where it stops after one level, or the item has no other neighbour. -/
theorem traverse_exact_iff (order : RowOrder) (table : RelationshipTable) (raw : RawTraversal) (query : GraphTraversal)
    (h : parseTraversal raw = some query) :
    ∃ view, traverse order table raw = some view ∧
      (TraversalExact table query view ↔ query.depth = 1 ∨ ∀ w, Adjacent table query query.itemId w → w = query.itemId) := by
  refine ⟨⟨query.itemId, (levels order table query query.depth 0 [query.itemId] [] [query.itemId]).1,
    (levels order table query query.depth 0 [query.itemId] [] [query.itemId]).2⟩, by rw [traverse, h]; rfl, ?_⟩
  obtain ⟨depth, hDepth⟩ := Nat.exists_eq_add_of_le' (parseTraversal_depth h)
  have hStart : Level (Adjacent table query) query.itemId 0 [query.itemId] [query.itemId] := .start query.itemId
  obtain ⟨all, hAll, hEdges, hNodes, hOnce⟩ := levels_spec order query.depth 0 [] hStart
  have hTwice := @edges_nodup_iff table query order query.itemId depth
  rw [← hDepth] at hTwice
  rw [show query.depth = 1 ↔ depth = 0 by omega, ← hTwice]
  refine ⟨TraversalExact.edgesOnce, fun hNodup => ⟨fun v => ?_, hOnce, fun edge => ?_, hNodup⟩⟩
  · rw [hNodes, Nat.zero_add]
  · rw [hAll, List.nil_append, hEdges]
    refine and_congr_right fun _ => ?_
    simp only [Nat.zero_le, true_and, Nat.zero_add, EndAt, and_or_left, exists_or]

def relatedTo (id source target : String) : Relationship :=
  ⟨id, source, target, "RELATED_TO", 4 / 5, "named in both", "nuru.connection.v1", "APPROVED", 10⟩

def twoRecords : RelationshipTable := ⟨[relatedTo "r1" "K-101" "K-205"], by decide⟩

theorem traverse_exact_one_level :
    parseTraversal ⟨"K-101", none, none, none⟩ = some ⟨"K-101", 1, none, false⟩ ∧
    ∃ view, traverse .stored twoRecords ⟨"K-101", none, none, none⟩ = some view ∧
      (TraversalExact twoRecords ⟨"K-101", 1, none, false⟩ view ↔
        1 = 1 ∨ ∀ w, Adjacent twoRecords ⟨"K-101", 1, none, false⟩ "K-101" w → w = "K-101") :=
  ⟨by decide, traverse_exact_iff .stored twoRecords ⟨"K-101", none, none, none⟩ ⟨"K-101", 1, none, false⟩ (by decide)⟩

/-- With a depth of two the one relationship is returned twice. -/
theorem traverse_repeats :
    traverse .stored twoRecords ⟨"K-101", some 2, none, none⟩ =
      some ⟨"K-101", ["K-101", "K-205"], [relatedTo "r1" "K-101" "K-205", relatedTo "r1" "K-101" "K-205"]⟩ ∧
    ¬ ∀ order table raw query view, parseTraversal raw = some query → traverse order table raw = some view →
      TraversalExact table query view := by
  have hTwice : traverse .stored twoRecords ⟨"K-101", some 2, none, none⟩ =
      some ⟨"K-101", ["K-101", "K-205"], [relatedTo "r1" "K-101" "K-205", relatedTo "r1" "K-101" "K-205"]⟩ := by
    decide +kernel
  refine ⟨hTwice, fun h => ?_⟩
  have hOnce := (h _ _ _ ⟨"K-101", 2, none, false⟩ _ (by decide) hTwice).edgesOnce
  exact (List.nodup_cons.mp hOnce).1 List.mem_cons_self

end Exactness

end CommandConsole.Knowledge
