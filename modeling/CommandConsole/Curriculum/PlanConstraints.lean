import CommandConsole.Curriculum.Planner

/-! # What a plan respects

The lessons of a plan are the selected gaps in the order of the walk over the prerequisites, with at most one
reassessment after them. Only the reassessment and a first diagnostic can break a constraint.
-/
namespace CommandConsole.Curriculum
open Library
open Relation (TransGen)
set_option autoImplicit false

section Order

variable (platform : Platform) (input : CurriculumPlannerInput) (now : String)

variable {platform} {input} {now}

theorem prerequisitesOf_eq_nil {id : String} (h : id ∉ input.prerequisites.map Prod.fst) :
    input.prerequisitesOf id = [] := by
  have hNone : InsertionMap.get id input.prerequisites = none := by
    cases hFound : InsertionMap.get id input.prerequisites with
    | none => rfl
    | some ids => exact absurd (List.mem_map_of_mem (InsertionMap.mem_of_get hFound)) h
  rw [CurriculumPlannerInput.prerequisitesOf, hNone]
  rfl

/-- Every skill leads to its prerequisites. -/
def CurriculumPlannerInput.skillGraph (input : CurriculumPlannerInput) : Library.Digraph String where
  next := input.prerequisitesOf
  sources := input.prerequisites.map Prod.fst
  next_eq_nil _ hOut := prerequisitesOf_eq_nil hOut

theorem related_grounded (h : input.skillGraph.Acyclic) : Grounded input.prerequisitesOf [] (related platform input) := by
  refine Grounded.eraseDups (emit_grounded h ?_ _)
  rw [CurriculumPlannerInput.skillGraph, List.length_map]
  exact Nat.lt_succ_self _

theorem target_mem_related : target platform input ∈ related platform input := by
  rw [related, List.mem_eraseDups]
  exact List.mem_append_right _ List.mem_cons_self

theorem gapOf_eq_some {id : String} {gap : PlanGap} (h : gapOf platform input now id = some gap) :
    gap.skillId = id ∧ gap.competency = competency input id := by
  unfold gapOf at h
  split at h
  · split at h
    · obtain rfl := Option.some.inj h
      exact ⟨rfl, rfl⟩
    · cases h
  · split at h
    · obtain rfl := Option.some.inj h
      exact ⟨rfl, rfl⟩
    · split at h
      · obtain rfl := Option.some.inj h
        exact ⟨rfl, rfl⟩
      · cases h

theorem map_filterMap_gapOf_sublist (ids : List String) :
    ((ids.filterMap (gapOf platform input now)).map PlanGap.skillId).Sublist ids := by
  induction ids with
  | nil => exact List.Sublist.refl _
  | cons id rest ih =>
    cases hGap : gapOf platform input now id with
    | none =>
      rw [List.filterMap_cons_none hGap]
      exact ih.cons id
    | some gap =>
      rw [List.filterMap_cons_some hGap, List.map_cons, (gapOf_eq_some hGap).1]
      exact ih.cons_cons id

theorem gaps_sublist_related :
    ((gaps platform input now).map PlanGap.skillId).Sublist (related platform input) := by
  rw [gaps]
  split
  · exact List.singleton_sublist.mpr target_mem_related
  · exact (map_filterMap_gapOf_sublist _).trans List.filter_sublist

theorem pairwise_idxOf {α : Type} [DecidableEq α] {l : List α} (h : l.Nodup) :
    l.Pairwise fun a b => l.idxOf a < l.idxOf b := by
  refine List.pairwise_iff_getElem.mpr fun i j hi hj hLess => ?_
  rw [h.idxOf_getElem i hi, h.idxOf_getElem j hj]
  exact hLess

/-- The gaps are found in the order that they are sorted by. -/
theorem orderedGaps_eq : orderedGaps platform input now = gaps platform input now := by
  refine List.Pairwise.insertionSort_eq ?_
  have hIndexed := (pairwise_idxOf (Grounded.nodup_eraseDups _)).sublist (@gaps_sublist_related platform input now)
  refine (List.pairwise_map.mp hIndexed).imp fun {left right} hLess => ?_
  rw [gapOrder]
  have hLess' : (related platform input).idxOf left.skillId < (related platform input).idxOf right.skillId := hLess
  have hNe : ((related platform input).idxOf left.skillId : Int) - (related platform input).idxOf right.skillId ≠ 0 := by
    omega
  rw [if_pos hNe]
  omega

end Order

section Selection

variable {platform : Platform} {input : CurriculumPlannerInput} {now : String}

/-- The time that a gap would take is within both limits. -/
def PlannerConstraints.Fits (constraints : PlannerConstraints) (minutes : Nat) : Prop :=
  (∀ limit ∈ constraints.preferredSessionMinutes, limit ≠ 0 → (minutes : Rat) ≤ limit) ∧
    ∀ budget ∈ constraints.availableMinutesPerWeek, budget ≠ 0 → (minutes : Rat) ≤ budget

theorem mem_withinSession {limit : Option Rat} {ordered : List PlanGap} {gap : PlanGap} :
    gap ∈ withinSession limit ordered ↔
      gap ∈ ordered ∧ ∀ bound ∈ limit, bound ≠ 0 → (gap.minutes : Rat) ≤ bound := by
  cases limit with
  | none => simp [withinSession]
  | some bound =>
    by_cases hZero : bound = 0
    · simp [withinSession, Option.filter, hZero]
    · simp [withinSession, Option.filter, hZero]

theorem withinSession_sublist (limit : Option Rat) (ordered : List PlanGap) :
    (withinSession limit ordered).Sublist ordered := by
  unfold withinSession
  split
  · exact List.filter_sublist
  · exact List.Sublist.refl _

theorem fillWeek_sublist (budget : Rat) (planned : Nat) (fitting : List PlanGap) :
    (fillWeek budget planned fitting).Sublist fitting := by
  induction fitting generalizing planned with
  | nil => exact List.Sublist.refl _
  | cons gap rest ih =>
    rw [fillWeek]
    split
    · exact (ih planned).cons gap
    · exact (ih _).cons_cons gap

theorem fillWeek_eq_nil {budget : Rat} {fitting : List PlanGap} :
    fillWeek budget 0 fitting = [] ↔ ∀ gap ∈ fitting, budget < (gap.minutes : Rat) := by
  induction fitting with
  | nil => simp [fillWeek]
  | cons gap rest ih =>
    rw [fillWeek, Nat.zero_add, List.forall_mem_cons]
    split
    · rename_i hOver
      rw [ih]
      exact ⟨fun hRest => ⟨hOver, hRest⟩, fun hBoth => hBoth.2⟩
    · rename_i hFits
      exact ⟨fun hNil => (nomatch hNil), fun hBoth => absurd hBoth.1 hFits⟩

theorem withinWeek_sublist (limit : Option Rat) (fitting : List PlanGap) : (withinWeek limit fitting).Sublist fitting := by
  unfold withinWeek
  split
  · exact fillWeek_sublist _ _ _
  · exact List.Sublist.refl _

theorem withinWeek_eq_nil {limit : Option Rat} {fitting : List PlanGap} :
    withinWeek limit fitting = [] ↔
      ∀ gap ∈ fitting, ∃ budget ∈ limit, budget ≠ 0 ∧ budget < (gap.minutes : Rat) := by
  cases limit with
  | none => simp [withinWeek, List.eq_nil_iff_forall_not_mem]
  | some budget =>
    by_cases hZero : budget = 0
    · simp [withinWeek, Option.filter, hZero, List.eq_nil_iff_forall_not_mem]
    · simp [withinWeek, Option.filter, hZero, fillWeek_eq_nil]

theorem selected_sublist : (selected platform input now).Sublist (gaps platform input now) := by
  rw [selected, orderedGaps_eq]
  exact (withinWeek_sublist _ _).trans (withinSession_sublist _ _)

theorem selected_eq_nil : selected platform input now = [] ↔
    ∀ gap ∈ gaps platform input now, ¬ input.constraints.Fits gap.minutes := by
  rw [selected, orderedGaps_eq, withinWeek_eq_nil]
  constructor
  · rintro hOver gap hGap ⟨hSession, hWeek⟩
    obtain ⟨budget, hBudget, hNonzero, hLess⟩ := hOver gap (mem_withinSession.mpr ⟨hGap, hSession⟩)
    exact absurd (hWeek budget hBudget hNonzero) (not_le_of_gt hLess)
  · intro hNone gap hGap
    obtain ⟨hMem, hSession⟩ := mem_withinSession.mp hGap
    by_contra hFits
    refine hNone gap hMem ⟨hSession, fun budget hBudget hNonzero => ?_⟩
    by_contra hOver
    exact hFits ⟨budget, hBudget, hNonzero, not_le.mp hOver⟩

end Selection

section Lessons

variable {platform : Platform} {input : CurriculumPlannerInput} {now : String}

def LearningPlan.remediation (plan : LearningPlan) : List PlannedLesson :=
  plan.lessons.filter fun lesson => lesson.activityType ≠ .reassessment

theorem template_activity (id : String) (level : PlannerTargetLevel) : (template id level).activity ≠ .reassessment := by
  unfold template
  repeat' split
  all_goals simp

theorem activity_ne_reassessment (gap : PlanGap) : gap.activity ≠ .reassessment := by
  unfold PlanGap.activity
  split
  · exact LessonActivityType.noConfusion
  · exact template_activity _ _

theorem lessonsOf_targets (targetSkill : String) (position : Nat) (gaps : List PlanGap) :
    (lessonsOf input targetSkill position gaps).map PlannedLesson.targetSkillId = gaps.map PlanGap.skillId := by
  induction gaps generalizing position with
  | nil => rfl
  | cons gap rest ih => exact congrArg (gap.skillId :: ·) (ih (position + 1))

theorem mem_lessonsOf {targetSkill : String} {position : Nat} {gaps : List PlanGap} {lesson : PlannedLesson}
    (h : lesson ∈ lessonsOf input targetSkill position gaps) :
    lesson.activityType ≠ .reassessment ∧
      ∃ gap ∈ gaps, lesson.targetSkillId = gap.skillId ∧ lesson.estimatedMinutes = gap.minutes := by
  induction gaps generalizing position with
  | nil => cases h
  | cons gap rest ih =>
    rcases List.mem_cons.mp h with rfl | hRest
    · exact ⟨activity_ne_reassessment gap, gap, List.mem_cons_self, rfl, rfl⟩
    · obtain ⟨hActivity, other, hOther, hSame⟩ := ih hRest
      exact ⟨hActivity, other, List.mem_cons_of_mem _ hOther, hSame⟩

theorem lessonsOf_eq_nil {targetSkill : String} {position : Nat} {gaps : List PlanGap} :
    lessonsOf input targetSkill position gaps = [] ↔ gaps = [] := by
  cases gaps with
  | nil => simp [lessonsOf]
  | cons gap rest => simp [lessonsOf]

/-- The lessons of the selected gaps, with one reassessment after them if there are any or the goal is a candidate. -/
theorem lessons_cases (platform : Platform) (input : CurriculumPlannerInput) (now : String) :
    ((buildCurriculumPlan platform input now).lessons =
        lessonsOf input (target platform input) 1 (selected platform input now) ∧
      selected platform input now = [] ∧ target platform input ∉ candidates platform input) ∨
    ∃ closing : PlannedLesson,
      (buildCurriculumPlan platform input now).lessons =
        lessonsOf input (target platform input) 1 (selected platform input now) ++ [closing] ∧
      closing.targetSkillId = target platform input ∧ closing.estimatedMinutes = 20 ∧
      closing.activityType = .reassessment ∧
      (selected platform input now ≠ [] ∨ target platform input ∈ candidates platform input) := by
  rw [buildCurriculumPlan]
  simp only [withReassessment]
  by_cases hNil : selected platform input now = []
  · rw [hNil, lessonsOf, if_pos rfl]
    split
    · rename_i hGoal
      exact .inr ⟨_, rfl, rfl, rfl, rfl, .inr hGoal⟩
    · rename_i hGoal
      exact .inl ⟨rfl, rfl, hGoal⟩
  · rw [if_neg fun hNone => hNil (lessonsOf_eq_nil.mp hNone), if_pos]
    · exact .inr ⟨_, rfl, rfl, rfl, rfl, .inl hNil⟩
    · intro hLast
      obtain ⟨lesson, hMem, hSame⟩ := Option.map_eq_some_iff.mp hLast
      exact (mem_lessonsOf (List.mem_of_getLast? hMem)).1 hSame

theorem remediation_eq : (buildCurriculumPlan platform input now).remediation =
    lessonsOf input (target platform input) 1 (selected platform input now) := by
  have hKeep : (lessonsOf input (target platform input) 1 (selected platform input now)).filter
      (fun lesson => lesson.activityType ≠ .reassessment) =
        lessonsOf input (target platform input) 1 (selected platform input now) :=
    List.filter_eq_self.mpr fun lesson hLesson => decide_eq_true (mem_lessonsOf hLesson).1
  rw [LearningPlan.remediation]
  rcases lessons_cases platform input now with ⟨hLessons, -⟩ | ⟨closing, hLessons, -, -, hActivity, -⟩
  · rw [hLessons, hKeep]
  · rw [hLessons, List.filter_append, hKeep, List.filter_cons_of_neg (by simp [hActivity]), List.filter_nil, List.append_nil]

theorem remediation_sublist : ((buildCurriculumPlan platform input now).remediation.map PlannedLesson.targetSkillId).Sublist
    (related platform input) := by
  rw [remediation_eq, lessonsOf_targets]
  exact (selected_sublist.map _).trans gaps_sublist_related

theorem mem_candidates_target : target platform input ∈ candidates platform input ↔
    excluded platform input (target platform input) = false := by
  rw [candidates, List.mem_filter]
  simp [target_mem_related]

end Lessons

section Constraints

variable {platform : Platform} {input : CurriculumPlannerInput} {now : String}

structure LearningPlan.Respects (platform : Platform) (input : CurriculumPlannerInput) (plan : LearningPlan) : Prop where
  topics : ∀ lesson ∈ plan.lessons, excluded platform input lesson.targetSkillId = false
  session : ∀ limit ∈ input.constraints.preferredSessionMinutes, ∀ lesson ∈ plan.lessons,
    (lesson.estimatedMinutes : Rat) ≤ limit
  order : (plan.remediation.map PlannedLesson.targetSkillId).Pairwise fun a b => ¬ TransGen input.skillGraph.Leads a b
  once : (plan.remediation.map PlannedLesson.targetSkillId).Nodup
  budget : ∀ budget ∈ input.constraints.availableMinutesPerWeek, budget < (totalMinutes plan.lessons : Rat) →
    plan.status = .constrained

/-- A gap is detected for the skill: with no evidence at all for the goal, else for a candidate with one. -/
def HasGap (platform : Platform) (input : CurriculumPlannerInput) (now id : String) : Prop :=
  if input.noEvidenceAtAll then id = target platform input
  else id ∈ candidates platform input ∧ (gapOf platform input now id).isSome

theorem mem_gaps {gap : PlanGap} (h : gap ∈ gaps platform input now) :
    HasGap platform input now gap.skillId ∧ gap.minutes = (template gap.skillId (competency input gap.skillId)).minutes := by
  rw [gaps] at h
  rw [HasGap]
  split at h
  · rename_i hNone
    obtain rfl := List.mem_singleton.mp h
    rw [if_pos hNone]
    exact ⟨rfl, rfl⟩
  · rename_i hSome
    obtain ⟨id, hId, hGap⟩ := List.mem_filterMap.mp h
    obtain ⟨rfl, hLevel⟩ := gapOf_eq_some hGap
    rw [if_neg hSome, PlanGap.minutes, hLevel]
    exact ⟨⟨hId, by rw [hGap]; rfl⟩, rfl⟩

theorem exists_gap {id : String} (h : HasGap platform input now id) :
    ∃ gap ∈ gaps platform input now, gap.minutes = (template id (competency input id)).minutes := by
  rw [HasGap] at h
  rw [gaps]
  split at h
  · rename_i hNone
    rw [if_pos hNone, h]
    exact ⟨_, List.mem_cons_self, rfl⟩
  · rename_i hSome
    obtain ⟨gap, hGap⟩ := Option.isSome_iff_exists.mp h.2
    obtain ⟨hId, hLevel⟩ := gapOf_eq_some hGap
    rw [if_neg hSome]
    exact ⟨gap, List.mem_filterMap.mpr ⟨id, h.1, hGap⟩, by rw [PlanGap.minutes, hId, hLevel]⟩

theorem selected_eq_nil_iff : selected platform input now = [] ↔ ∀ id, HasGap platform input now id →
    ¬ input.constraints.Fits (template id (competency input id)).minutes := by
  rw [selected_eq_nil]
  constructor
  · intro hNone id hGap
    obtain ⟨gap, hMem, hMinutes⟩ := exists_gap hGap
    exact hMinutes ▸ hNone gap hMem
  · intro hNone gap hMem
    obtain ⟨hGap, hMinutes⟩ := mem_gaps hMem
    exact hMinutes ▸ hNone gap.skillId hGap

/-- A gap is excluded only where it is the goal that nothing is known about. -/
theorem gap_not_excluded (hGoal : excluded platform input (target platform input) = false) {gap : PlanGap}
    (h : gap ∈ gaps platform input now) : excluded platform input gap.skillId = false := by
  have hGap := (mem_gaps h).1
  rw [HasGap] at hGap
  split at hGap
  · rw [hGap]
    exact hGoal
  · have hKept := (List.mem_filter.mp hGap.1).2
    simpa using hKept

theorem selected_fits {gap : PlanGap} (h : gap ∈ selected platform input now) {limit : Rat}
    (hLimit : limit ∈ input.constraints.preferredSessionMinutes) (hNonzero : limit ≠ 0) : (gap.minutes : Rat) ≤ limit :=
  (mem_withinSession.mp ((withinWeek_sublist _ _).subset h)).2 limit hLimit hNonzero

theorem order_respected (h : input.skillGraph.Acyclic) : ((buildCurriculumPlan platform input now).remediation.map
    PlannedLesson.targetSkillId).Pairwise fun a b => ¬ TransGen input.skillGraph.Leads a b := by
  refine List.Pairwise.sublist remediation_sublist ?_
  exact (related_grounded h).pairwise (fun _ hNone => nomatch hNone) (Grounded.nodup_eraseDups _) fun _ _ hNone => nomatch hNone

theorem budget_respected (budget : Rat) (hBudget : budget ∈ input.constraints.availableMinutesPerWeek)
    (hOver : budget < (totalMinutes (buildCurriculumPlan platform input now).lessons : Rat)) :
    (buildCurriculumPlan platform input now).status = .constrained := by
  have hSome : input.constraints.availableMinutesPerWeek = some budget := hBudget
  simp only [buildCurriculumPlan] at hOver ⊢
  simp [hSome, hOver]

end Constraints

section Examples

/-- Texts that are lower case already, and no dates. -/
def plain : Platform := ⟨fun text => text, fun a b => if a = b then 0 else if a < b then -1 else 1, fun _ => none⟩

def systemdInput (assessments : List PlannerAssessmentResult) (session : Option Rat) (topics : List String) :
    CurriculumPlannerInput where
  goal := ⟨some "linux.systemd.troubleshooting", "fix services", none⟩
  nodes := [⟨"linux.systemd.journald", "journald", "journald"⟩, ⟨"linux.systemd.troubleshooting", "troubleshooting", "failures"⟩]
  prerequisites := [("linux.systemd.troubleshooting", ["linux.systemd.journald"])]
  assessmentResults := assessments
  learningHistory := []
  constraints := ⟨some 60, session, topics⟩
  skillStates := []

def journaldAssessed : List PlannerAssessmentResult := [⟨"linux.systemd.journald", "2026-07-01", some (1 / 2), ["evidence_1"]⟩]

theorem systemdInput_acyclic (assessments : List PlannerAssessmentResult) (session : Option Rat) (topics : List String) :
    (systemdInput assessments session topics).skillGraph.Acyclic := by
  refine Library.Digraph.acyclic_of_rank (fun id => if id = "linux.systemd.troubleshooting" then 0 else 1) fun a b hLeads => ?_
  have hLeads' : b ∈ (InsertionMap.get a [("linux.systemd.troubleshooting", ["linux.systemd.journald"])]).getD [] := hLeads
  simp only [InsertionMap.get] at hLeads'
  split at hLeads'
  · rename_i hGoal
    obtain rfl := List.mem_singleton.mp hLeads'
    rw [← hGoal]
    decide
  · cases hLeads'

end Examples

end CommandConsole.Curriculum
