import CommandConsole.Library.InsertionMap
import CommandConsole.Library.PostOrder
import Mathlib.Data.List.Sort
import Mathlib.Algebra.Order.Ring.Unbundled.Rat
import Mathlib.Data.List.Infix

/-! # Curriculum plans

A plan looks for gaps in the goal skill and what it presupposes, keeps the gaps that fit the time there is,
makes a lesson of each, and ends with a reassessment of the goal.
-/
namespace CommandConsole.Curriculum
open Library
set_option autoImplicit false

section Vocabulary

inductive PlannerTargetLevel where
  | foundational
  | practical
  | troubleshooting
  deriving DecidableEq

def PlannerTargetLevel.lowerText : PlannerTargetLevel → String
  | foundational => "foundational"
  | practical => "practical"
  | troubleshooting => "troubleshooting"

inductive LessonActivityType where
  | diagnostic
  | guidedPractice
  | scenarioPractice
  | reassessment
  deriving DecidableEq

inductive LearningPlanStatus where
  | ready
  | insufficientEvidence
  | constrained
  deriving DecidableEq

inductive HistoryEvent where
  | completed
  | skipped
  | failed
  | started
  deriving DecidableEq

structure SkillNode where
  id : String
  slug : String
  name : String
  deriving DecidableEq

structure PlannerAssessmentResult where
  skillId : String
  completedAt : String
  score : Option Rat
  evidenceIds : List String
  deriving DecidableEq

structure LearningHistoryEntry where
  skillId : String
  event : HistoryEvent
  deriving DecidableEq

structure PlannerSkillState where
  skillId : String
  mastery : Option Rat
  confidence : Rat
  retentionScore : Option Rat
  lastEvaluated : Option String
  evidenceIds : List String
  deriving DecidableEq

structure PlannerGoal where
  skillId : Option String
  freeText : String
  targetLevel : Option PlannerTargetLevel
  deriving DecidableEq

structure PlannerConstraints where
  availableMinutesPerWeek : Option Rat
  preferredSessionMinutes : Option Rat
  excludedTopics : List String
  deriving DecidableEq

/-- The prerequisites of a skill that is not a key are none. -/
structure CurriculumPlannerInput where
  goal : PlannerGoal
  nodes : List SkillNode
  prerequisites : List (String × List String)
  assessmentResults : List PlannerAssessmentResult
  learningHistory : List LearningHistoryEntry
  constraints : PlannerConstraints
  skillStates : List PlannerSkillState
  deriving DecidableEq

structure PlanGap where
  skillId : String
  competency : PlannerTargetLevel
  reason : String
  evidenceIds : List String
  diagnostic : Bool
  deriving DecidableEq

structure PlannedLesson where
  id : String
  position : Nat
  targetSkillId : String
  targetCompetency : PlannerTargetLevel
  objective : String
  activityType : LessonActivityType
  estimatedMinutes : Nat
  prerequisitePath : List String
  evidenceReferences : List String
  whyThisLesson : String
  completionCriterion : String
  nextStep : String
  deriving DecidableEq

structure LearningPlan where
  version : String
  goalSummary : String
  status : LearningPlanStatus
  detectedGaps : List PlanGap
  lessons : List PlannedLesson
  rationale : String
  assumptions : List String
  generatedAt : String
  deriving DecidableEq

/-- `Date.parse` answers none for what is not a date. -/
structure Platform where
  toLowerCase : String → String
  localeCompare : String → String → Int
  dateParse : String → Option Int

structure LessonTemplate where
  objective : String
  activity : LessonActivityType
  minutes : Nat
  deriving DecidableEq

end Vocabulary

section Skills

variable (platform : Platform) (input : CurriculumPlannerInput) (now : String)

def weak (value : Option Rat) : Bool :=
  match value with
  | none => true
  | some value => value < 7 / 10

def staleAt (value : Option String) : Bool :=
  match value with
  | none => false
  | some value =>
    value ≠ "" && match platform.dateParse now, platform.dateParse value with
      | some now, some value => decide (now - value > 1000 * 60 * 60 * 24 * 90)
      | _, _ => false

def template (skillId : String) (competency : PlannerTargetLevel) : LessonTemplate :=
  if skillId = "linux.systemd.journald" then
    ⟨"Filter and interpret service journal entries to locate a failure signal.", .guidedPractice, 25⟩
  else if skillId = "linux.systemd.dependencies" then
    ⟨"Explain Requires, Wants, After, and Before in a service-startup scenario.", .guidedPractice, 30⟩
  else if skillId = "linux.systemd.units" then
    ⟨"Inspect a unit lifecycle and connect process state to service behavior.", .guidedPractice, 25⟩
  else if skillId = "linux.systemd.troubleshooting" then
    if competency = .troubleshooting then
      ⟨"Diagnose a realistic systemd service failure from unit and journal evidence.", .scenarioPractice, 35⟩
    else ⟨"Complete a focused systemd diagnostic to establish the next learning step.", .diagnostic, 15⟩
  else ⟨"Practice " ++ skillId ++ " with an evidence-backed scenario.", .guidedPractice, 25⟩

def includes (text part : String) : Bool := part.toList <:+: text.toList

/-- An empty skill id is as good as none. -/
def target : String :=
  match input.goal.skillId.filter fun id => id ≠ "" with
  | some id => id
  | none =>
    let needle := platform.toLowerCase input.goal.freeText
    let found := input.nodes.find? fun node =>
      includes needle node.slug || includes needle (platform.toLowerCase node.name)
    (found.map SkillNode.id).getD "linux.systemd.troubleshooting"

def CurriculumPlannerInput.prerequisitesOf (id : String) : List String :=
  (InsertionMap.get id input.prerequisites).getD []

/-- The walk is no deeper than there are skills with prerequisites. -/
def ancestors (id : String) : List String := (emit input.prerequisitesOf (input.prerequisites.length + 1) id []).1

def competency (skillId : String) : PlannerTargetLevel :=
  input.goal.targetLevel.getD (if "troubleshooting".toList <:+ skillId.toList then .troubleshooting else .practical)

/-- Of several nodes, states or assessments of one skill the last one counts. -/
def CurriculumPlannerInput.node? (id : String) : Option SkillNode := input.nodes.reverse.find? fun node => node.id = id

def CurriculumPlannerInput.state? (id : String) : Option PlannerSkillState :=
  input.skillStates.reverse.find? fun state => state.skillId = id

def CurriculumPlannerInput.assessment? (id : String) : Option PlannerAssessmentResult :=
  input.assessmentResults.reverse.find? fun result => result.skillId = id

def CurriculumPlannerInput.nameOf (id : String) : String := ((input.node? id).map SkillNode.name).getD id

def CurriculumPlannerInput.setbacks (id : String) : Nat :=
  input.learningHistory.countP fun entry => (entry.event = .failed ∨ entry.event = .skipped) ∧ entry.skillId = id

def related : List String := (ancestors input (target platform input) ++ [target platform input]).eraseDups

def excluded (id : String) : Bool :=
  let topics := input.constraints.excludedTopics.map platform.toLowerCase
  platform.toLowerCase id ∈ topics ∨ platform.toLowerCase (((input.node? id).map SkillNode.slug).getD "") ∈ topics

def candidates : List String := (related platform input).filter fun id => !excluded platform input id

def hasAnyEvidence : Bool :=
  (candidates platform input).any fun id =>
    0 < (((input.assessment? id).map fun result => result.evidenceIds.length).or
      ((input.state? id).map fun state => state.evidenceIds.length)).getD 0

def CurriculumPlannerInput.evidenceOf (id : String) : List String :=
  (((input.assessment? id).map PlannerAssessmentResult.evidenceIds).getD [] ++
    ((input.state? id).map PlannerSkillState.evidenceIds).getD []).eraseDups

def CurriculumPlannerInput.conflicting (id : String) : Bool :=
  match (input.assessment? id).bind PlannerAssessmentResult.score, (input.state? id).bind PlannerSkillState.mastery with
  | some score, some mastery => 4 / 10 ≤ |score - mastery|
  | _, _ => false

def bottleneck (id : String) : Bool :=
  let state := input.state? id
  let assessment := input.assessment? id
  weak ((assessment.bind PlannerAssessmentResult.score).or (state.bind PlannerSkillState.mastery)) ||
    weak (state.bind PlannerSkillState.retentionScore) || weak (state.map PlannerSkillState.confidence) ||
    (staleAt platform now (state.bind PlannerSkillState.lastEvaluated) ||
      staleAt platform now (assessment.map PlannerAssessmentResult.completedAt)) ||
    2 ≤ input.setbacks id

def unassessedGap (id : String) : PlanGap where
  skillId := id
  competency := competency input id
  reason := "There is no assessment or approved evidence for " ++ input.nameOf id ++ "; start with a focused diagnostic."
  evidenceIds := []
  diagnostic := true

def conflictGap (id : String) : PlanGap where
  skillId := id
  competency := competency input id
  reason := "Assessment and learner-state evidence conflict for " ++ input.nameOf id ++
    "; start with a focused diagnostic before remediation."
  evidenceIds := input.evidenceOf id
  diagnostic := true

def bottleneckGap (id : String) : PlanGap where
  skillId := id
  competency := competency input id
  reason := "Assessment and learner-state evidence indicate that " ++ input.nameOf id ++ " is a current bottleneck."
  evidenceIds := input.evidenceOf id
  diagnostic := false

def gapOf (id : String) : Option PlanGap :=
  if input.evidenceOf id = [] then
    if !hasAnyEvidence platform input ∧ id = target platform input then some (unassessedGap input id) else none
  else if input.conflicting id then some (conflictGap input id)
  else if bottleneck platform input now id then some (bottleneckGap input id)
  else none

def CurriculumPlannerInput.noEvidenceAtAll : Bool :=
  input.assessmentResults.all (fun result => result.evidenceIds = []) &&
    input.skillStates.all fun state => state.evidenceIds = []

def gaps : List PlanGap :=
  if input.noEvidenceAtAll then [unassessedGap input (target platform input)]
  else (candidates platform input).filterMap (gapOf platform input now)

end Skills

section Plan

variable (platform : Platform) (input : CurriculumPlannerInput) (now : String)

/-- The comparison of two gaps is not positive. -/
def gapOrder (left right : PlanGap) : Prop :=
  let byGoal : Int :=
    (related platform input).idxOf left.skillId - (related platform input).idxOf right.skillId
  (if byGoal ≠ 0 then byGoal else platform.localeCompare left.skillId right.skillId) ≤ 0

instance : DecidableRel (gapOrder platform input) := fun left right => by
  unfold gapOrder
  infer_instance

def orderedGaps : List PlanGap := (gaps platform input now).insertionSort (gapOrder platform input)

def PlanGap.minutes (gap : PlanGap) : Nat := (template gap.skillId gap.competency).minutes

/-- A limit of zero is as good as none. -/
def withinSession (limit : Option Rat) (ordered : List PlanGap) : List PlanGap :=
  match limit.filter fun limit => limit ≠ 0 with
  | some limit => ordered.filter fun gap => (gap.minutes : Rat) ≤ limit
  | none => ordered

def fillWeek (budget : Rat) : Nat → List PlanGap → List PlanGap
  | _, [] => []
  | planned, gap :: rest =>
    if budget < ((planned + gap.minutes : Nat) : Rat) then fillWeek budget planned rest
    else gap :: fillWeek budget (planned + gap.minutes) rest

def withinWeek (limit : Option Rat) (fitting : List PlanGap) : List PlanGap :=
  match limit.filter fun limit => limit ≠ 0 with
  | some budget => fillWeek budget 0 fitting
  | none => fitting

def selected : List PlanGap :=
  withinWeek input.constraints.availableMinutesPerWeek
    (withinSession input.constraints.preferredSessionMinutes (orderedGaps platform input now))

def PlanGap.activity (gap : PlanGap) : LessonActivityType :=
  if gap.diagnostic then .diagnostic else (template gap.skillId gap.competency).activity

def PlanGap.why (targetSkill : String) (gap : PlanGap) : String :=
  if gap.diagnostic then gap.reason
  else gap.reason ++ " It is " ++
    (if gap.skillId = targetSkill then "directly relevant to your goal" else "a prerequisite for the stated goal") ++ "."

def PlanGap.criterion (gap : PlanGap) : String :=
  if gap.activity = .diagnostic then
    "Complete the focused diagnostic; use its completed assessment as the next planning signal."
  else "Complete the activity, then complete the targeted reassessment."

def lessonOf (targetSkill : String) (position : Nat) (gap : PlanGap) (rest : List PlanGap) : PlannedLesson where
  id := "curriculum-plan-v1:" ++ gap.skillId ++ ":" ++ gap.competency.lowerText
  position := position
  targetSkillId := gap.skillId
  targetCompetency := gap.competency
  objective := (template gap.skillId gap.competency).objective
  activityType := gap.activity
  estimatedMinutes := gap.minutes
  prerequisitePath := ancestors input gap.skillId ++ [gap.skillId]
  evidenceReferences := gap.evidenceIds
  whyThisLesson := gap.why targetSkill
  completionCriterion := gap.criterion
  nextStep := (rest.head?.map PlanGap.skillId).getD ("Reassess " ++ targetSkill)

def lessonsOf (targetSkill : String) : Nat → List PlanGap → List PlannedLesson
  | _, [] => []
  | position, gap :: rest =>
    lessonOf input targetSkill position gap rest :: lessonsOf targetSkill (position + 1) rest

def reassessment (targetSkill : String) (position : Nat) (objective why : String) (references : List String) :
    PlannedLesson where
  id := "curriculum-plan-v1:" ++ targetSkill ++ ":reassessment"
  position := position
  targetSkillId := targetSkill
  targetCompetency := competency input targetSkill
  objective := objective
  activityType := .reassessment
  estimatedMinutes := 20
  prerequisitePath := ancestors input targetSkill ++ [targetSkill]
  evidenceReferences := references
  whyThisLesson := why
  completionCriterion := "Complete the targeted assessment."
  nextStep := "Review " ++ targetSkill ++ " results"

/-- The lessons with the reassessment that closes them. -/
def withReassessment (lessons : List PlannedLesson) : List PlannedLesson :=
  let targetSkill := target platform input
  if lessons = [] then
    if targetSkill ∈ candidates platform input then
      [reassessment input targetSkill 1 "Verify the goal skill with a practical reassessment."
        "The available evidence does not support a remediation lesson; reassessment confirms current readiness."
        (((input.assessment? targetSkill).map PlannerAssessmentResult.evidenceIds).getD [])]
    else []
  else if lessons.getLast?.map PlannedLesson.activityType ≠ some .reassessment then
    lessons ++ [reassessment input targetSkill (lessons.length + 1)
      "Verify that the prerequisite bottleneck has been resolved."
      "Reassessment is the evidence-producing next step after the targeted lessons."
      ((orderedGaps platform input now).flatMap PlanGap.evidenceIds)]
  else lessons

def totalMinutes (lessons : List PlannedLesson) : Nat := (lessons.map PlannedLesson.estimatedMinutes).sum

def buildCurriculumPlan : LearningPlan :=
  let targetSkill := target platform input
  let lessons := withReassessment platform input now (lessonsOf input targetSkill 1 (selected platform input now))
  let constrained : Bool :=
    (match input.constraints.availableMinutesPerWeek with
      | some budget => budget < totalMinutes lessons
      | none => false) ||
    (selected platform input now).length < (orderedGaps platform input now).length ||
    (candidates platform input).length < (related platform input).length
  { version := "curriculum-plan-v1"
    goalSummary := "Plan for " ++ input.nameOf targetSkill ++ ": " ++ input.goal.freeText
    status :=
      if constrained then .constrained
      else if lessons.any fun lesson => lesson.activityType = .diagnostic then .insufficientEvidence
      else .ready
    detectedGaps := orderedGaps platform input now
    lessons := lessons
    rationale := "Lessons are ranked deterministically by goal relevance, prerequisite order, and evidence-backed weakness. " ++
      "Assessment recommendations are signals, not the curriculum itself."
    assumptions := "Self-reports alone were not used to infer a gap." ::
      if constrained then ["Some lessons were deferred to honor the stated time or topic constraints."] else []
    generatedAt := now }

end Plan

end CommandConsole.Curriculum
