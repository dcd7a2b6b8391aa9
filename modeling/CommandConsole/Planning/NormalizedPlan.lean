import CommandConsole.Execution.Text
import CommandConsole.Library.InsertionMap
import Mathlib.Data.List.Nodup

/-! # Normalized plans

The steps of a plan as normalization leaves them: canonical ids that are distinct, the authored ids beside them,
and dependencies that may name either.
-/
namespace CommandConsole.Planning
open Library
open CommandConsole.Execution (isBlank)
set_option autoImplicit false

section Json

/-- A JSON value; a number is the text that it is printed as. -/
inductive Json where
  | null
  | bool (value : Bool)
  | number (text : String)
  | string (text : String)
  | array (items : List Json)
  | object (members : List (String × Json))

def Json.isNull : Json → Bool
  | null => true
  | _ => false

mutual

/-- `String(value)`, none where the conversion throws: an own member `toString` of a JSON object is no function. -/
def Json.display : Json → Option String
  | .null => some "null"
  | .bool value => some (if value then "true" else "false")
  | .number text => some text
  | .string text => some text
  | .array items => (Json.displayItems items).map ",".intercalate
  | .object members => if members.any fun member => member.1 = "toString" then none else some "[object Object]"

def Json.displayItems : List Json → Option (List String)
  | [] => some []
  | item :: rest =>
    (if item.isNull then some "" else item.display).bind fun text =>
      (Json.displayItems rest).map fun texts => text :: texts

end

abbrev Record := List (String × Json)

def Record.get (record : Record) (key : String) : Option Json := InsertionMap.get key record

def readString (record : Record) (key : String) : Option String :=
  match record.get key with
  | some (.string text) => if isBlank text then none else some text
  | _ => none

def readBoolean (record : Record) (key : String) : Option Bool :=
  match record.get key with
  | some (.bool value) => some value
  | _ => none

end Json

inductive ApprovalMode where
  | required
  | optional
  | blocked
  deriving DecidableEq

/-- The action of a step that has no object for it is empty. -/
structure NormalizedPlanStep where
  id : String
  sourceId : Option String
  index : Nat
  type : String
  action : Record
  inputs : Record
  dependencies : List String
  approvalMode : ApprovalMode

structure NormalizedPlan where
  planId : String
  validatedGraphHash : String
  steps : List NormalizedPlanStep
  distinct : (steps.map NormalizedPlanStep.id).Nodup

def NormalizedPlan.stepIds (plan : NormalizedPlan) : List String := plan.steps.map NormalizedPlanStep.id

end CommandConsole.Planning
