import Harp.Lib.Json
import Harp.Lib.Text

/-
  Reading a model's answer (`HarpAgent.parseModelOutput` and its helpers in
  `src/agents/BaseAgent.ts`).
-/

namespace Harp

/-- The JSON contract the model is asked to satisfy. -/
structure ModelOutput where
  summary : String
  findings : List String
  risks : List String
  recommendations : List String
  unknowns : List String
  nextSafeStep : String
  assumptions : List String
  filesAffected : Option (List String)
  testPlan : Option (List String)
  rollbackPlan : Option (List String)
  validationCommands : Option (List String)
  deriving DecidableEq, Repr

namespace HarpAgent

/-- `typeof value === "string" ? value : ""`. -/
def str : Option Json → String
  | some (.str s) => s
  | _ => ""

/-- The strings of an array, and nothing of any other value. -/
def strArray : Option Json → List String
  | some (.arr items) => items.filterMap fun
    | .str s => some s
    | _ => none
  | _ => []

theorem strArray_map_str (ss : List String) : strArray (some (.arr (ss.map .str))) = ss := by
  induction ss with
  | nil => rfl
  | cons s ss ih => exact congrArg (s :: ·) ih

/-- `value ? this.strArray(value) : undefined`. -/
def optionalStrArray (value : Option Json) : Option (List String) :=
  if (value.map Json.truthy).getD false then some (strArray value) else none

/-- The text without code fences and surrounding white space. -/
def cleaned (text : String) : List Char :=
  Js.trimChars (Js.removeAll "```".toList
    (Js.removeAllIgnoreCase "```json".toList text.toList))

/-- The span from the first `{` to the last `}`. -/
def candidate (cleaned : List Char) : Option (List Char) :=
  match Js.indexOf '{' cleaned, Js.lastIndexOf '}' cleaned with
  | some firstBrace, some lastBrace =>
    if lastBrace ≤ firstBrace then none
    else some (Js.slice firstBrace (lastBrace + 1) cleaned)
  | _, _ => none

def outputOf (obj : Json) : ModelOutput where
  summary := str (obj.get "summary")
  findings := strArray (obj.get "findings")
  risks := strArray (obj.get "risks")
  recommendations := strArray (obj.get "recommendations")
  unknowns := strArray (obj.get "unknowns")
  nextSafeStep := str (obj.get "nextSafeStep")
  assumptions := strArray (obj.get "assumptions")
  filesAffected := optionalStrArray (obj.get "filesAffected")
  testPlan := optionalStrArray (obj.get "testPlan")
  rollbackPlan := optionalStrArray (obj.get "rollbackPlan")
  validationCommands := optionalStrArray (obj.get "validationCommands")

/-- Defensive parse: `none` on any malformed output. -/
def parseModelOutput (text : String) : Option ModelOutput :=
  match candidate (cleaned text) with
  | none => none
  | some span => (Json.parse span).map outputOf

example : parseModelOutput "no object" = none := by decide

example : (parseModelOutput "{}").map (·.summary) = some "" := by decide

end HarpAgent

end Harp
