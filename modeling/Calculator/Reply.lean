import Calculator.Evaluate
import Calculator.Json.Embedded
import Calculator.Json.Writer

/-! Answering a request for an evaluation. A body says what became of the request and carries no
tag: its members tell the three cases apart. -/
namespace Calculator

inductive ReplyBody where
  | success (expression : String) (result : Float) (message : String)
  | failure (expression : String) (error : String)
  | rejected (error : String)

namespace ReplyBody

def successMessage : String := "✅ Parsed and evaluated successfully"

/-- A result that is not finite is written as null. -/
def toJson : ReplyBody → Json.Value
  | success expression result message => .object [("expression", .string expression),
      ("result", .ofFloat result), ("message", .string message)]
  | failure expression error => .object [("expression", .string expression),
      ("error", .string error)]
  | rejected error => .object [("error", .string error)]

end ReplyBody

/-- The statuses of HTTP that replies use. -/
inductive Status where
  | ok
  | badRequest
  | methodNotAllowed
deriving DecidableEq

def Status.code : Status → Nat
  | ok => 200
  | badRequest => 400
  | methodNotAllowed => 405

structure Reply where
  status : Status
  body : ReplyBody

namespace Reply

def methodNotAllowed : Reply := ⟨.methodNotAllowed, .rejected "Use POST method"⟩

def missingExpression : Reply := ⟨.badRequest, .rejected "Missing 'expression' in body"⟩

def evaluated (expression : String) (limit : UInt64) : Reply :=
  match evaluateWithLimit expression limit with
  | .ok result => ⟨.ok, .success expression result ReplyBody.successMessage⟩
  | .error e => ⟨.badRequest, .failure expression e.message⟩

/-- The expression of a body: the last member of that name, if it is a string and not empty. -/
def extractExpression (body : ByteArray) : Option String := do
  match (← (← Json.Value.ofBytes? body).member? "expression") with
  | .string expression => if expression = "" then none else some expression
  | _ => none

/-- Methods are case sensitive, and a refused method is refused whatever the body holds. -/
def handle (method : String) (body : ByteArray) (limit : UInt64) : Reply :=
  if method = "POST" then
    match extractExpression body with
    | some expression => evaluated expression limit
    | none => missingExpression
  else methodNotAllowed

end Reply
end Calculator
