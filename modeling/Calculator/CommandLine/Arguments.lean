/-! The shapes of command line arguments. Reading stops at the first argument that cannot be read,
so what stands before it is still seen first. -/
namespace Calculator.CommandLine

/-- The options a command knows, without their dashes. -/
structure OptionNames where
  flags : List String
  /-- Letters that stand for flags, alone or bundled. -/
  letters : List (Char × String)
  /-- Options with a value, given behind an equals sign or as the next argument. -/
  valued : List String
  takesOperands : Bool

inductive Item where
  | flag (name : String)
  | option (name value : String)
  | operand (text : String)
  | help
  | fault
deriving DecidableEq

namespace Item

def ofOperand (names : OptionNames) (text : String) : Item :=
  if names.takesOperands then .operand text else .fault

def ofLetter (names : OptionNames) (c : Char) : Item :=
  match names.letters.lookup c with
  | some name => .flag name
  | none => if c = 'h' then .help else .fault

/-- An argument that starts with a dash is never taken as a value, except the dash alone. -/
def looksLikeOption (arg : String) : Bool :=
  match arg.toList with
  | '-' :: _ :: _ => true
  | _ => false

/-- A long option with its value; the value may be missing where it cannot be the next argument. -/
def ofLong (names : OptionNames) (name : String) : Option String → Item
  | none =>
    if name ∈ names.flags then .flag name
    else if name = "help" then .help
    else .fault
  | some value => if name ∈ names.valued then .option name value else .fault

def splitEquals (cs : List Char) : String × Option String :=
  match cs.dropWhile (· ≠ '=') with
  | [] => (String.ofList cs, none)
  | _ :: value => (String.ofList (cs.takeWhile (· ≠ '=')), some (String.ofList value))

/-- Behind two dashes alone every argument is an operand. -/
def ofArguments (names : OptionNames) : List String → List Item
  | [] => []
  | arg :: args =>
    match arg.toList with
    | ['-', '-'] => args.map (ofOperand names)
    | '-' :: '-' :: cs =>
      match splitEquals cs, args with
      | (name, none), value :: rest =>
        if name ∈ names.valued then
          if looksLikeOption value then [fault]
          else option name value :: ofArguments names rest
        else ofLong names name none :: ofArguments names (value :: rest)
      | (name, value?), args => ofLong names name value? :: ofArguments names args
    | '-' :: c :: cs => (c :: cs).map (ofLetter names) ++ ofArguments names args
    | _ => ofOperand names arg :: ofArguments names args
termination_by args => args.length

end Item
end Calculator.CommandLine
