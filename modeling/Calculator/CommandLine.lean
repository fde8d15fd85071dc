import Calculator.CommandLine.Arguments
import Calculator.Reply
import Calculator.Server

/-! The command line: evaluate one expression, or serve the endpoint. Arguments are judged in the
order given; a missing operand is found last. -/
namespace Calculator

namespace Text

/-- The characters with the Unicode property White_Space. -/
def isWhiteSpace (c : Char) : Bool :=
  let n := c.toNat
  (0x09 ≤ n && n ≤ 0x0D) || n = 0x20 || n = 0x85 || n = 0xA0 || n = 0x1680
    || (0x2000 ≤ n && n ≤ 0x200A) || n = 0x2028 || n = 0x2029 || n = 0x202F || n = 0x205F
    || n = 0x3000

def trimEnd (text : String) : String :=
  String.ofList (text.toList.reverse.dropWhile isWhiteSpace).reverse

end Text

namespace CommandLine

/-- Why reading the arguments ends without a command to run. -/
inductive Stop where
  | usage
  | help
  | version
deriving DecidableEq

structure EvaluateOptions where
  fromFile : Bool
  json : Bool
  limit : UInt64
  operand : String

inductive Command where
  | evaluate (options : EvaluateOptions)
  | serve (config : ServerConfig)

/-- What was given so far; nothing may be given twice. -/
structure Given where
  flags : List String := []
  limit? : Option UInt64 := none
  bind? : Option SocketAddress := none
  operand? : Option String := none

namespace Given

def addOption (g : Given) (name value : String) : Except Stop Given :=
  match name, g.limit?, g.bind? with
  | "max-depth", none, _ =>
    match Text.readUInt64? value with
    | some n => .ok { g with limit? := some n }
    | none => .error .usage
  | "bind", _, none =>
    match SocketAddress.ofText? value with
    | some a => .ok { g with bind? := some a }
    | none => .error .usage
  | _, _, _ => .error .usage

def addItem (g : Given) : Item → Except Stop Given
  | .flag name => if name ∈ g.flags then .error .usage else .ok { g with flags := name :: g.flags }
  | .option name value => g.addOption name value
  | .operand text =>
    if g.operand?.isSome then .error .usage else .ok { g with operand? := some text }
  | .help => .error .help
  | .fault => .error .usage

def ofArguments (names : OptionNames) (args : List String) : Except Stop Given :=
  (Item.ofArguments names args).foldlM addItem {}

end Given

def evaluateNames : OptionNames where
  flags := ["file", "json"]
  letters := [('f', "file"), ('j', "json")]
  valued := ["max-depth"]
  takesOperands := true

def serveNames : OptionNames where
  flags := []
  letters := []
  valued := ["bind", "max-depth"]
  takesOperands := false

def evaluateOptions (args : List String) : Except Stop EvaluateOptions := do
  let g ← Given.ofArguments evaluateNames args
  match g.operand? with
  | none => .error .usage
  | some operand => return {
      fromFile := "file" ∈ g.flags
      json := "json" ∈ g.flags
      limit := g.limit?.getD Nesting.defaultLimit
      operand := operand }

/-- A setting from its option, else from its variable, else by default. The variable is read only in
the absence of the option. -/
def setting (given? : Option α) (fallback? : Option String) (read? : String → Option α)
    (default : α) : Except Stop α :=
  match given?, fallback? with
  | some a, _ => .ok a
  | none, none => .ok default
  | none, some text =>
    match read? text with
    | some a => .ok a
    | none => .error .usage

def serverConfig (environment : String → Option String) (args : List String) :
    Except Stop ServerConfig := do
  let g ← Given.ofArguments serveNames args
  return {
    bind := ← setting g.bind? (environment "RECKON_BIND") SocketAddress.ofText?
      ServerConfig.defaultBind
    limit := ← setting g.limit? (environment "RECKON_MAX_DEPTH") Text.readUInt64?
      Nesting.defaultLimit }

/-- The command of the arguments behind the program's name, given the variables of the
environment. -/
def command (environment : String → Option String) : List String → Except Stop Command
  | "eval" :: args => (evaluateOptions args).map .evaluate
  | "serve" :: args => (serverConfig environment args).map .serve
  | "help" :: _ | "--help" :: _ => .error .help
  | "--version" :: _ => .error .version
  | arg :: _ =>
    match arg.toList with
    | '-' :: 'V' :: _ => .error .version
    | '-' :: 'h' :: _ => .error .help
    | _ => .error .usage
  | [] => .error .usage

def versionText : String := "reckon 0.1.0\n"

structure Output where
  exitCode : Nat
  stdout : String
  stderr : String
deriving DecidableEq

/-- Evaluates for a reader: the value alone, or the message of the error. -/
def plainOutput (expression : String) (limit : UInt64) : Output :=
  match evaluateWithLimit expression limit with
  | .ok value => ⟨0, NumberFormat.plain.floatText value ++ "\n", ""⟩
  | .error e => ⟨1, "", e.message ++ "\n"⟩

/-- Evaluates for a program: the body that the endpoint replies with. -/
def jsonOutput (expression : String) (limit : UInt64) : Output :=
  let reply := Reply.evaluated expression limit
  ⟨if reply.status = .ok then 0 else 1, reply.body.toJson.pretty ++ "\n", ""⟩

def unreadable (path : String) : Output :=
  ⟨1, "", "Failed to read the input file '" ++ path
    ++ "'. Perhaps this file does not exist?\n"⟩

/-- The expression to evaluate; that of a file loses the white space at its end. -/
def expression? (o : EvaluateOptions) (file : String → Option ByteArray) : Option String :=
  if o.fromFile then ((file o.operand).bind String.fromUTF8?).map Text.trimEnd
  else some o.operand

/-- What is printed and the exit code. What goes to the log stands apart from it, though both end up
in the same stream. -/
def evaluateOutput (o : EvaluateOptions) (file : String → Option ByteArray) : Output :=
  match expression? o file with
  | none => unreadable o.operand
  | some expression =>
    if o.json then jsonOutput expression o.limit else plainOutput expression o.limit

/-- What goes to the log before anything is printed. -/
def evaluateRecords (o : EvaluateOptions) (file : String → Option ByteArray) : List LogRecord :=
  ((expression? o file).map LogRecord.allOfSource).getD []

end CommandLine
end Calculator
