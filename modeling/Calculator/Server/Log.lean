import Calculator.Decimal.NumberFormat
import Calculator.Endpoint

/-! The log: one line per event of the server and per character that is dropped from a source, kept
if it is at least as severe as the verbosity asks. Texts are written as they are, except the characters
of a source, which are quoted. -/
namespace Calculator

inductive Severity where
  | error
  | warn
  | info
  | debug
  | trace
deriving DecidableEq

namespace Severity

def rank : Severity → Nat
  | error => 0
  | warn => 1
  | info => 2
  | debug => 3
  | trace => 4

def label : Severity → String
  | error => "ERROR"
  | warn => "WARN"
  | info => "INFO"
  | debug => "DEBUG"
  | trace => "TRACE"

/-- Names are read in any letter case. -/
def ofName? (name : String) : Option Severity :=
  match String.ofList (name.toList.map Char.toLower) with
  | "error" => some error
  | "warn" => some warn
  | "info" => some info
  | "debug" => some debug
  | "trace" => some trace
  | _ => none

/-- The least severe level to keep: a level by itself or one given to this program by name. -/
def verbosity (setting? : Option String) : Severity :=
  match setting? with
  | none => info
  | some setting =>
    match setting.toList with
    | 'r' :: 'e' :: 'c' :: 'k' :: 'o' :: 'n' :: '=' :: level =>
      (ofName? (String.ofList level)).getD info
    | _ => (ofName? setting).getD info

end Severity

structure LogRecord where
  severity : Severity
  source : String
  message : String

namespace LogRecord

def line (r : LogRecord) : String := r.severity.label ++ " " ++ r.source ++ ": " ++ r.message

def lines (verbosity : Severity) (records : List LogRecord) : List String :=
  (records.filter fun r => r.severity.rank ≤ verbosity.rank).map line

/-- Results for the log: whole numbers keep a point, and only very large and very small numbers have
an exponent. -/
def numberFormat : NumberFormat where
  tie := .up
  positional lead := -4 ≤ lead && lead ≤ 15
  wholeKeepsPoint := true
  plusBeforeExponent := false

def server (severity : Severity) (message : String) : LogRecord :=
  ⟨severity, "reckon::server", message⟩

def ofEvent : Endpoint.Event → LogRecord
  | .evaluated expression result => server .debug
      ("evaluated expression expression=" ++ expression ++ " result="
        ++ numberFormat.floatText result)
  | .failed expression error => server .debug
      ("expression failed to evaluate expression=" ++ expression ++ " error=" ++ error)
  | .rejected method status error => server .warn
      ("rejected request method=" ++ method ++ " status=" ++ toString status.code ++ " error="
        ++ error)

def ofDropped (c : Char) (offset : Nat) : LogRecord :=
  ⟨.trace, "reckon::interpreter::lexer",
    "dropping unrecognised input offset=" ++ toString offset ++ " slice="
      ++ Text.quoted c.toString⟩

/-- The records of tokenizing a source. -/
def allOfSource (source : String) : List LogRecord :=
  (droppedCharacters source).map fun (c, offset) => ofDropped c offset

/-- The expression that was tokenized for an event, if one was. -/
def expression? : Endpoint.Event → Option String
  | .evaluated expression _ | .failed expression _ => some expression
  | .rejected .. => none

/-- All records of an event; the dropped characters come first. -/
def allOfEvent (e : Endpoint.Event) : List LogRecord :=
  ((expression? e).map allOfSource).getD [] ++ [ofEvent e]

end LogRecord
end Calculator
