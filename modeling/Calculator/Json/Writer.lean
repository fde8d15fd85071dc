import Calculator.Decimal.NumberFormat

/-! JSON values and their text. Numbers are exact decimals; the sign is apart because a written zero
may carry one. Objects keep their members in the order written, and a name may occur more than once.
The text is on one line or indented by two blanks, and only quotes, backslashes and the control
characters below the blank are escaped. -/
namespace Calculator.Json

inductive Value where
  | null
  | bool (b : Bool)
  | number (negative : Bool) (magnitude : Decimal)
  | string (s : String)
  | array (items : List Value)
  | object (members : List (String × Value))

namespace Value

/-- The last member of that name; it replaces those before it. -/
def member? (name : String) : Value → Option Value
  | object members => ((members.filter fun m => m.1 = name).getLast?).map Prod.snd
  | _ => none

end Value

/-- Numbers keep a point, and an exponent appears outside `10 ^ (-5)` to `10 ^ 15`. -/
def numberFormat : NumberFormat where
  tie := .even
  positional lead := -5 ≤ lead && lead ≤ 15
  wholeKeepsPoint := true
  plusBeforeExponent := true

/-- The value of a double in JSON, which has no infinities. -/
def Value.ofFloat (x : Float) : Value :=
  let bits := Binary64.magnitudeBits x
  if bits < Binary64.infinityBits then
    .number (Binary64.isNegative x) (Decimal.shortest numberFormat.tie bits)
  else .null

def escaped (c : Char) : List Char :=
  if c = '"' then ['\\', '"']
  else if c = '\\' then ['\\', '\\']
  else if c = '\x08' then ['\\', 'b']
  else if c = '\x0c' then ['\\', 'f']
  else if c = '\n' then ['\\', 'n']
  else if c = '\r' then ['\\', 'r']
  else if c = '\t' then ['\\', 't']
  else if c.toNat < 0x20 then
    ['\\', 'u', '0', '0', Nat.digitChar (c.toNat / 16), Nat.digitChar (c.toNat % 16)]
  else [c]

def stringText (s : String) : List Char :=
  '"' :: (s.toList.flatMap escaped ++ ['"'])

inductive Spacing where
  | compact
  | pretty
deriving DecidableEq

namespace Spacing

/-- What separates items that stand at a depth of nesting. -/
def line : Spacing → Nat → List Char
  | compact, _ => []
  | pretty, depth => '\n' :: List.replicate (2 * depth) ' '

def colon : Spacing → List Char
  | compact => [':']
  | pretty => [':', ' ']

end Spacing

mutual

def Value.text (s : Spacing) (depth : Nat) : Value → List Char
  | .null => ['n', 'u', 'l', 'l']
  | .bool true => ['t', 'r', 'u', 'e']
  | .bool false => ['f', 'a', 'l', 's', 'e']
  | .number negative magnitude => numberFormat.signedText negative magnitude
  | .string text => stringText text
  | .array [] => ['[', ']']
  | .array (v :: vs) =>
    '[' :: (s.line (depth + 1) ++ v.text s (depth + 1) ++ itemsText s (depth + 1) vs
      ++ s.line depth ++ [']'])
  | .object [] => ['{', '}']
  | .object ((name, v) :: ms) =>
    '{' :: (s.line (depth + 1) ++ stringText name ++ s.colon ++ v.text s (depth + 1)
      ++ membersText s (depth + 1) ms ++ s.line depth ++ ['}'])

/-- Items behind the first one. -/
def itemsText (s : Spacing) (depth : Nat) : List Value → List Char
  | [] => []
  | v :: vs => ',' :: (s.line depth ++ v.text s depth ++ itemsText s depth vs)

/-- Members behind the first one. -/
def membersText (s : Spacing) (depth : Nat) : List (String × Value) → List Char
  | [] => []
  | (name, v) :: ms =>
    ',' :: (s.line depth ++ stringText name ++ s.colon ++ v.text s depth ++ membersText s depth ms)

end

def Value.compact (v : Value) : String := String.ofList (v.text .compact 0)

def Value.pretty (v : Value) : String := String.ofList (v.text .pretty 0)

end Calculator.Json
