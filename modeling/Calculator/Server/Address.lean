import Calculator.Decimal.Numeral

/-! Socket addresses: an IPv4 or IPv6 address with a port, in numbers. -/
namespace Calculator

inductive SocketAddress where
  | v4 (octets : Vector UInt8 4) (port : UInt16)
  | v6 (groups : Vector UInt16 8) (scope : UInt32) (port : UInt16)
deriving DecidableEq

namespace SocketAddress

def digitValue? (radix : Nat) (c : Char) : Option Nat :=
  (Text.hexValue? c).filter (· < radix)

/-- Splits off a number of at least one and at most `maxDigits` digits which is below `bound`. -/
def splitNumber? (radix maxDigits bound : Nat) (cs : List Char) : Option (Nat × List Char) :=
  let isDigit c := (digitValue? radix c).isSome
  let digits := cs.takeWhile isDigit
  let n := digits.foldl (fun n c => radix * n + (digitValue? radix c).getD 0) 0
  if digits = [] || maxDigits < digits.length || bound ≤ n then none
  else some (n, cs.dropWhile isDigit)

/-- An octet has no leading zero. -/
def splitOctet? : List Char → Option (Nat × List Char)
  | '0' :: c :: cs => if c.isDigit then none else some (0, c :: cs)
  | cs => splitNumber? 10 3 UInt8.size cs

def splitChar? (c : Char) : List Char → Option (List Char)
  | d :: cs => if d = c then some cs else none
  | [] => none

def splitIPv4? (cs : List Char) : Option (Vector UInt8 4 × List Char) := do
  let (a, cs) ← splitOctet? cs
  let (b, cs) ← splitOctet? (← splitChar? '.' cs)
  let (c, cs) ← splitOctet? (← splitChar? '.' cs)
  let (d, cs) ← splitOctet? (← splitChar? '.' cs)
  return (#v[a, b, c, d].map UInt8.ofNat, cs)

/-- The two groups of an IPv4 address that stands at the end of an IPv6 one. -/
def groupsOfIPv4 (octets : Vector UInt8 4) : List Nat :=
  [256 * octets[0].toNat + octets[1].toNat, 256 * octets[2].toNat + octets[3].toNat]

/-- Splits off up to `limit` groups; the last two may be written as an IPv4 address, which the flag
tells. -/
def splitGroups (first : Bool) : Nat → List Char → List Nat × Bool × List Char
  | 0, cs => ([], false, cs)
  | limit + 1, cs =>
    match if first then some cs else splitChar? ':' cs with
    | none => ([], false, cs)
    | some inner =>
      match if limit = 0 then none else splitIPv4? inner with
      | some (octets, rest) => (groupsOfIPv4 octets, true, rest)
      | none =>
        match splitNumber? 16 4 UInt16.size inner with
        | none => ([], false, cs)
        | some (group, rest) =>
          let (groups, hasIPv4, rest) := splitGroups false limit rest
          (group :: groups, hasIPv4, rest)

def groupsOf? (groups : List Nat) : Option (Vector UInt16 8) :=
  if h : groups.length = 8 then some ((Vector.mk groups.toArray (by simp [h])).map UInt16.ofNat)
  else none

/-- Two colons stand for at least one group of zeros. -/
def splitIPv6? (cs : List Char) : Option (Vector UInt16 8 × List Char) := do
  let (head, hasIPv4, rest) := splitGroups true 8 cs
  if head.length = 8 then return (← groupsOf? head, rest)
  else if hasIPv4 then none
  else
    match rest with
    | ':' :: ':' :: rest =>
      let (tail, _, rest) := splitGroups true (7 - head.length) rest
      let zeros := List.replicate (8 - head.length - tail.length) 0
      return (← groupsOf? (head ++ zeros ++ tail), rest)
    | _ => none

def portOf? (cs : List Char) : Option UInt16 := do
  match splitNumber? 10 cs.length UInt16.size (← splitChar? ':' cs) with
  | some (port, []) => some (UInt16.ofNat port)
  | _ => none

def splitScope (cs : List Char) : UInt32 × List Char :=
  match (splitChar? '%' cs).bind (splitNumber? 10 cs.length UInt32.size) with
  | some (scope, rest) => (UInt32.ofNat scope, rest)
  | none => (0, cs)

def ofText? (text : String) : Option SocketAddress :=
  match text.toList with
  | '[' :: cs => do
    let (groups, cs) ← splitIPv6? cs
    let (scope, cs) := splitScope cs
    return .v6 groups scope (← portOf? (← splitChar? ']' cs))
  | cs => do
    let (octets, cs) ← splitIPv4? cs
    return .v4 octets (← portOf? cs)

def dotted (octets : List Nat) : String := ".".intercalate (octets.map toString)

def colons (groups : List Nat) : String :=
  ":".intercalate (groups.map fun g => String.ofList (Nat.toDigits 16 g))

/-- Where the longest run of zeros starts and how long it is; of equal runs the first. -/
def longestZeros (groups : List Nat) : Nat × Nat :=
  (List.range groups.length).foldl
    (fun best start =>
      let run := ((groups.drop start).takeWhile (· = 0)).length
      if best.2 < run then (start, run) else best)
    (0, 0)

/-- Two colons replace the longest run of at least two zeros; a mapped IPv4 address is dotted. -/
def ipv6Text (groups : List Nat) : String :=
  match groups with
  | [0, 0, 0, 0, 0, 0xFFFF, high, low] =>
    "::ffff:" ++ dotted [high / 256, high % 256, low / 256, low % 256]
  | groups =>
    let (start, run) := longestZeros groups
    if run < 2 then colons groups
    else colons (groups.take start) ++ "::" ++ colons (groups.drop (start + run))

def hostText : SocketAddress → String
  | v4 octets _ => dotted (octets.toList.map UInt8.toNat)
  | v6 groups scope _ =>
    let scopeText := if scope = 0 then "" else "%" ++ toString scope.toNat
    "[" ++ ipv6Text (groups.toList.map UInt16.toNat) ++ scopeText ++ "]"

end SocketAddress
end Calculator
