import Mathlib.Data.List.Forall2
import Calculator.Json.Embedded

/-! The grammar of JSON text: which texts spell which value. Blanks may stand around every value,
name and comma. A character of a string can be spelled in several ways, and so can a number. -/
namespace Calculator.Json

open Reader

def Blanks (cs : List Char) : Prop := ∀ c ∈ cs, isBlank c

/-- A character of a string stands for itself, or for what an escape says: the character of a
letter, that of a code unit, or that of two code units which are surrogates of each other. -/
inductive CharText : Char → List Char → Prop where
  | plain {c : Char} (hquote : c ≠ '"') (hbackslash : c ≠ '\\') (hcontrol : 0x20 ≤ c.toNat) :
      CharText c [c]
  | letter {e c : Char} (h : simpleEscape? e = some c) : CharText c ['\\', e]
  | unit {a b c d : Char} {n : Nat} (h : unit? a b c d = some n)
      (hhigh : isHighSurrogate n = false) (hlow : isLowSurrogate n = false) :
      CharText (Char.ofNat n) ['\\', 'u', a, b, c, d]
  | pair {a b c d a' b' c' d' : Char} {high low : Nat} (h : unit? a b c d = some high)
      (h' : unit? a' b' c' d' = some low) (hhigh : isHighSurrogate high)
      (hlow : isLowSurrogate low) :
      CharText (combine high low) ['\\', 'u', a, b, c, d, '\\', 'u', a', b', c', d']

/-- The characters of a string and what stands between its quotes. -/
inductive StringText : List Char → List Char → Prop where
  | nil : StringText [] []
  | cons {c : Char} {text cs ds : List Char} (h : CharText c cs) (hs : StringText text ds) :
      StringText (c :: text) (cs ++ ds)

inductive FractionText : List Char → List Char → Prop where
  | none : FractionText [] []
  | digits {digits : List Char} (h : Text.isDigits digits) : FractionText digits ('.' :: digits)

inductive ExponentText : Int → List Char → Prop where
  | none : ExponentText 0 []
  | digits {letter : Char} {sign digits : List Char} (hletter : letter = 'e' ∨ letter = 'E')
      (hsign : sign ∈ [[], ['+'], ['-']]) (h : Text.isDigits digits) :
      ExponentText
        (if sign = ['-'] then -(Nat.ofDigitChars 10 digits 0 : Int)
          else Nat.ofDigitChars 10 digits 0)
        (letter :: (sign ++ digits))

/-- The text of a number. Its whole part starts with a zero only if that is all of it. -/
inductive NumberText.Spelled : NumberText → List Char → Prop where
  | intro (negative : Bool) {whole fraction point letter : List Char} {exponent : Int}
      (hwhole : Text.isDigits whole) (hzero : whole.head? = some '0' → whole = ['0'])
      (hfraction : FractionText fraction point) (hexponent : ExponentText exponent letter) :
      Spelled ⟨negative, whole, fraction, exponent⟩
        ((if negative then ['-'] else []) ++ (whole ++ (point ++ letter)))

/-- The name of a member with the colon behind it. -/
inductive NameText : String → List Char → Prop where
  | intro {name before cs after : List Char} (hbefore : Blanks before) (h : StringText name cs)
      (hafter : Blanks after) :
      NameText (String.ofList name) (before ++ '"' :: (cs ++ '"' :: (after ++ [':'])))

/-- What a production spells. An element is a value with blanks around it. -/
inductive Part where
  | value (v : Value)
  | element (v : Value)
  | elements (vs : List Value)
  | members (ms : List (String × Value))

inductive Spells : Part → List Char → Prop where
  | null : Spells (.value .null) ['n', 'u', 'l', 'l']
  | true : Spells (.value (.bool true)) ['t', 'r', 'u', 'e']
  | false : Spells (.value (.bool false)) ['f', 'a', 'l', 's', 'e']
  | number {t : NumberText} {cs : List Char} (h : t.Spelled cs) (hrange : t.overflows = false) :
      Spells (.value (.number t.negative t.value)) cs
  | string {text cs : List Char} (h : StringText text cs) :
      Spells (.value (.string (String.ofList text))) ('"' :: (cs ++ ['"']))
  | emptyArray {blanks : List Char} (h : Blanks blanks) :
      Spells (.value (.array [])) ('[' :: (blanks ++ [']']))
  | array {vs : List Value} {cs : List Char} (h : Spells (.elements vs) cs) :
      Spells (.value (.array vs)) ('[' :: (cs ++ [']']))
  | emptyObject {blanks : List Char} (h : Blanks blanks) :
      Spells (.value (.object [])) ('{' :: (blanks ++ ['}']))
  | object {ms : List (String × Value)} {cs : List Char} (h : Spells (.members ms) cs) :
      Spells (.value (.object ms)) ('{' :: (cs ++ ['}']))
  | element {v : Value} {before cs after : List Char} (hbefore : Blanks before)
      (h : Spells (.value v) cs) (hafter : Blanks after) :
      Spells (.element v) (before ++ (cs ++ after))
  | lastElement {v : Value} {cs : List Char} (h : Spells (.element v) cs) :
      Spells (.elements [v]) cs
  | moreElements {v : Value} {vs : List Value} {cs ds : List Char} (h : Spells (.element v) cs)
      (hs : Spells (.elements vs) ds) : Spells (.elements (v :: vs)) (cs ++ ',' :: ds)
  | lastMember {name : String} {v : Value} {cs ds : List Char} (hname : NameText name cs)
      (h : Spells (.element v) ds) : Spells (.members [(name, v)]) (cs ++ ds)
  | moreMembers {name : String} {v : Value} {ms : List (String × Value)} {cs ds es : List Char}
      (hname : NameText name cs) (h : Spells (.element v) ds) (hs : Spells (.members ms) es) :
      Spells (.members ((name, v) :: ms)) (cs ++ (ds ++ ',' :: es))

mutual

/-- How deep arrays and objects nest. -/
def Value.depth : Value → Nat
  | .array items => itemsDepth items + 1
  | .object members => membersDepth members + 1
  | _ => 0

def itemsDepth : List Value → Nat
  | [] => 0
  | v :: vs => max v.depth (itemsDepth vs)

def membersDepth : List (String × Value) → Nat
  | [] => 0
  | (_, v) :: ms => max v.depth (membersDepth ms)

end

/-- The text of one value that does not nest too deep. -/
structure Document (v : Value) (cs : List Char) : Prop where
  spells : Spells (.element v) cs
  depth : v.depth ≤ maxLevels

/-- The value that a value with embedded texts stands for. -/
inductive Stands : Value → Value → Prop where
  | scalar {v : Value} (harray : ∀ vs, v ≠ .array vs) (hobject : ∀ ms, v ≠ .object ms) : Stands v v
  | array {vs ws : List Value} (h : List.Forall₂ Stands vs ws) : Stands (.array vs) (.array ws)
  | object {ms ns : List (String × Value)} (hname : ms.head?.map Prod.fst ≠ some embeddedName)
      (hnames : ms.map Prod.fst = ns.map Prod.fst)
      (h : List.Forall₂ Stands (ms.map Prod.snd) (ns.map Prod.snd)) :
      Stands (.object ms) (.object ns)
  | embedded {text : String} {inner v : Value} (htext : Document inner text.toList)
      (h : Stands inner v) : Stands (.object [(embeddedName, .string text)]) v

end Calculator.Json
