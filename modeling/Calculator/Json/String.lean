import Calculator.Decimal.Numeral
import Calculator.Json.Reading

/-! Strings in JSON text. Escapes stand for characters, two of them for one outside the basic plane;
control characters below the blank must be escaped. -/
namespace Calculator.Json.Reader

/-- The number that four hexadecimal digits write. -/
def unit? (a b c d : Char) : Option Nat := do
  let high := 16 * (← Text.hexValue? a) + (← Text.hexValue? b)
  let low := 16 * (← Text.hexValue? c) + (← Text.hexValue? d)
  return 256 * high + low

def simpleEscape? : Char → Option Char
  | '"' => some '"'
  | '\\' => some '\\'
  | '/' => some '/'
  | 'b' => some '\x08'
  | 'f' => some '\x0c'
  | 'n' => some '\n'
  | 'r' => some '\r'
  | 't' => some '\t'
  | _ => none

def isHighSurrogate (n : Nat) : Bool := 0xD800 ≤ n && n ≤ 0xDBFF

def isLowSurrogate (n : Nat) : Bool := 0xDC00 ≤ n && n ≤ 0xDFFF

def combine (high low : Nat) : Char :=
  Char.ofNat (0x10000 + 1024 * (high - 0xD800) + (low - 0xDC00))

/-- The character of a high surrogate and what follows it, which must be an escaped low one. -/
def surrogatePair? (high : Nat) : List Char → Option (Char × List Char)
  | '\\' :: 'u' :: a :: b :: c :: d :: cs =>
    match unit? a b c d with
    | some low =>
      if isLowSurrogate low then some (combine high low, cs) else none
    | none => none
  | _ => none

/-- The character that an escape stands for; `cs` starts behind the backslash. -/
def escape? : List Char → Option (Char × List Char)
  | 'u' :: a :: b :: c :: d :: cs =>
    match unit? a b c d with
    | some n =>
      if isHighSurrogate n then surrogatePair? n cs
      else if isLowSurrogate n then none
      else some (Char.ofNat n, cs)
    | none => none
  | e :: cs => (simpleEscape? e).map fun c => (c, cs)
  | [] => none

theorem length_lt_of_surrogatePair? {high : Nat} {cs rest : List Char} {c : Char}
    (h : surrogatePair? high cs = some (c, rest)) : rest.length < cs.length := by
  unfold surrogatePair? at h
  split at h
  next =>
    split at h
    next =>
      split at h
      next =>
        simp only [Option.some.injEq, Prod.mk.injEq] at h
        simp only [← h.2, List.length_cons]; omega
      next => cases h
    next => cases h
  next => cases h

theorem length_lt_of_escape? {cs rest : List Char} {c : Char}
    (h : escape? cs = some (c, rest)) : rest.length < cs.length := by
  unfold escape? at h
  split at h
  next =>
    split at h
    next =>
      split at h
      next => have := length_lt_of_surrogatePair? h; simp only [List.length_cons]; omega
      next =>
        split at h
        next => cases h
        next =>
          simp only [Option.some.injEq, Prod.mk.injEq] at h
          simp only [← h.2, List.length_cons]; omega
    next => cases h
  next =>
    obtain ⟨_, _, h⟩ := Option.map_eq_some_iff.mp h
    cases h
    simp
  next => cases h

/-- The characters of a string up to its closing quote, and what follows the quote. -/
def stringBody (cs : List Char) : Reading (List Char) cs :=
  match cs with
  | [] => none
  | c :: cs =>
    if c = '"' then some ⟨([], cs), Nat.lt_succ_self _⟩
    else if c = '\\' then
      match Reading.attach (escape? cs) fun _ _ => length_lt_of_escape? with
      | some ⟨(e, rest), h⟩ =>
        ((stringBody rest).map (e :: ·)).weaken (Nat.le_succ_of_le (Nat.le_of_lt h))
      | none => none
    else if c.toNat < 0x20 then none
    else ((stringBody cs).map (c :: ·)).weaken (Nat.le_succ _)
termination_by cs.length
decreasing_by
  · exact Nat.lt_succ_of_lt h
  · exact Nat.lt_succ_self _

def stringBody? (cs : List Char) : Option (List Char × List Char) := (stringBody cs).toOption

@[simp] theorem stringBody?_nil : stringBody? [] = none := by
  rw [stringBody?, stringBody]
  rfl

theorem stringBody?_cons (c : Char) (cs : List Char) :
    stringBody? (c :: cs) =
      if c = '"' then some ([], cs)
      else if c = '\\' then
        match escape? cs with
        | some (e, rest) => (stringBody? rest).map fun (text, rest) => (e :: text, rest)
        | none => none
      else if c.toNat < 0x20 then none
      else (stringBody? cs).map fun (text, rest) => (c :: text, rest) := by
  rw [stringBody?, stringBody]
  split
  next => rfl
  next =>
    split
    next =>
      split
      next h =>
        rw [Reading.eq_some_of_attach h]
        exact (Reading.toOption_weaken ..).trans (Reading.toOption_map ..)
      next h => rw [Reading.eq_none_of_attach h]; rfl
    next =>
      split
      next => rfl
      next => exact (Reading.toOption_weaken ..).trans (Reading.toOption_map ..)

theorem length_lt_of_stringBody? {cs text rest : List Char}
    (h : stringBody? cs = some (text, rest)) : rest.length < cs.length := by
  obtain ⟨⟨_, hr⟩, _, rfl⟩ := Option.map_eq_some_iff.mp h
  exact hr

theorem length_add_length_lt_of_stringBody? {cs text rest : List Char}
    (h : stringBody? cs = some (text, rest)) : text.length + rest.length < cs.length := by
  match cs with
  | [] => rw [stringBody?_nil] at h; cases h
  | c :: cs =>
    rw [stringBody?_cons] at h
    split at h
    next => cases h; simp
    next =>
      split at h
      next =>
        split at h
        next hesc =>
          obtain ⟨⟨text', rest'⟩, h', h⟩ := Option.map_eq_some_iff.mp h
          cases h
          have := length_lt_of_escape? hesc
          have := length_add_length_lt_of_stringBody? h'
          simp only [List.length_cons]; omega
        next => cases h
      next =>
        split at h
        next => cases h
        next =>
          obtain ⟨⟨text', rest'⟩, h', h⟩ := Option.map_eq_some_iff.mp h
          cases h
          have := length_add_length_lt_of_stringBody? h'
          simp only [List.length_cons]; omega
termination_by cs.length

end Calculator.Json.Reader
