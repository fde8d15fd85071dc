import Calculator.Json.Number
import Calculator.Json.String
import Calculator.Json.Writer

/-! Reading one JSON value. There are no comments, no trailing commas and nothing behind the value;
arrays and objects nest to a fixed depth, and a number out of the range of doubles is refused. -/
namespace Calculator.Json

/-- How deep arrays and objects may nest. -/
def maxLevels : Nat := 127

namespace Reader

def isBlank (c : Char) : Bool := c = ' ' || c = '\t' || c = '\n' || c = '\r'

def skipBlanks (cs : List Char) : List Char := cs.dropWhile isBlank

theorem length_skipBlanks_le (cs : List Char) : (skipBlanks cs).length ≤ cs.length :=
  (List.dropWhile_suffix isBlank).length_le

def word? : List Char → Option (Value × List Char)
  | 'n' :: 'u' :: 'l' :: 'l' :: cs => some (.null, cs)
  | 't' :: 'r' :: 'u' :: 'e' :: cs => some (.bool true, cs)
  | 'f' :: 'a' :: 'l' :: 's' :: 'e' :: cs => some (.bool false, cs)
  | _ => none

def number? (cs : List Char) : Option (Value × List Char) :=
  match NumberText.split? cs with
  | some (t, rest) => if t.overflows then none else some (.number t.negative t.value, rest)
  | none => none

/-- A value that holds no other values. -/
def scalar? (cs : List Char) : Option (Value × List Char) :=
  match cs with
  | '"' :: cs => (stringBody? cs).map fun (text, rest) => (.string (String.ofList text), rest)
  | cs => word? cs <|> number? cs

theorem length_lt_of_word? {cs rest : List Char} {v : Value}
    (h : word? cs = some (v, rest)) : rest.length < cs.length := by
  unfold word? at h
  split at h <;> cases h <;> simp only [List.length_cons] <;> omega

theorem length_lt_of_number? {cs rest : List Char} {v : Value}
    (h : number? cs = some (v, rest)) : rest.length < cs.length := by
  unfold number? at h
  split at h
  next hs =>
    split at h
    next => cases h
    next => cases h; exact NumberText.length_lt_of_split? hs
  next => cases h

theorem length_lt_of_scalar? {cs rest : List Char} {v : Value}
    (h : scalar? cs = some (v, rest)) : rest.length < cs.length := by
  unfold scalar? at h
  split at h
  next =>
    obtain ⟨⟨text', rest'⟩, h', h⟩ := Option.map_eq_some_iff.mp h
    cases h
    have := length_lt_of_stringBody? h'
    simp only [List.length_cons]; omega
  next =>
    cases hw : word? cs with
    | some r => rw [hw] at h; cases h; exact length_lt_of_word? hw
    | none => rw [hw] at h; exact length_lt_of_number? h

/-- The name in front of a member's value, the colon and the blanks around them. -/
def memberName? : List Char → Option (String × List Char)
  | '"' :: cs =>
    match stringBody? cs with
    | some (name, rest) =>
      match skipBlanks rest with
      | ':' :: rest => some (String.ofList name, skipBlanks rest)
      | _ => none
    | none => none
  | _ => none

theorem length_lt_of_memberName? {cs rest : List Char} {name : String}
    (h : memberName? cs = some (name, rest)) : rest.length < cs.length := by
  unfold memberName? at h
  split at h
  next =>
    split at h
    next name' rest' hs =>
      split at h
      next rest'' hb =>
        cases h
        have := length_lt_of_stringBody? hs
        have := length_skipBlanks_le rest'
        have := length_skipBlanks_le rest''
        simp only [hb, List.length_cons] at *
        omega
      next => cases h
    next => cases h
  next => cases h

/-- Whether more follows an item: a comma, or the closing character. -/
def separator? (close : Char) (cs : List Char) : Option (Bool × List Char) :=
  match skipBlanks cs with
  | c :: rest =>
    if c = ',' then some (true, skipBlanks rest)
    else if c = close then some (false, rest)
    else none
  | [] => none

theorem length_lt_of_separator? {close : Char} {cs rest : List Char} {more : Bool}
    (h : separator? close cs = some (more, rest)) : rest.length < cs.length := by
  have hb := length_skipBlanks_le cs
  unfold separator? at h
  split at h
  next c rest' hc =>
    rw [hc, List.length_cons] at hb
    have := length_skipBlanks_le rest'
    split at h
    next => cases h; omega
    next =>
      split at h
      next => cases h; omega
      next => cases h
  next => cases h

/-- What follows the closing character, if it comes next. -/
def closed? (close : Char) (cs : List Char) : Option (Unit × List Char) :=
  match skipBlanks cs with
  | c :: rest => if c = close then some ((), rest) else none
  | [] => none

theorem length_lt_of_closed? {close : Char} {cs rest : List Char} {u : Unit}
    (h : closed? close cs = some (u, rest)) : rest.length < cs.length := by
  have hb := length_skipBlanks_le cs
  unfold closed? at h
  split at h
  next c rest' hc =>
    rw [hc, List.length_cons] at hb
    split at h
    next => cases h; omega
    next => cases h
  next => cases h

mutual

/-- A value at the very front; arrays and objects in it may nest `levels` deep. -/
def value (levels : Nat) (cs : List Char) : Reading Value cs :=
  match cs with
  | '[' :: inner =>
    match levels with
    | 0 => none
    | levels + 1 =>
      match Reading.attach (closed? ']' inner) fun _ _ => length_lt_of_closed? with
      | some ⟨(_, rest), h⟩ => some ⟨(.array [], rest), Nat.lt_succ_of_lt h⟩
      | none =>
        have h := length_skipBlanks_le inner
        ((items levels (skipBlanks inner)).map .array).weaken (Nat.le_succ_of_le h)
  | '{' :: inner =>
    match levels with
    | 0 => none
    | levels + 1 =>
      match Reading.attach (closed? '}' inner) fun _ _ => length_lt_of_closed? with
      | some ⟨(_, rest), h⟩ => some ⟨(.object [], rest), Nat.lt_succ_of_lt h⟩
      | none =>
        have h := length_skipBlanks_le inner
        ((members levels (skipBlanks inner)).map .object).weaken (Nat.le_succ_of_le h)
  | cs => Reading.attach (scalar? cs) fun _ _ => length_lt_of_scalar?
termination_by 2 * cs.length
decreasing_by
  · simp only [List.length_cons]; omega
  · simp only [List.length_cons]; omega

/-- Items up to the closing bracket; at least one. -/
def items (levels : Nat) (cs : List Char) : Reading (List Value) cs :=
  match value levels cs with
  | none => none
  | some ⟨(v, rest), hv⟩ =>
    match Reading.attach (separator? ']' rest) fun _ _ => length_lt_of_separator? with
    | none => none
    | some ⟨(false, rest'), h⟩ => some ⟨([v], rest'), Nat.lt_trans h hv⟩
    | some ⟨(true, rest'), h⟩ =>
      have h : rest'.length < cs.length := Nat.lt_trans h hv
      ((items levels rest').map (v :: ·)).weaken (Nat.le_of_lt h)
termination_by 2 * cs.length + 1

/-- Members up to the closing brace; at least one. -/
def members (levels : Nat) (cs : List Char) : Reading (List (String × Value)) cs :=
  match Reading.attach (memberName? cs) fun _ _ => length_lt_of_memberName? with
  | none => none
  | some ⟨(name, afterName), hn⟩ =>
    have hn : afterName.length < cs.length := hn
    match value levels afterName with
    | none => none
    | some ⟨(v, rest), hv⟩ =>
      match Reading.attach (separator? '}' rest) fun _ _ => length_lt_of_separator? with
      | none => none
      | some ⟨(false, rest'), h⟩ =>
        some ⟨([(name, v)], rest'), Nat.lt_trans h (Nat.lt_trans hv hn)⟩
      | some ⟨(true, rest'), h⟩ =>
        have h : rest'.length < cs.length := Nat.lt_trans h (Nat.lt_trans hv hn)
        ((members levels rest').map ((name, v) :: ·)).weaken (Nat.le_of_lt h)
termination_by 2 * cs.length + 1

end

/-- The value at the very front of `cs` and what follows it. -/
def value? (levels : Nat) (cs : List Char) : Option (Value × List Char) :=
  (value levels cs).toOption

def items? (levels : Nat) (cs : List Char) : Option (List Value × List Char) :=
  (items levels cs).toOption

def members? (levels : Nat) (cs : List Char) : Option (List (String × Value) × List Char) :=
  (members levels cs).toOption

theorem value?_bracket (levels : Nat) (inner : List Char) :
    value? levels ('[' :: inner) =
      match levels with
      | 0 => none
      | levels + 1 =>
        match closed? ']' inner with
        | some (_, rest) => some (.array [], rest)
        | none => (items? levels (skipBlanks inner)).map fun (vs, rest) => (.array vs, rest) := by
  cases levels with
  | zero => rw [value?, value]; rfl
  | succ levels =>
    rw [value?, value]
    dsimp only
    split
    next h => rw [Reading.eq_some_of_attach h]; rfl
    next h =>
      rw [Reading.eq_none_of_attach h]
      exact (Reading.toOption_weaken ..).trans (Reading.toOption_map ..)

theorem value?_brace (levels : Nat) (inner : List Char) :
    value? levels ('{' :: inner) =
      match levels with
      | 0 => none
      | levels + 1 =>
        match closed? '}' inner with
        | some (_, rest) => some (.object [], rest)
        | none =>
          (members? levels (skipBlanks inner)).map fun (ms, rest) => (.object ms, rest) := by
  cases levels with
  | zero => rw [value?, value]; rfl
  | succ levels =>
    rw [value?, value]
    dsimp only
    split
    next h => rw [Reading.eq_some_of_attach h]; rfl
    next h =>
      rw [Reading.eq_none_of_attach h]
      exact (Reading.toOption_weaken ..).trans (Reading.toOption_map ..)

theorem value?_scalar (levels : Nat) {cs : List Char} (hbracket : ∀ inner, cs ≠ '[' :: inner)
    (hbrace : ∀ inner, cs ≠ '{' :: inner) : value? levels cs = scalar? cs := by
  rw [value?, value]
  · exact Reading.toOption_attach ..
  · exact fun inner h => hbracket inner h
  · exact fun inner h => hbrace inner h

theorem items?_eq (levels : Nat) (cs : List Char) :
    items? levels cs =
      match value? levels cs with
      | none => none
      | some (v, rest) =>
        match separator? ']' rest with
        | none => none
        | some (false, rest) => some ([v], rest)
        | some (true, rest) => (items? levels rest).map fun (vs, rest) => (v :: vs, rest) := by
  rw [items?, items, value?]
  cases value levels cs with
  | none => rfl
  | some r =>
    obtain ⟨⟨v, rest⟩, hv⟩ := r
    rw [Reading.toOption_some]
    dsimp only
    split
    next h => rw [Reading.eq_none_of_attach h]; rfl
    next h => rw [Reading.eq_some_of_attach h]; rfl
    next h =>
      rw [Reading.eq_some_of_attach h]
      exact (Reading.toOption_weaken ..).trans (Reading.toOption_map ..)

theorem members?_eq (levels : Nat) (cs : List Char) :
    members? levels cs =
      match memberName? cs with
      | none => none
      | some (name, rest) =>
        match value? levels rest with
        | none => none
        | some (v, rest) =>
          match separator? '}' rest with
          | none => none
          | some (false, rest) => some ([(name, v)], rest)
          | some (true, rest) =>
            (members? levels rest).map fun (ms, rest) => ((name, v) :: ms, rest) := by
  rw [members?, members]
  split
  next hn => rw [Reading.eq_none_of_attach hn]; rfl
  next hn =>
    rw [Reading.eq_some_of_attach hn]
    dsimp only [value?]
    split
    next hv => rw [hv]; rfl
    next hv =>
      rw [hv, Reading.toOption_some]
      dsimp only
      split
      next h => rw [Reading.eq_none_of_attach h]; rfl
      next h => rw [Reading.eq_some_of_attach h]; rfl
      next h =>
        rw [Reading.eq_some_of_attach h]
        exact (Reading.toOption_weaken ..).trans (Reading.toOption_map ..)

end Reader

/-- The value that `cs` is the text of, blanks around it aside. -/
def Value.ofText? (cs : List Char) : Option Value :=
  match Reader.value? maxLevels (Reader.skipBlanks cs) with
  | some (v, rest) => if Reader.skipBlanks rest = [] then some v else none
  | none => none

end Calculator.Json
