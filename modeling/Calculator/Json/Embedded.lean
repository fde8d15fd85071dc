import Calculator.Json.Size

/-! Texts inside values. An object whose first member has the reserved name is no object of its own:
it must have no other member, its string is a JSON text again, and it stands for the value of that
text. Levels of nesting are counted anew in each text. -/
namespace Calculator.Json

def embeddedName : String := "$serde_json::private::RawValue"

mutual

/-- The value with every embedded text replaced by its value. An embedded text is smaller than the
value it stands in, so this ends. -/
def Value.expand? (v : Value) : Option Value :=
  match v with
  | .array items => (expandItems? items).map .array
  | .object [] => some (.object [])
  | .object ((name, w) :: members) =>
    if name = embeddedName then
      match w, members with
      | .string text, [] =>
        match h : Value.ofText? text.toList with
        | some inner =>
          have := Value.size_le_length_of_ofText? h
          inner.expand?
        | none => none
      | _, _ => none
    else (expandMembers? ((name, w) :: members)).map .object
  | v => some v
termination_by v.size
decreasing_by
  · exact Nat.lt_succ_self _
  · rw [String.length_toList] at this
    simp only [Value.size, membersSize]; omega
  · exact Nat.lt_succ_self _

def expandItems? (items : List Value) : Option (List Value) :=
  match items with
  | [] => some []
  | v :: vs =>
    match v.expand?, expandItems? vs with
    | some v, some vs => some (v :: vs)
    | _, _ => none
termination_by itemsSize items
decreasing_by
  · simp only [itemsSize]; omega
  · simp only [itemsSize]; omega

def expandMembers? (members : List (String × Value)) : Option (List (String × Value)) :=
  match members with
  | [] => some []
  | (name, v) :: ms =>
    match v.expand?, expandMembers? ms with
    | some v, some ms => some ((name, v) :: ms)
    | _, _ => none
termination_by membersSize members
decreasing_by
  · simp only [membersSize]; omega
  · simp only [membersSize]; omega

end

/-- The value of a text as bytes, embedded texts replaced. Bytes that are not UTF-8 have none. -/
def Value.ofBytes? (body : ByteArray) : Option Value :=
  (String.fromUTF8? body).bind fun text => (Value.ofText? text.toList).bind Value.expand?

end Calculator.Json
