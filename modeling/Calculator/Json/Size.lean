import Calculator.Json.Reader

/-! How large a value is, counted so that no value is larger than a text of it. Strings count their
characters; names of members count nothing. -/
namespace Calculator.Json

mutual

def Value.size : Value → Nat
  | .string s => s.length + 1
  | .array items => itemsSize items + 1
  | .object members => membersSize members + 1
  | _ => 1

def itemsSize : List Value → Nat
  | [] => 0
  | v :: vs => v.size + itemsSize vs + 1

def membersSize : List (String × Value) → Nat
  | [] => 0
  | (_, v) :: ms => v.size + membersSize ms + 1

end

namespace Reader

theorem size_le_of_scalar? {cs rest : List Char} {v : Value} (h : scalar? cs = some (v, rest)) :
    v.size + rest.length ≤ cs.length := by
  unfold scalar? at h
  split at h
  next =>
    obtain ⟨⟨text, rest'⟩, h', h⟩ := Option.map_eq_some_iff.mp h
    cases h
    have := length_add_length_lt_of_stringBody? h'
    simp only [Value.size, String.length_ofList, List.length_cons]; omega
  next =>
    cases hw : word? cs with
    | some r =>
      rw [hw] at h
      cases h
      have := length_lt_of_word? hw
      unfold word? at hw
      split at hw <;> cases hw <;> simp only [Value.size] <;> omega
    | none =>
      rw [hw] at h
      have h : number? cs = some (v, rest) := h
      have := length_lt_of_number? h
      unfold number? at h
      split at h
      next =>
        split at h
        next => cases h
        next => cases h; simp only [Value.size]; omega
      next => cases h

mutual

theorem size_le_of_value? {levels : Nat} {cs rest : List Char} {v : Value}
    (h : value? levels cs = some (v, rest)) : v.size + rest.length ≤ cs.length := by
  by_cases hbracket : ∃ inner, cs = '[' :: inner
  · obtain ⟨inner, hcs⟩ := hbracket
    rw [hcs, value?_bracket] at h
    have hblank := length_skipBlanks_le inner
    split at h
    next => cases h
    next =>
      split at h
      next hclosed =>
        cases h
        have := length_lt_of_closed? hclosed
        simp only [hcs, Value.size, itemsSize, List.length_cons]; omega
      next =>
        obtain ⟨⟨vs, rest'⟩, h', h⟩ := Option.map_eq_some_iff.mp h
        cases h
        have := itemsSize_le_of_items? h'
        simp only [hcs, Value.size, List.length_cons]; omega
  by_cases hbrace : ∃ inner, cs = '{' :: inner
  · obtain ⟨inner, hcs⟩ := hbrace
    rw [hcs, value?_brace] at h
    have hblank := length_skipBlanks_le inner
    split at h
    next => cases h
    next =>
      split at h
      next hclosed =>
        cases h
        have := length_lt_of_closed? hclosed
        simp only [hcs, Value.size, membersSize, List.length_cons]; omega
      next =>
        obtain ⟨⟨ms, rest'⟩, h', h⟩ := Option.map_eq_some_iff.mp h
        cases h
        have := membersSize_le_of_members? h'
        simp only [hcs, Value.size, List.length_cons]; omega
  rw [value?_scalar levels (fun inner h => hbracket ⟨inner, h⟩)
    (fun inner h => hbrace ⟨inner, h⟩)] at h
  exact size_le_of_scalar? h
termination_by 2 * cs.length
decreasing_by
  · simp only [hcs, List.length_cons]; omega
  · simp only [hcs, List.length_cons]; omega

theorem itemsSize_le_of_items? {levels : Nat} {cs rest : List Char} {vs : List Value}
    (h : items? levels cs = some (vs, rest)) : itemsSize vs + rest.length ≤ cs.length := by
  rw [items?_eq] at h
  split at h
  next => cases h
  next v rest' hv =>
    have := size_le_of_value? hv
    split at h
    next => cases h
    next hs =>
      have := length_lt_of_separator? hs
      cases h
      simp only [itemsSize]; omega
    next hs =>
      obtain ⟨⟨vs', rest''⟩, h', h⟩ := Option.map_eq_some_iff.mp h
      cases h
      have := length_lt_of_separator? hs
      have := itemsSize_le_of_items? h'
      simp only [itemsSize]; omega
termination_by 2 * cs.length + 1

theorem membersSize_le_of_members? {levels : Nat} {cs rest : List Char}
    {ms : List (String × Value)} (h : members? levels cs = some (ms, rest)) :
    membersSize ms + rest.length ≤ cs.length := by
  rw [members?_eq] at h
  split at h
  next => cases h
  next hn =>
    have := length_lt_of_memberName? hn
    split at h
    next => cases h
    next hv =>
      have := size_le_of_value? hv
      split at h
      next => cases h
      next hs =>
        have := length_lt_of_separator? hs
        cases h
        simp only [membersSize]; omega
      next hs =>
        obtain ⟨⟨ms', rest''⟩, h', h⟩ := Option.map_eq_some_iff.mp h
        cases h
        have := length_lt_of_separator? hs
        have := membersSize_le_of_members? h'
        simp only [membersSize]; omega
termination_by 2 * cs.length + 1

end

end Reader

theorem Value.size_le_length_of_ofText? {cs : List Char} {v : Value} (h : ofText? cs = some v) :
    v.size ≤ cs.length := by
  unfold ofText? at h
  split at h
  next hv =>
    split at h
    next =>
      cases h
      have := Reader.size_le_of_value? hv
      have := Reader.length_skipBlanks_le cs
      omega
    next => cases h
  next => cases h

end Calculator.Json
