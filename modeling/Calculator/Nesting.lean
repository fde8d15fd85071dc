import Calculator.ParseError

/-! The budget of open parentheses that a parse carries downwards. Descending spends one level, and
the value held by the caller is untouched, so groups side by side never add up. -/
namespace Calculator

structure Nesting where
  depth : UInt64
  limit : UInt64
  /-- Byte length of the source, where running out of tokens is reported. -/
  sourceEnd : Nat
  depth_le_limit : depth ≤ limit

namespace Nesting

def defaultLimit : UInt64 := 256

def start (limit : UInt64) (sourceEnd : Nat) : Nesting where
  depth := 0
  limit := limit
  sourceEnd := sourceEnd
  depth_le_limit := UInt64.zero_le

theorem toNat_depth_succ {n : Nesting} (h : n.depth < n.limit) :
    (n.depth + 1).toNat = n.depth.toNat + 1 := by
  have h₁ := UInt64.lt_iff_toNat_lt.mp h
  have h₂ := n.limit.toNat_lt
  rw [UInt64.toNat_add]
  exact Nat.mod_eq_of_lt (by simp; omega)

/-- One level deeper, for the parenthesis at `offset`. -/
def descend (n : Nesting) (offset : Nat) : Except ParseError Nesting :=
  if h : n.depth < n.limit then
    .ok { n with
      depth := n.depth + 1
      depth_le_limit := by
        have := UInt64.lt_iff_toNat_lt.mp h
        rw [UInt64.le_iff_toNat_le, toNat_depth_succ h]
        omega }
  else .error (.nestingTooDeep n.limit offset)

theorem descend_eq_ok {n inner : Nesting} {offset : Nat} (h : n.descend offset = .ok inner) :
    n.depth < n.limit ∧ inner.depth.toNat = n.depth.toNat + 1 ∧ inner.limit = n.limit ∧
      inner.sourceEnd = n.sourceEnd := by
  unfold descend at h
  split at h
  next hlt =>
    cases h
    exact ⟨hlt, toNat_depth_succ hlt, rfl, rfl⟩
  next => contradiction

theorem descend_eq_error {n : Nesting} {offset : Nat} {e : ParseError}
    (h : n.descend offset = .error e) :
    n.limit ≤ n.depth ∧ e = .nestingTooDeep n.limit offset := by
  unfold descend at h
  split at h
  next => contradiction
  next hle =>
    cases h
    exact ⟨UInt64.not_lt.mp hle, rfl⟩

/-- How many more parentheses may be opened. -/
def room (n : Nesting) : Nat := n.limit.toNat - n.depth.toNat

@[simp] theorem room_start (limit : UInt64) (sourceEnd : Nat) :
    (start limit sourceEnd).room = limit.toNat := Nat.sub_zero _

theorem room_of_descend {n inner : Nesting} {offset : Nat} (h : n.descend offset = .ok inner) :
    n.room = inner.room + 1 := by
  obtain ⟨hlt, hdepth, hlimit, _⟩ := descend_eq_ok h
  have := UInt64.lt_iff_toNat_lt.mp hlt
  simp only [room, hdepth, hlimit]
  omega

theorem exists_descend {n : Nesting} (h : 0 < n.room) (offset : Nat) :
    ∃ inner, n.descend offset = .ok inner := by
  have hlt : n.depth < n.limit := UInt64.lt_iff_toNat_lt.mpr (by unfold room at h; omega)
  exact ⟨_, dif_pos hlt⟩

/-- What comes of it when a parenthesis is opened beyond the limit. -/
def TooDeep (outcome : Except ParseError α) : Prop :=
  ∃ limit offset, outcome = .error (.nestingTooDeep limit offset)

def description (n : Nesting) : String :=
  "Bounds \x7b depth: " ++ toString n.depth.toNat ++ ", max_depth: " ++ toString n.limit.toNat
    ++ ", end: " ++ toString n.sourceEnd ++ " \x7d"

end Nesting
end Calculator
