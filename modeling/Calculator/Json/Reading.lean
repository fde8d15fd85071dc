/-! Reading from the front of a text. A reading carries the proof that it left less than it was
given, which is why readers may call themselves on what is left. -/
namespace Calculator.Json

/-- A result with what follows it, which is shorter than the text it was read from. -/
abbrev Reading (α : Type) (cs : List Char) : Type :=
  Option { r : α × List Char // r.2.length < cs.length }

namespace Reading

def attach {cs : List Char} (r : Option (α × List Char))
    (h : ∀ a rest, r = some (a, rest) → rest.length < cs.length) : Reading α cs :=
  match r, h with
  | some (a, rest), h => some ⟨(a, rest), h a rest rfl⟩
  | none, _ => none

/-- A reading of the tail of a text is a reading of that text. -/
def weaken {cs cs' : List Char} (h : cs.length ≤ cs'.length) : Reading α cs → Reading α cs'
  | some ⟨r, hr⟩ => some ⟨r, Nat.lt_of_lt_of_le hr h⟩
  | none => none

def map (f : α → β) {cs : List Char} : Reading α cs → Reading β cs
  | some ⟨(a, rest), hr⟩ => some ⟨(f a, rest), hr⟩
  | none => none

def toOption {cs : List Char} (r : Reading α cs) : Option (α × List Char) :=
  Option.map Subtype.val r

theorem toOption_some {cs : List Char} {p : α × List Char} (hp : p.2.length < cs.length) :
    toOption (some ⟨p, hp⟩ : Reading α cs) = some p := rfl

theorem toOption_attach {cs : List Char} (r : Option (α × List Char))
    (h : ∀ a rest, r = some (a, rest) → rest.length < cs.length) : (attach r h).toOption = r := by
  unfold attach
  split <;> rfl

theorem eq_some_of_attach {cs : List Char} {r : Option (α × List Char)}
    {h : ∀ a rest, r = some (a, rest) → rest.length < cs.length} {p : α × List Char}
    {hp : p.2.length < cs.length} (hr : attach r h = some ⟨p, hp⟩) : r = some p := by
  rw [← toOption_attach r h, hr]
  rfl

theorem eq_none_of_attach {cs : List Char} {r : Option (α × List Char)}
    {h : ∀ a rest, r = some (a, rest) → rest.length < cs.length} (hr : attach r h = none) :
    r = none := by
  rw [← toOption_attach r h, hr]
  rfl

theorem toOption_weaken {cs cs' : List Char} (h : cs.length ≤ cs'.length) (r : Reading α cs) :
    (r.weaken h).toOption = r.toOption := by
  cases r <;> rfl

theorem toOption_map (f : α → β) {cs : List Char} (r : Reading α cs) :
    (r.map f).toOption = r.toOption.map fun (a, rest) => (f a, rest) := by
  cases r <;> rfl

end Reading

end Calculator.Json
