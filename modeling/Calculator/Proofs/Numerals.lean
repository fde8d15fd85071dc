import Mathlib.Data.List.TakeWhile
import Calculator.Evaluate
import Calculator.Expression
import Calculator.Proofs.Derivation
import Calculator.Proofs.Seams

/-! How numbers are spelled. What is cut off as a number is digits, or digits around a point, and
every such spelling converts, so no source fails on a number that cannot be read. -/
namespace Calculator

theorem Text.isDigits_iff {cs : List Char} :
    isDigits cs ↔ cs ≠ [] ∧ ∀ c ∈ cs, c.isDigit := by simp [isDigits]

theorem Text.exists_digit {cs : List Char} (h : isDigits cs) :
    ∃ c rest, cs = c :: rest ∧ c.isDigit := by
  obtain ⟨hne, hall⟩ := isDigits_iff.mp h
  obtain ⟨c, rest, rfl⟩ := List.exists_cons_of_ne_nil hne
  exact ⟨c, rest, rfl, hall c (List.mem_cons_self ..)⟩

theorem Text.ne_of_isDigit {c : Char} (hc : c.isDigit) (x : Char) (hx : x.isDigit = false) :
    c ≠ x := by
  rintro rfl
  exact absurd (hc.symm.trans hx) (by decide)

/-- Digits in front of this text end where it begins. -/
def Text.EndsDigits (cs : List Char) : Prop := ∀ c ∈ cs.head?, c.isDigit = false

@[simp] theorem Text.endsDigits_nil : EndsDigits [] := by simp [EndsDigits]

@[simp] theorem Text.endsDigits_cons {c : Char} {cs : List Char} :
    EndsDigits (c :: cs) ↔ c.isDigit = false := by simp [EndsDigits]

theorem Text.endsDigits_dropWhile (cs : List Char) : EndsDigits (cs.dropWhile Char.isDigit) := by
  intro c hc
  have hnot := List.head?_dropWhile_not Char.isDigit cs
  rwa [hc] at hnot

theorem Text.takeWhile_eq_nil_of_endsDigits {cs : List Char} (h : EndsDigits cs) :
    cs.takeWhile Char.isDigit = [] := by
  cases cs with
  | nil => rfl
  | cons c cs => simp [endsDigits_cons.mp h]

theorem Text.takeWhile_isDigits_append {cs ds : List Char} (h : isDigits cs) (hd : EndsDigits ds) :
    (cs ++ ds).takeWhile Char.isDigit = cs := by
  rw [List.takeWhile_append_of_pos (isDigits_iff.mp h).2, takeWhile_eq_nil_of_endsDigits hd,
    List.append_nil]

theorem Text.dropWhile_isDigits_append {cs ds : List Char} (h : isDigits cs) (hd : EndsDigits ds) :
    (cs ++ ds).dropWhile Char.isDigit = ds := by
  rw [List.dropWhile_append_of_pos (isDigits_iff.mp h).2]
  cases ds with
  | nil => rfl
  | cons d ds => simp [endsDigits_cons.mp hd]

theorem Text.takeWhile_isDigits {cs : List Char} (h : isDigits cs) :
    cs.takeWhile Char.isDigit = cs := by
  simpa using takeWhile_isDigits_append h endsDigits_nil

theorem Text.dropWhile_isDigits {cs : List Char} (h : isDigits cs) :
    cs.dropWhile Char.isDigit = [] := by
  simpa using dropWhile_isDigits_append h endsDigits_nil

theorem Text.takeWhile_isDigits_point {cs : List Char} (h : isDigits cs) (ds : List Char) :
    (cs ++ '.' :: ds).takeWhile Char.isDigit = cs :=
  takeWhile_isDigits_append h (endsDigits_cons.mpr rfl)

theorem Text.dropWhile_isDigits_point {cs : List Char} (h : isDigits cs) (ds : List Char) :
    (cs ++ '.' :: ds).dropWhile Char.isDigit = '.' :: ds :=
  dropWhile_isDigits_append h (endsDigits_cons.mpr rfl)

theorem Text.isDigits_takeWhile {cs : List Char} (h : cs.takeWhile Char.isDigit ≠ []) :
    isDigits (cs.takeWhile Char.isDigit) :=
  isDigits_iff.mpr ⟨h, List.all_eq_true.mp List.all_takeWhile⟩

open Text (isDigits)

theorem IsNumeral.exists_digit {cs : List Char} (h : IsNumeral cs) :
    ∃ c rest, cs = c :: rest ∧ c.isDigit := by
  have hfirst {digits : List Char} (hd : isDigits digits) (tail : List Char) :
      ∃ c rest, digits ++ tail = c :: rest ∧ c.isDigit := by
    obtain ⟨c, rest, rfl, hc⟩ := Text.exists_digit hd
    exact ⟨c, rest ++ tail, rfl, hc⟩
  cases h with
  | whole hd => simpa using hfirst hd []
  | fraction hd _ => exact hfirst hd _

namespace Lexer

theorem splitNumber_of_isNumeral {cs : List Char} (h : IsNumeral cs) :
    splitNumber cs = (cs, []) := by
  cases h with
  | whole hd =>
    rw [splitNumber_of_dropWhile_ne (by simp [Text.dropWhile_isDigits hd]),
      Text.takeWhile_isDigits hd, Text.dropWhile_isDigits hd]
  | @fraction digits behind hd hb =>
    simp only [splitNumber, Text.takeWhile_isDigits_point hd, Text.dropWhile_isDigits_point hd,
      Text.takeWhile_isDigits hb, Text.dropWhile_isDigits hb]
    cases behind with
    | nil => contradiction
    | cons => rfl

theorem isNumeral_splitNumber {c : Char} (hc : c.isDigit) (cs : List Char) :
    IsNumeral (splitNumber (c :: cs)).1 := by
  have hwhole : isDigits ((c :: cs).takeWhile Char.isDigit) :=
    Text.isDigits_takeWhile (by simp [hc])
  unfold splitNumber
  split
  next rest _ =>
    split
    next => exact .whole hwhole
    next hne => exact .fraction hwhole (Text.isDigits_takeWhile hne)
  next => exact .whole hwhole

theorem pieces_numeral {text : String} (h : IsNumeral text.toList) :
    pieces text.toList = [.token (.number text)] := by
  obtain ⟨c, rest, htext, hc⟩ := h.exists_digit
  have hsplit := splitNumber_of_isNumeral h
  rw [htext] at hsplit
  rw [htext, pieces_of_isDigit hc, hsplit, ← htext, String.ofList_toList, pieces]

theorem isSymbol_of_single {c : Char} {t : Token} (h : single c = .token t) : t.IsSymbol := by
  unfold single at h
  split at h
  next u hu =>
    cases h
    exact isSymbol_of_symbol? hu
  next => split at h <;> contradiction

theorem isNumeral_of_mem_pieces {text : String} (cs : List Char)
    (h : .token (.number text) ∈ pieces cs) : IsNumeral text.toList := by
  fun_induction pieces cs with
  | case1 => contradiction
  | case2 c cs hc _ ih =>
    cases h with
    | head =>
      rw [String.toList_ofList]
      exact isNumeral_splitNumber hc cs
    | tail _ hmem => exact ih hmem
  | case3 c cs hc ih =>
    obtain heq | hmem := List.mem_cons.mp h
    · exact absurd (isSymbol_of_single heq.symm) id
    · exact ih hmem

theorem isNumeral_of_mem_kinds {source text : String} (h : .number text ∈ kinds source) :
    IsNumeral text.toList := by
  obtain ⟨⟨_, offset⟩, ht, rfl⟩ := List.mem_map.mp h
  obtain ⟨before, after, hpieces, _⟩ := exists_append_of_mem_place ht
  exact isNumeral_of_mem_pieces source.toList (by simp [hpieces])

end Lexer

/-! Values. -/

namespace Decimal

theorem splitSign_of_isDigit {c : Char} (hc : c.isDigit) (cs : List Char) :
    splitSign (c :: cs) = (false, c :: cs) := by
  unfold splitSign
  split
  next heq => obtain ⟨rfl, _⟩ := List.cons.inj heq; contradiction
  next heq => obtain ⟨rfl, _⟩ := List.cons.inj heq; contradiction
  next => rfl

theorem ofNumeral?_digits {cs : List Char} (h : isDigits cs) :
    ofNumeral? cs = some ⟨Nat.ofDigitChars 10 cs 0, 0⟩ := by
  have hsplit : splitSignificand cs = (cs, [], []) := by
    simp only [splitSignificand, Text.takeWhile_isDigits h, Text.dropWhile_isDigits h]
  simp [ofNumeral?, hsplit, (Text.isDigits_iff.mp h).1, exponentPart?]

theorem ofNumeral?_point {digits behind : List Char} (hd : isDigits digits)
    (hb : isDigits behind) :
    ofNumeral? (digits ++ '.' :: behind) =
      some ⟨Nat.ofDigitChars 10 (digits ++ behind) 0, -behind.length⟩ := by
  have hsplit : splitSignificand (digits ++ '.' :: behind) = (digits, behind, []) := by
    simp only [splitSignificand, Text.takeWhile_isDigits_point hd, Text.dropWhile_isDigits_point hd,
      Text.takeWhile_isDigits hb, Text.dropWhile_isDigits hb]
  simp [ofNumeral?, hsplit, (Text.isDigits_iff.mp hd).1, exponentPart?]

theorem isSome_ofNumeral? {cs : List Char} (h : IsNumeral cs) : (ofNumeral? cs).isSome := by
  cases h with
  | whole hd => exact Option.isSome_of_eq_some (ofNumeral?_digits hd)
  | fraction hd hb => exact Option.isSome_of_eq_some (ofNumeral?_point hd hb)

theorem readFloat?_of_ofNumeral? {text : String} (h : IsNumeral text.toList) {d : Decimal}
    (hd : ofNumeral? text.toList = some d) : readFloat? text = some (d.toFloat false) := by
  obtain ⟨c, rest, htext, hc⟩ := h.exists_digit
  rw [htext] at hd
  simp [readFloat?, htext, splitSign_of_isDigit hc, hd]

theorem exists_readFloat? {text : String} (h : IsNumeral text.toList) :
    ∃ d : Decimal, readFloat? text = some (d.toFloat false) := by
  obtain ⟨d, hd⟩ := Option.isSome_iff_exists.mp (isSome_ofNumeral? h)
  exact ⟨d, readFloat?_of_ofNumeral? h hd⟩

theorem isSome_readFloat? {text : String} (h : IsNumeral text.toList) :
    (readFloat? text).isSome := by
  obtain ⟨d, hd⟩ := exists_readFloat? h
  exact Option.isSome_of_eq_some hd

end Decimal

/-- Every number of a source has a value. -/
theorem converts_kinds (source : String) : binary64.Converts (Lexer.kinds source) :=
  fun _ h => Decimal.isSome_readFloat? (Lexer.isNumeral_of_mem_kinds h)

end Calculator
