import Mathlib.Data.List.Basic
import Calculator.Proofs.Cuts
import Calculator.Proofs.Diagnosis

/-! Which characters a token takes up. A symbol is one character, a number is digits and perhaps a
point between them, and what stands around a number can neither be read as its beginning nor go on
with it. -/
namespace Calculator

namespace PlacedToken

/-- The place behind the text of a token. -/
def finish (t : PlacedToken) : Nat := t.offset + t.token.text.utf8ByteSize

/-- The character at `offset` belongs to the token. -/
def Covers (t : PlacedToken) (offset : Nat) : Prop := t.offset ≤ offset ∧ offset < t.finish

instance (t : PlacedToken) (offset : Nat) : Decidable (t.Covers offset) :=
  inferInstanceAs (Decidable (_ ∧ _))

/-- The place `cut` is strictly inside of the token. -/
def Straddles (t : PlacedToken) (cut : Nat) : Prop := t.offset < cut ∧ cut < t.finish

/-- The first token ends where the second one starts, or in front of it. -/
def Precedes (t u : PlacedToken) : Prop := t.offset < u.offset ∧ t.finish ≤ u.offset

end PlacedToken

/-- Numbers are digits, or digits on both sides of one point. -/
def Token.Proper : Token → Prop
  | number text => IsNumeral text.toList
  | _ => True

/-- The tokens of a source, none if it is refused. -/
def recognized (source : String) : List PlacedToken :=
  match tokenize source with
  | .ok ts => ts
  | .error _ => []

theorem recognized_eq (source : String) : recognized source = Lexer.tokensFrom 0 source := by
  unfold recognized tokenize
  rw [Lexer.tokens_placed]
  cases Lexer.tokensFrom 0 source <;> rfl

theorem tokenize_eq_ok_iff {source : String} {ts : List PlacedToken} :
    tokenize source = .ok ts ↔ ts ≠ [] ∧ ts = Lexer.tokensFrom 0 source := by
  unfold tokenize
  rw [Lexer.tokens_placed]
  cases Lexer.tokensFrom 0 source with
  | nil => simp
  | cons t us =>
    simp only [Except.ok.injEq]
    constructor
    · rintro rfl
      exact ⟨List.cons_ne_nil _ _, rfl⟩
    · exact fun h => h.2.symm

theorem tokenize_eq_error_iff {source : String} {e : ParseError} :
    tokenize source = .error e ↔ e = .invalidExpression ∧ Lexer.tokensFrom 0 source = [] := by
  unfold tokenize
  rw [Lexer.tokens_placed]
  cases Lexer.tokensFrom 0 source with
  | nil => simp [eq_comm]
  | cons => simp

/-! Texts that stand in a source. -/

theorem standsAt_iff {source text : String} {offset : Nat} :
    StandsAt source text offset ↔ ∃ as bs : List Char, source.toList = as ++ (text.toList ++ bs) ∧
      (String.ofList as).utf8ByteSize = offset := by
  constructor
  · rintro ⟨before, after, rfl, rfl⟩
    exact ⟨before.toList, after.toList, by simp, by simp⟩
  · rintro ⟨as, bs, hsource, rfl⟩
    exact ⟨String.ofList as, String.ofList bs, String.toList_injective (by simp [hsource]), rfl⟩

theorem utf8ByteSize_ofList_append (as bs : List Char) : (String.ofList (as ++ bs)).utf8ByteSize =
    (String.ofList as).utf8ByteSize + (String.ofList bs).utf8ByteSize := by
  rw [String.ofList_append, String.utf8ByteSize_append]

theorem utf8ByteSize_ofList_pos {cs : List Char} (h : cs ≠ []) :
    0 < (String.ofList cs).utf8ByteSize :=
  Nat.pos_of_ne_zero (mt String.utf8ByteSize_eq_zero_iff.mp (mt String.ofList_eq_empty_iff.mp h))

/-- Texts in front of the same place are the same. -/
theorem append_inj_of_utf8ByteSize_eq {as bs xs ys : List Char} (h : as ++ xs = bs ++ ys)
    (hsize : (String.ofList as).utf8ByteSize = (String.ofList bs).utf8ByteSize) :
    as = bs ∧ xs = ys := by
  obtain ⟨rest, rfl, rfl⟩ := Lexer.exists_append_of_utf8ByteSize_le h (Nat.le_of_eq hsize)
  have hrest : rest = [] := by
    refine Decidable.byContradiction fun hne => ?_
    have hpos := utf8ByteSize_ofList_pos hne
    rw [utf8ByteSize_ofList_append] at hsize
    omega
  simp [hrest]

theorem StandsAt.char_eq {source : String} {c c' : Char} {offset : Nat}
    (h : StandsAt source c.toString offset) (h' : StandsAt source c'.toString offset) : c = c' := by
  obtain ⟨as, xs, hsource, hsize⟩ := standsAt_iff.mp h
  obtain ⟨bs, ys, hsource', hsize'⟩ := standsAt_iff.mp h'
  obtain ⟨-, heq⟩ := append_inj_of_utf8ByteSize_eq (hsource.symm.trans hsource')
    (hsize.trans hsize'.symm)
  simp only [Char.toString_eq_singleton, String.toList_singleton, List.singleton_append,
    List.cons.injEq] at heq
  exact heq.1

theorem StandsAt.first {source text : String} {c : Char} {rest : List Char} {offset : Nat}
    (h : StandsAt source text offset) (htext : text.toList = c :: rest) :
    StandsAt source c.toString offset := by
  obtain ⟨as, bs, hsource, hsize⟩ := standsAt_iff.mp h
  exact standsAt_iff.mpr ⟨as, rest ++ bs, by simp [hsource, htext], hsize⟩

/-- A character within the text of a token is one of its characters. -/
theorem PlacedToken.Covers.mem {source : String} {t : PlacedToken} {c : Char} {offset : Nat}
    (h : t.Covers offset) (ht : StandsAt source t.token.text t.offset)
    (hc : StandsAt source c.toString offset) : c ∈ t.token.text.toList := by
  obtain ⟨as, xs, hsource, hsize⟩ := standsAt_iff.mp ht
  obtain ⟨bs, ys, hsource', rfl⟩ := standsAt_iff.mp hc
  obtain ⟨hle, hlt⟩ := h
  rw [finish] at hlt
  obtain ⟨front, rfl, htext⟩ := Lexer.exists_append_of_utf8ByteSize_le
    (hsource.symm.trans hsource') (hsize ▸ hle)
  rw [utf8ByteSize_ofList_append] at hlt
  have hfront : (String.ofList front).utf8ByteSize
      ≤ (String.ofList t.token.text.toList).utf8ByteSize := by
    rw [String.ofList_toList]
    omega
  obtain ⟨rest, hrest, hys⟩ := Lexer.exists_append_of_utf8ByteSize_le htext.symm hfront
  cases rest with
  | nil =>
    rw [List.append_nil] at hrest
    rw [← hrest, String.ofList_toList] at hlt
    omega
  | cons d rest =>
    simp only [Char.toString_eq_singleton, String.toList_singleton, List.cons_append,
      List.cons.injEq] at hys
    rw [hrest, hys.1]
    simp

/-! Characters of pieces. -/

def Piece.Proper : Piece → Prop
  | token t => t.Proper
  | blank c => Lexer.isBlank c
  | dropped c => Lexer.isBlank c = false ∧ c.isDigit = false ∧ c ∉ "+-*/()".toList

namespace Lexer

theorem isBlank_iff {c : Char} : isBlank c ↔ c ∈ [' ', '\t', '\r', '\n', '\x0c'] := by
  simp [isBlank, or_assoc]

theorem isBlank_eq_false_iff {c : Char} :
    isBlank c = false ↔ c ∉ [' ', '\t', '\r', '\n', '\x0c'] := by
  rw [← isBlank_iff, Bool.not_eq_true]

theorem isBlank_eq_false_of_isDigit {c : Char} (h : c.isDigit) : isBlank c = false := by
  rw [Bool.eq_false_iff]
  intro hblank
  have hnone : ∀ x ∈ [' ', '\t', '\r', '\n', '\x0c'], x.isDigit = false := by simp
  exact absurd h (ne_true_of_eq_false (hnone c (isBlank_iff.mp hblank)))

theorem mem_symbols_of_symbol? {c : Char} {t : Token} (h : symbol? c = some t) :
    c ∈ "+-*/()".toList := by
  refine Decidable.byContradiction fun hnot => ?_
  rw [symbol?_eq_none_iff.mpr hnot] at h
  contradiction

theorem isBlank_eq_false_of_symbol? {c : Char} {t : Token} (h : symbol? c = some t) :
    isBlank c = false := by
  have hnone : ∀ x ∈ "+-*/()".toList, isBlank x = false := by simp [isBlank]
  exact hnone c (mem_symbols_of_symbol? h)

theorem isDigit_eq_false_of_symbol? {c : Char} {t : Token} (h : symbol? c = some t) :
    c.isDigit = false := by
  have hnone : ∀ x ∈ "+-*/()".toList, x.isDigit = false := by simp
  exact hnone c (mem_symbols_of_symbol? h)

end Lexer

theorem IsNumeral.digit_or_point {cs : List Char} (h : IsNumeral cs) {c : Char} (hc : c ∈ cs) :
    c.isDigit ∨ c = '.' := by
  cases h with
  | whole hd => exact .inl ((Text.isDigits_iff.mp hd).2 c hc)
  | @fraction digits behind hd hb =>
    obtain hfront | hrest := List.mem_append.mp hc
    · exact .inl ((Text.isDigits_iff.mp hd).2 c hfront)
    · obtain rfl | hback := List.mem_cons.mp hrest
      · exact .inr rfl
      · exact .inl ((Text.isDigits_iff.mp hb).2 c hback)

/-- A symbol is its only character; a number has digits and a point. -/
theorem Token.Proper.char_cases {t : Token} (h : t.Proper) {c : Char} (hc : c ∈ t.text.toList) :
    t.IsSymbol ∧ Lexer.symbol? c = some t ∨ ¬t.IsSymbol ∧ (c.isDigit ∨ c = '.') := by
  by_cases hsymbol : t.IsSymbol
  · obtain ⟨d, htext, hd, -⟩ := Lexer.exists_char_of_isSymbol hsymbol
    rw [htext, String.toList_singleton, List.mem_singleton] at hc
    exact .inl ⟨hsymbol, hc ▸ hd⟩
  · obtain ⟨text, rfl⟩ := exists_number hsymbol
    exact .inr ⟨hsymbol, IsNumeral.digit_or_point h hc⟩

theorem Token.Proper.exists_first {t : Token} (h : t.Proper) :
    ∃ c rest, t.text.toList = c :: rest ∧
      (¬t.IsSymbol ∧ c.isDigit ∨ t.IsSymbol ∧ Lexer.symbol? c = some t) := by
  by_cases hsymbol : t.IsSymbol
  · obtain ⟨c, htext, hc, -⟩ := Lexer.exists_char_of_isSymbol hsymbol
    exact ⟨c, [], by rw [htext, String.toList_singleton], .inr ⟨hsymbol, hc⟩⟩
  · obtain ⟨text, rfl⟩ := exists_number hsymbol
    obtain ⟨c, rest, htext, hc⟩ := IsNumeral.exists_digit h
    exact ⟨c, rest, htext, .inl ⟨hsymbol, hc⟩⟩

theorem Token.Proper.isBlank_eq_false {t : Token} (h : t.Proper) {c : Char}
    (hc : c ∈ t.text.toList) : Lexer.isBlank c = false := by
  obtain ⟨-, hsymbol⟩ | ⟨-, hdigit | rfl⟩ := h.char_cases hc
  · exact Lexer.isBlank_eq_false_of_symbol? hsymbol
  · exact Lexer.isBlank_eq_false_of_isDigit hdigit
  · rfl

namespace Lexer

theorem utf8ByteSize_ofList_single (c : Char) :
    (String.ofList [c]).utf8ByteSize = (single c).size := by
  rw [Piece.size, text_single]
  rfl

theorem proper_single {c : Char} (hc : c.isDigit = false) : (single c).Proper := by
  unfold single
  cases hsymbol : symbol? c with
  | some t =>
    have ht := isSymbol_of_symbol? hsymbol
    cases t with
    | number => exact absurd ht id
    | operator | openParen | closeParen => trivial
  | none =>
    by_cases hblank : isBlank c
    · simp only [if_pos hblank]
      exact hblank
    · simp only [if_neg hblank]
      exact ⟨Bool.eq_false_iff.mpr hblank, hc, symbol?_eq_none_iff.mp hsymbol⟩

theorem proper_of_mem_pieces (cs : List Char) : ∀ p ∈ pieces cs, p.Proper := by
  fun_induction pieces cs with
  | case1 => exact List.forall_mem_nil _
  | case2 c cs hc _ ih =>
    refine List.forall_mem_cons.mpr ⟨?_, ih⟩
    show IsNumeral (String.ofList _).toList
    rw [String.toList_ofList]
    exact isNumeral_splitNumber hc cs
  | case3 c cs hc ih =>
    exact List.forall_mem_cons.mpr ⟨proper_single (by simpa using hc), ih⟩

/-- Pieces from anywhere on are the pieces of the text from there on. -/
theorem pieces_of_append {cs : List Char} {us vs : List Piece} (h : pieces cs = us ++ vs) :
    pieces (vs.flatMap (·.text.toList)) = vs := by
  fun_induction pieces cs generalizing us with
  | case1 =>
    obtain ⟨rfl, rfl⟩ := List.append_eq_nil_iff.mp h.symm
    rw [List.flatMap_nil, pieces]
  | case2 c cs hc _ ih =>
    cases us with
    | nil =>
      rw [List.nil_append] at h
      rw [← h, ← pieces_of_isDigit hc, flatMap_text_pieces]
    | cons u us => exact ih (List.cons.inj h).2
  | case3 c cs hc ih =>
    cases us with
    | nil =>
      rw [List.nil_append] at h
      rw [← h, ← pieces_of_not_isDigit hc, flatMap_text_pieces]
    | cons u us => exact ih (List.cons.inj h).2

/-- What a number is cut off from does not go on with it. -/
theorem stops_of_pieces {cs : List Char} {text : String} {ps : List Piece}
    (h : pieces cs = .token (.number text) :: ps) :
    Stops text.toList (ps.flatMap (·.text.toList)) := by
  have hcs := flatMap_text_pieces cs
  cases cs with
  | nil =>
    rw [pieces] at h
    contradiction
  | cons c cs =>
    by_cases hc : c.isDigit
    · rw [pieces_of_isDigit hc] at h
      obtain ⟨hnumber, rfl⟩ := List.cons.inj h
      obtain rfl := Token.number.inj (Piece.token.inj hnumber)
      rw [String.toList_ofList, flatMap_text_pieces]
      exact stops_splitNumber (c :: cs)
    · rw [pieces_of_not_isDigit hc] at h
      exact absurd (isSymbol_of_single (List.cons.inj h).1) id

/-- Two numbers never touch. -/
theorem pieces_ne_number_number {cs : List Char} {text text' : String} {ps : List Piece} :
    pieces cs ≠ .token (.number text) :: .token (.number text') :: ps := by
  intro h
  have hnumeral : IsNumeral text'.toList := isNumeral_of_mem_pieces cs (by simp [h])
  obtain ⟨d, rest, htext, hd⟩ := hnumeral.exists_digit
  have hend : Text.EndsDigits (text'.toList ++ ps.flatMap (·.text.toList)) :=
    (stops_of_pieces h).digit
  rw [htext] at hend
  exact absurd hd (ne_true_of_eq_false (Text.endsDigits_cons.mp hend))

theorem mem_text_of_mem_getLast? {us : List Piece} {p : Piece} (hp : 0 < p.size) {c : Char}
    (hc : c ∈ ((us ++ [p]).flatMap (·.text.toList)).getLast?) : c ∈ p.text.toList := by
  have hne : p.text.toList ≠ [] := by
    rw [Ne, String.toList_eq_nil_iff]
    rintro htext
    rw [Piece.size, htext] at hp
    contradiction
  rw [List.flatMap_append, List.flatMap_singleton, List.getLast?_append,
    List.getLast?_eq_some_getLast hne, Option.some_or, Option.mem_some_iff] at hc
  exact hc ▸ List.getLast_mem hne

/-- No digit stands right in front of a number, or else the number would have begun there. -/
theorem not_isDigit_of_pieces {cs : List Char} {us vs : List Piece} {text : String}
    (h : pieces cs = us ++ .token (.number text) :: vs) :
    ∀ c ∈ (us.flatMap (·.text.toList)).getLast?, c.isDigit = false := by
  obtain rfl | ⟨us, p, rfl⟩ := us.eq_nil_or_concat'
  · simp
  intro c hc
  have hmem : p ∈ pieces cs := by simp [h]
  have hchar := mem_text_of_mem_getLast? (size_pos_of_mem_pieces cs p hmem) hc
  have hproper := proper_of_mem_pieces cs p hmem
  cases p with
  | token t =>
    obtain ⟨-, hsymbol⟩ | ⟨hnumber, -⟩ := Token.Proper.char_cases hproper hchar
    · exact isDigit_eq_false_of_symbol? hsymbol
    · obtain ⟨front, rfl⟩ := Token.exists_number hnumber
      rw [List.append_assoc, List.singleton_append] at h
      exact absurd (pieces_of_append h) pieces_ne_number_number
  | blank b =>
    obtain rfl : c = b := by simpa [Piece.text] using hchar
    rw [Bool.eq_false_iff]
    intro hdigit
    exact absurd hproper (ne_true_of_eq_false (isBlank_eq_false_of_isDigit hdigit))
  | dropped b =>
    obtain rfl : c = b := by simpa [Piece.text] using hchar
    exact hproper.2.1

theorem point_not_mem {cs : List Char} (h : Text.isDigits cs) : '.' ∉ cs := by
  intro hpoint
  exact absurd ((Text.isDigits_iff.mp h).2 '.' hpoint) (by decide)

/-- A number that stops is not the front of a longer one. -/
theorem Stops.eq_nil {number rest cs : List Char} (h : Stops number (rest ++ cs))
    (hrest : IsNumeral (number ++ rest)) : rest = [] := by
  cases rest with
  | nil => rfl
  | cons c rest =>
    have hc : c.isDigit = false := Text.endsDigits_cons.mp h.digit
    obtain hdigit | rfl := hrest.digit_or_point (c := c) (by simp)
    · exact absurd hdigit (ne_true_of_eq_false hc)
    generalize hwhole : number ++ '.' :: rest = whole at hrest
    cases hrest with
    | whole hd => exact absurd (by simp [← hwhole]) (point_not_mem hd)
    | @fraction digits behind hd hb =>
      obtain ⟨rfl, -, rfl⟩ :=
        (List.append_cons_inj_of_notMem (point_not_mem hd) (point_not_mem hb)).mp hwhole.symm
      obtain ⟨d, ds, rfl, hdigit⟩ := Text.exists_digit hb
      have hend : Text.EndsDigits (d :: ds ++ cs) := h.point hd _ rfl
      exact absurd hdigit (ne_true_of_eq_false (Text.endsDigits_cons.mp hend))

end Lexer
end Calculator
