import Calculator.Proofs.Placement

/-! Texts that are put together. Where the second text cannot go on with a number of the first, the
pieces of both stay as they are, so the tokens of the whole are those of its parts, each part
starting where the one before it ends. -/
namespace Calculator

/-- Every token but a number stands for the one character that it is written with. -/
def Token.IsSymbol : Token → Prop
  | number _ => False
  | _ => True

theorem Token.exists_number {t : Token} (h : ¬t.IsSymbol) : ∃ text, t = number text := by
  cases t with
  | number text => exact ⟨text, rfl⟩
  | operator | openParen | closeParen => exact absurd trivial h

/-! A scan that does not go on into the second text. -/

theorem Text.takeWhile_append_of_head {p : Char → Bool} {ds : List Char}
    (h : ∀ c ∈ ds.head?, p c = false) (cs : List Char) :
    (cs ++ ds).takeWhile p = cs.takeWhile p := by
  induction cs with
  | nil =>
    cases ds with
    | nil => rfl
    | cons d ds => simp [h d rfl]
  | cons c cs ih => simp only [List.cons_append, List.takeWhile_cons, ih]

theorem Text.dropWhile_append_of_head {p : Char → Bool} {ds : List Char}
    (h : ∀ c ∈ ds.head?, p c = false) (cs : List Char) :
    (cs ++ ds).dropWhile p = cs.dropWhile p ++ ds := by
  induction cs with
  | nil =>
    cases ds with
    | nil => rfl
    | cons d ds => simp [h d rfl]
  | cons c cs ih =>
    simp only [List.cons_append, List.dropWhile_cons, ih]
    split <;> rfl

namespace Lexer

/-- No number in front of these characters goes on into them. -/
def Separate (cs : List Char) : Prop := ∀ c ∈ cs.head?, c.isDigit = false ∧ c ≠ '.'

@[simp] theorem separate_nil : Separate [] := by simp [Separate]

@[simp] theorem separate_cons {c : Char} {cs : List Char} :
    Separate (c :: cs) ↔ c.isDigit = false ∧ c ≠ '.' := by simp [Separate]

theorem splitNumber_of_dropWhile_ne {cs : List Char}
    (h : ∀ rest, cs.dropWhile Char.isDigit ≠ '.' :: rest) :
    splitNumber cs = (cs.takeWhile Char.isDigit, cs.dropWhile Char.isDigit) := by
  unfold splitNumber
  split
  next rest heq => exact absurd heq (h rest)
  next => rfl

theorem splitNumber_append_separate {ds : List Char} (h : Separate ds) (cs : List Char) :
    splitNumber (cs ++ ds) = ((splitNumber cs).1, (splitNumber cs).2 ++ ds) := by
  have htake := Text.takeWhile_append_of_head fun c hc => (h c hc).1
  have hdrop := Text.dropWhile_append_of_head fun c hc => (h c hc).1
  -- Behind the digits in front there is a point in `cs`, or `ds` brings none either.
  by_cases hpoint : ∃ rest, cs.dropWhile Char.isDigit = '.' :: rest
  · obtain ⟨rest, hrest⟩ := hpoint
    simp only [splitNumber, htake, hdrop, hrest, List.cons_append]
    split <;> rfl
  · have hcs : ∀ rest, cs.dropWhile Char.isDigit ≠ '.' :: rest := fun rest hrest =>
      hpoint ⟨rest, hrest⟩
    have hcat : ∀ rest, (cs ++ ds).dropWhile Char.isDigit ≠ '.' :: rest := by
      intro rest
      rw [hdrop]
      cases hcs' : cs.dropWhile Char.isDigit with
      | nil =>
        rintro rfl
        exact (separate_cons.mp h).2 rfl
      | cons c tail =>
        intro heq
        obtain ⟨rfl, _⟩ := List.cons.inj heq
        exact hcs tail hcs'
    rw [splitNumber_of_dropWhile_ne hcs, splitNumber_of_dropWhile_ne hcat, htake, hdrop]

theorem pieces_of_isDigit {c : Char} (h : c.isDigit) (cs : List Char) :
    pieces (c :: cs) =
      .token (.number (String.ofList (splitNumber (c :: cs)).1)) ::
        pieces (splitNumber (c :: cs)).2 := by
  rw [pieces, dif_pos h]

theorem pieces_of_not_isDigit {c : Char} (h : ¬c.isDigit) (cs : List Char) :
    pieces (c :: cs) = single c :: pieces cs := by
  rw [pieces, dif_neg h]

theorem pieces_append {ds : List Char} (h : Separate ds) (cs : List Char) :
    pieces (cs ++ ds) = pieces cs ++ pieces ds := by
  fun_induction pieces cs with
  | case1 => rfl
  | case2 c cs hc _ ih =>
    have hsplit := splitNumber_append_separate h (c :: cs)
    rw [List.cons_append] at hsplit
    rw [List.cons_append, pieces_of_isDigit hc, hsplit, ih, List.cons_append]
  | case3 c cs hc ih => rw [List.cons_append, pieces_of_not_isDigit hc, ih, List.cons_append]

/-! Places. -/

/-- How many bytes pieces take up together. -/
def extent : List Piece → Nat
  | [] => 0
  | p :: ps => p.size + extent ps

theorem extent_append (ps qs : List Piece) : extent (ps ++ qs) = extent ps + extent qs := by
  induction ps with
  | nil => exact (Nat.zero_add _).symm
  | cons p ps ih => rw [List.cons_append, extent, extent, ih, Nat.add_assoc]

theorem place_append (offset : Nat) (ps qs : List Piece) :
    place offset (ps ++ qs) = place offset ps ++ place (offset + extent ps) qs := by
  induction ps generalizing offset with
  | nil => rfl
  | cons p ps ih =>
    rw [List.cons_append, place, ih, extent, Nat.add_assoc]
    rfl

theorem extent_eq (ps : List Piece) :
    extent ps = (String.ofList (ps.flatMap (·.text.toList))).utf8ByteSize := by
  induction ps with
  | nil => rfl
  | cons p ps ih =>
    rw [extent, ih, List.flatMap_cons, String.ofList_append, String.ofList_toList,
      String.utf8ByteSize_append]
    rfl

theorem extent_pieces (text : String) : extent (pieces text.toList) = text.utf8ByteSize := by
  rw [extent_eq, flatMap_text_pieces, String.ofList_toList]

/-- The tokens of a text that starts at `offset`. -/
def tokensFrom (offset : Nat) (text : String) : List PlacedToken :=
  tokens (place offset (pieces text.toList))

theorem tokens_placed (source : String) : tokens (placed source) = tokensFrom 0 source := rfl

theorem tokensFrom_append_of_pieces {a b : String}
    (h : pieces (a ++ b).toList = pieces a.toList ++ pieces b.toList) (offset : Nat) :
    tokensFrom offset (a ++ b) = tokensFrom offset a ++ tokensFrom (offset + a.utf8ByteSize) b := by
  rw [tokensFrom, h, place_append, extent_pieces]
  exact List.filterMap_append

theorem tokensFrom_append {b : String} (h : Separate b.toList) (offset : Nat) (a : String) :
    tokensFrom offset (a ++ b) = tokensFrom offset a ++ tokensFrom (offset + a.utf8ByteSize) b := by
  apply tokensFrom_append_of_pieces
  rw [String.toList_append, pieces_append h]

theorem exists_append_of_mem {offset : Nat} {ps : List Piece} {q : Piece × Nat}
    (h : q ∈ place offset ps) :
    ∃ before after, ps = before ++ q.1 :: after ∧ q.2 = offset + extent before := by
  induction ps generalizing offset with
  | nil => contradiction
  | cons p ps ih =>
    cases h with
    | head => exact ⟨[], ps, rfl, rfl⟩
    | tail _ hq =>
      obtain ⟨before, after, rfl, hoffset⟩ := ih hq
      refine ⟨p :: before, after, rfl, ?_⟩
      rw [hoffset, extent, Nat.add_assoc]

theorem exists_append_of_mem_place {offset : Nat} {ps : List Piece} {t : PlacedToken}
    (h : t ∈ tokens (place offset ps)) :
    ∃ before after, ps = before ++ .token t.token :: after ∧
      t.offset = offset + extent before := exists_append_of_mem (mem_tokens.mp h)

/-- A token stands in the text where it is said to, and is written there. -/
theorem exists_append_of_mem_tokensFrom {offset : Nat} {text : String} {t : PlacedToken}
    (h : t ∈ tokensFrom offset text) :
    ∃ before after : String, text = before ++ t.token.text ++ after ∧
      t.offset = offset + before.utf8ByteSize := by
  obtain ⟨us, vs, hpieces, hoffset⟩ := exists_append_of_mem_place h
  rw [extent_eq] at hoffset
  refine ⟨_, String.ofList (vs.flatMap (·.text.toList)), ?_, hoffset⟩
  apply String.toList_injective
  have hchars := flatMap_text_pieces text.toList
  rw [hpieces, List.flatMap_append, List.flatMap_cons] at hchars
  simp only [String.toList_append, String.toList_ofList, ← hchars, List.append_assoc]
  rfl

/-! Symbols. -/

theorem symbol?_eq_none_iff {c : Char} : symbol? c = none ↔ c ∉ "+-*/()".toList := by
  have hlist : "+-*/()".toList = ['+', '-', '*', '/', '(', ')'] := rfl
  rw [hlist]
  unfold symbol? Operator.ofSymbol?
  split <;> simp_all
  split <;> simp_all

theorem isSymbol_of_symbol? {c : Char} {t : Token} (h : symbol? c = some t) : t.IsSymbol := by
  unfold symbol? at h
  split at h
  next => cases h; trivial
  next => cases h; trivial
  next =>
    obtain ⟨op, _, rfl⟩ := Option.map_eq_some_iff.mp h
    trivial

theorem exists_char_of_isSymbol {t : Token} (h : t.IsSymbol) :
    ∃ c, t.text = String.singleton c ∧ symbol? c = some t ∧ c.isDigit = false ∧ c ≠ '.' ∧
      c.utf8Size = 1 := by
  cases t with
  | number => exact absurd h id
  | operator op => exact ⟨op.symbol, rfl, by cases op <;> decide⟩
  | openParen => exact ⟨'(', rfl, by decide⟩
  | closeParen => exact ⟨')', rfl, by decide⟩

theorem separate_symbol_append {t : Token} (h : t.IsSymbol) (b : String) :
    Separate (t.text ++ b).toList := by
  obtain ⟨c, htext, _, hdigit, hpoint, _⟩ := exists_char_of_isSymbol h
  simp [htext, hdigit, hpoint]

theorem pieces_symbol_append {t : Token} (h : t.IsSymbol) (b : String) :
    pieces (t.text ++ b).toList = .token t :: pieces b.toList := by
  obtain ⟨c, htext, hsymbol, hdigit, _, _⟩ := exists_char_of_isSymbol h
  rw [htext, String.toList_append, String.toList_singleton, List.singleton_append,
    pieces_of_not_isDigit (by simp [hdigit]), single, hsymbol]

theorem utf8ByteSize_text_of_isSymbol {t : Token} (h : t.IsSymbol) :
    t.text.utf8ByteSize = 1 := by
  obtain ⟨c, htext, _, _, _, hsize⟩ := exists_char_of_isSymbol h
  rw [htext, String.utf8ByteSize_singleton, hsize]

theorem tokensFrom_append_symbol {t : Token} (h : t.IsSymbol) (offset : Nat) (a b : String) :
    tokensFrom offset (a ++ (t.text ++ b)) =
      tokensFrom offset a ++ ⟨t, offset + a.utf8ByteSize⟩ ::
        tokensFrom (offset + a.utf8ByteSize + 1) b := by
  have hsize : (Piece.token t).size = 1 := utf8ByteSize_text_of_isSymbol h
  rw [tokensFrom_append (separate_symbol_append h b), tokensFrom, tokensFrom,
    pieces_symbol_append h, tokens_place_token, hsize]
  rfl

/-- Neither blanks nor dropped characters leave a token. -/
theorem tokens_place_single {c : Char} (h : symbol? c = none) (offset : Nat) (ps : List Piece) :
    tokens (place offset (single c :: ps)) = tokens (place (offset + (single c).size) ps) := by
  by_cases hblank : isBlank c
  · simp only [single, h, if_pos hblank]
    rfl
  · simp only [single, h, if_neg hblank]
    rfl

@[simp] theorem tokensFrom_empty (offset : Nat) : tokensFrom offset "" = [] := by
  rw [tokensFrom, String.toList_empty, pieces]
  rfl

theorem tokensFrom_symbol_append {t : Token} (h : t.IsSymbol) (offset : Nat) (b : String) :
    tokensFrom offset (t.text ++ b) = ⟨t, offset⟩ :: tokensFrom (offset + 1) b := by
  simpa using tokensFrom_append_symbol h offset "" b

/-- A parenthesized text with anything behind it. -/
theorem tokensFrom_group (offset : Nat) (a b : String) :
    tokensFrom offset ("(" ++ (a ++ (")" ++ b))) =
      ⟨.openParen, offset⟩ :: (tokensFrom (offset + 1) a ++
        ⟨.closeParen, offset + 1 + a.utf8ByteSize⟩ ::
          tokensFrom (offset + 1 + a.utf8ByteSize + 1) b) := by
  have hopen : Token.openParen.IsSymbol := trivial
  have hclose : Token.closeParen.IsSymbol := trivial
  rw [show "(" = Token.openParen.text from rfl, show ")" = Token.closeParen.text from rfl,
    tokensFrom_symbol_append hopen, tokensFrom_append_symbol hclose]

/-! Tokens without their places. -/

/-- What a text reads as. -/
def kinds (text : String) : List Token := (tokensFrom 0 text).map (·.token)

theorem map_token_place (offset offset' : Nat) (ps : List Piece) :
    (tokens (place offset ps)).map (·.token) = (tokens (place offset' ps)).map (·.token) := by
  induction ps generalizing offset offset' with
  | nil => rfl
  | cons p ps ih =>
    cases p with
    | token t => exact congrArg (t :: ·) (ih _ _)
    | blank | dropped => exact ih _ _

@[simp] theorem map_token_tokensFrom (offset : Nat) (text : String) :
    (tokensFrom offset text).map (·.token) = kinds text := map_token_place ..

end Lexer
end Calculator
