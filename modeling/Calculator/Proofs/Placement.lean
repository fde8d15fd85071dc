import Calculator.Token.Lexer

/-! Where the tokens of a source stand. The pieces spell the source and none of them is empty, so
the offsets of tokens increase and each parenthesis has a character of its own. -/
namespace Calculator.Lexer

theorem text_of_symbol? {c : Char} {t : Token} (h : symbol? c = some t) : t.text = c.toString := by
  unfold symbol? at h
  split at h
  next => cases h; rfl
  next => cases h; rfl
  next =>
    obtain ⟨op, hop, rfl⟩ := Option.map_eq_some_iff.mp h
    rw [Token.text, Operator.symbol_of_ofSymbol? hop]

theorem text_single (c : Char) : (single c).text = c.toString := by
  unfold single
  split
  next t ht => exact text_of_symbol? ht
  next => split <;> rfl

/-- No character is lost. -/
theorem flatMap_text_pieces (cs : List Char) : (pieces cs).flatMap (·.text.toList) = cs := by
  fun_induction pieces cs with
  | case1 => rfl
  | case2 c cs h _ ih =>
    rw [List.flatMap_cons, ih, Piece.text, Token.text, String.toList_ofList, splitNumber_append]
  | case3 c cs h ih =>
    rw [List.flatMap_cons, ih, text_single]
    simp

theorem size_pos_of_mem_pieces (cs : List Char) : ∀ p ∈ pieces cs, 0 < p.size := by
  have size_pos {p : Piece} (h : p.text ≠ "") : 0 < p.size :=
    Nat.pos_of_ne_zero (mt String.utf8ByteSize_eq_zero_iff.mp h)
  fun_induction pieces cs with
  | case1 => nofun
  | case2 c cs h _ ih =>
    have hne := splitNumber_fst_ne_nil h cs
    exact List.forall_mem_cons.mpr ⟨size_pos (by simpa [Piece.text, Token.text] using hne), ih⟩
  | case3 c cs h ih =>
    exact List.forall_mem_cons.mpr ⟨size_pos (by simp [text_single]), ih⟩

/-! Tokens keep the places of their pieces. -/

theorem tokens_place_token (offset : Nat) (t : Token) (ps : List Piece) :
    tokens (place offset (.token t :: ps)) =
      ⟨t, offset⟩ :: tokens (place (offset + (Piece.token t).size) ps) := rfl

theorem mem_tokens {qs : List (Piece × Nat)} {t : PlacedToken} :
    t ∈ tokens qs ↔ (.token t.token, t.offset) ∈ qs := by
  rw [tokens, List.mem_filterMap]
  constructor
  · rintro ⟨⟨p, offset⟩, hmem, heq⟩
    cases p with
    | token u =>
      obtain rfl := Option.some.inj heq
      exact hmem
    | blank | dropped => contradiction
  · exact fun h => ⟨_, h, rfl⟩

theorem mem_dropped {qs : List (Piece × Nat)} {c : Char} {offset : Nat} :
    (c, offset) ∈ dropped qs ↔ (.dropped c, offset) ∈ qs := by
  rw [dropped, List.mem_filterMap]
  constructor
  · rintro ⟨⟨p, start⟩, hmem, heq⟩
    cases p with
    | dropped d =>
      obtain ⟨rfl, rfl⟩ := Prod.mk.inj (Option.some.inj heq)
      exact hmem
    | blank | token => contradiction
  · exact fun h => ⟨_, h, rfl⟩

theorem le_of_mem_place {offset : Nat} {ps : List Piece} :
    ∀ q ∈ place offset ps, offset ≤ q.2 := by
  induction ps generalizing offset with
  | nil => exact List.forall_mem_nil _
  | cons p ps ih =>
    refine List.forall_mem_cons.mpr ⟨Nat.le_refl _, fun q hq => ?_⟩
    exact Nat.le_of_add_right_le (ih q hq)

theorem pairwise_place {offset : Nat} {ps : List Piece} (h : ∀ p ∈ ps, 0 < p.size) :
    (place offset ps).Pairwise fun p q => p.2 < q.2 ∧ p.2 + p.1.size ≤ q.2 := by
  induction ps generalizing offset with
  | nil => exact .nil
  | cons p ps ih =>
    obtain ⟨hp, hps⟩ := List.forall_mem_cons.mp h
    refine .cons (fun q hq => ?_) (ih hps)
    have := le_of_mem_place q hq
    dsimp only
    omega

theorem pairwise_tokens (source : String) :
    (tokens (placed source)).Pairwise fun t u =>
      t.offset < u.offset ∧ t.offset + t.token.text.utf8ByteSize ≤ u.offset := by
  refine (pairwise_place (size_pos_of_mem_pieces source.toList)).filterMap _ ?_
  rintro ⟨p, i⟩ ⟨q, j⟩ h t ht u hu
  cases p with
  | token =>
    cases q with
    | token =>
      obtain rfl := Option.some.inj ht
      obtain rfl := Option.some.inj hu
      exact h
    | blank | dropped => contradiction
  | blank | dropped => contradiction

theorem pairwise_dropped (source : String) :
    (droppedCharacters source).Pairwise fun d e => d.2 < e.2 ∧ d.2 + d.1.utf8Size ≤ e.2 := by
  refine (pairwise_place (size_pos_of_mem_pieces source.toList)).filterMap _ ?_
  rintro ⟨p, i⟩ ⟨q, j⟩ h d hd e he
  cases p with
  | dropped c =>
    cases q with
    | dropped =>
      obtain rfl := Option.some.inj hd
      obtain rfl := Option.some.inj he
      have hsize : (Piece.dropped c).size = c.utf8Size := String.utf8ByteSize_singleton
      rwa [hsize] at h
    | blank | token => contradiction
  | blank | token => contradiction

theorem pairwise_offset_tokens (source : String) :
    (tokens (placed source)).Pairwise (·.offset < ·.offset) :=
  (pairwise_tokens source).imp And.left

theorem count_openParen_place_le (offset : Nat) (ps : List Piece) :
    ((tokens (place offset ps)).map (·.token)).count .openParen ≤
      (ps.flatMap (·.text.toList)).count '(' := by
  induction ps generalizing offset with
  | nil => exact Nat.le_refl _
  | cons p ps ih =>
    have hlater := ih (offset + p.size)
    rw [List.flatMap_cons, List.count_append]
    cases p with
    | token t =>
      rw [tokens_place_token, List.map_cons]
      cases t with
      | openParen =>
        have hparen : (Piece.token .openParen).text.toList.count '(' = 1 := by decide
        simp only [List.count_cons_self, hparen]
        omega
      | number | operator | closeParen =>
        rw [List.count_cons_of_ne (by simp)]
        omega
    | blank | dropped => exact Nat.le_trans hlater (Nat.le_add_left ..)

theorem count_openParen_tokens_le (source : String) :
    ((tokens (placed source)).map (·.token)).count .openParen ≤ source.toList.count '(' := by
  have h := count_openParen_place_le 0 (pieces source.toList)
  rwa [flatMap_text_pieces] at h

end Calculator.Lexer
