import Calculator.Expression
import Calculator.Proofs.Coverage

/-! Writing tokens out and reading them again. With gaps in between they are read as they were. With
nothing in between they are unless two numbers touch, since what is read first then goes on into the
second one. -/
namespace Calculator

/-- Nothing between two tokens. -/
def Gap.none : Gap where
  text := ""
  filler := by simp

namespace Token

/-- The tokens where `spread` puts their texts when it starts at `offset`. -/
def spreadAt (gap : Nat → Gap) (offset : Nat) : List Token → List PlacedToken
  | [] => []
  | t :: ts =>
    let start := offset + (gap 0).text.utf8ByteSize
    ⟨t, start⟩ :: spreadAt (fun i => gap (i + 1)) (start + t.text.utf8ByteSize) ts

/-- One of each two neighbours is a symbol, so no two numbers touch. -/
def Apart (ts : List Token) : Prop := ts.IsChain fun t u => t.IsSymbol ∨ u.IsSymbol

theorem map_token_spreadAt (gap : Nat → Gap) (offset : Nat) (ts : List Token) :
    (spreadAt gap offset ts).map (·.token) = ts := by
  induction ts generalizing gap offset with
  | nil => rfl
  | cons t ts ih => rw [spreadAt, List.map_cons, ih]

theorem toList_spread_none (ts : List Token) :
    (spread (fun _ => .none) ts).toList = ts.flatMap (·.text.toList) := by
  induction ts with
  | nil => rfl
  | cons t ts ih =>
    rw [spread, String.toList_append, String.toList_append, ih]
    rfl

end Token

namespace Lexer

variable {gap : Nat → Gap} {ts : List Token}

theorem tokensFrom_append_of_proper {t : Token} (h : t.Proper) {b : String}
    (hb : t.IsSymbol ∨ Separate b.toList) (offset : Nat) :
    tokensFrom offset (t.text ++ b) =
      ⟨t, offset⟩ :: tokensFrom (offset + t.text.utf8ByteSize) b := by
  by_cases hsymbol : t.IsSymbol
  · rw [tokensFrom_symbol_append hsymbol, utf8ByteSize_text_of_isSymbol hsymbol]
  · obtain ⟨text, rfl⟩ := Token.exists_number hsymbol
    rw [tokensFrom_append (hb.resolve_left hsymbol), tokensFrom, Token.text, pieces_numeral h]
    rfl

theorem tokensFrom_gap_append (g : Gap) (offset : Nat) (b : String) :
    tokensFrom offset (g.text ++ b) = tokensFrom (offset + g.text.utf8ByteSize) b := by
  have hpieces : pieces (g.text ++ b).toList = pieces g.text.toList ++ pieces b.toList := by
    rw [String.toList_append, pieces_append_of_no_digit fun c hc => (g.filler c hc).1]
  have hnone : tokensFrom offset g.text = [] :=
    tokensFrom_eq_nil_iff.mpr fun c hc => ⟨(g.filler c hc).1, (g.filler c hc).2.2⟩
  rw [tokensFrom_append_of_pieces hpieces, hnone, List.nil_append]

theorem separate_gap_append {g : Gap} {b : String} (h : g.text ≠ "" ∨ Separate b.toList) :
    Separate (g.text ++ b).toList := by
  rw [String.toList_append]
  cases htext : g.text.toList with
  | nil => exact h.resolve_left fun hne => hne (String.toList_eq_nil_iff.mp htext)
  | cons c cs =>
    have hc := g.filler c (by simp [htext])
    simp [hc.1, hc.2.1]

/-- No two numbers run into each other. -/
def Spaced (gap : Nat → Gap) (ts : List Token) : Prop :=
  (∀ i, 0 < i → i < ts.length → (gap i).text ≠ "") ∨ Token.Apart ts

theorem Spaced.separate {t : Token} (h : Spaced gap (t :: ts)) :
    t.IsSymbol ∨ Separate (Token.spread (fun i => gap (i + 1)) ts).toList := by
  cases ts with
  | nil =>
    have hlast := @separate_gap_append (gap 1) "" (.inr (by simp))
    rw [String.append_empty] at hlast
    exact .inr hlast
  | cons u ts =>
    obtain hne | hapart := h
    · exact .inr (separate_gap_append (.inl (hne 1 Nat.one_pos (by simp))))
    · refine (List.isChain_cons_cons.mp hapart).1.imp_right fun hu => ?_
      exact separate_gap_append (.inr (separate_symbol_append hu _))

theorem Spaced.tail {t : Token} (h : Spaced gap (t :: ts)) : Spaced (fun i => gap (i + 1)) ts :=
  h.imp (fun hne i _ hi => hne (i + 1) i.succ_pos (Nat.succ_lt_succ hi)) List.IsChain.of_cons

theorem tokensFrom_spread (h : ∀ t ∈ ts, t.Proper) (hspaced : Spaced gap ts) (offset : Nat) :
    tokensFrom offset (Token.spread gap ts) = Token.spreadAt gap offset ts := by
  induction ts generalizing gap offset with
  | nil => simpa [Token.spread, Token.spreadAt] using tokensFrom_gap_append (gap 0) offset ""
  | cons t ts ih =>
    obtain ⟨ht, hts⟩ := List.forall_mem_cons.mp h
    rw [Token.spread, tokensFrom_gap_append, tokensFrom_append_of_proper ht hspaced.separate,
      ih hts hspaced.tail]
    rfl

/-! Pieces that spell no more than their tokens. -/

theorem length_flatMap_tokens_le (offset : Nat) (ps : List Piece) :
    ((tokens (place offset ps)).flatMap (·.token.text.toList)).length ≤
      (ps.flatMap (·.text.toList)).length := by
  induction ps generalizing offset with
  | nil => exact Nat.le_refl _
  | cons p ps ih =>
    have hlater := ih (offset + p.size)
    rw [List.flatMap_cons, List.length_append]
    cases p with
    | token t =>
      rw [tokens_place_token, List.flatMap_cons, List.length_append]
      exact Nat.add_le_add_left hlater _
    | blank | dropped => exact Nat.le_trans hlater (Nat.le_add_left ..)

theorem eq_map_token_of_flatMap_eq {offset : Nat} {ps : List Piece}
    (h : (tokens (place offset ps)).flatMap (·.token.text.toList) = ps.flatMap (·.text.toList)) :
    ps = (tokens (place offset ps)).map fun t => .token t.token := by
  induction ps generalizing offset with
  | nil => rfl
  | cons p ps ih =>
    cases p with
    | token t =>
      rw [tokens_place_token, List.flatMap_cons, List.flatMap_cons] at h
      rw [tokens_place_token, List.map_cons, ← ih (List.append_cancel_left h)]
    | blank c | dropped c =>
      -- The tokens behind the character cannot make up for it.
      have hle := length_flatMap_tokens_le (offset + c.toString.utf8ByteSize) ps
      have hlength : ((tokens (place (offset + c.toString.utf8ByteSize) ps)).flatMap
          (·.token.text.toList)).length =
            (c.toString.toList ++ ps.flatMap (·.text.toList)).length := congrArg List.length h
      have hone : c.toString.toList.length = 1 := by simp
      rw [List.length_append, hone] at hlength
      omega

theorem apart_of_pieces {cs : List Char} (h : pieces cs = ts.map .token) : Token.Apart ts := by
  induction ts generalizing cs with
  | nil => exact .nil
  | cons t ts ih =>
    cases ts with
    | nil => exact .singleton t
    | cons u ts =>
      refine List.isChain_cons_cons.mpr ⟨?_, ih (@pieces_of_append _ [.token t] _ h)⟩
      cases t with
      | number text =>
        cases u with
        | number text' => exact absurd h pieces_ne_number_number
        | operator | openParen | closeParen => exact .inr trivial
      | operator | openParen | closeParen => exact .inl trivial

/-- If two numbers touch, other tokens are read. -/
theorem apart_of_kinds_spread (h : kinds (Token.spread (fun _ => .none) ts) = ts) :
    Token.Apart ts := by
  have hchars : (kinds (Token.spread (fun _ => .none) ts)).flatMap (·.text.toList) =
      (pieces (Token.spread (fun _ => .none) ts).toList).flatMap (·.text.toList) := by
    rw [h, flatMap_text_pieces, Token.toList_spread_none]
  rw [kinds, List.flatMap_map] at hchars
  have hpieces : pieces (Token.spread (fun _ => .none) ts).toList =
      (kinds (Token.spread (fun _ => .none) ts)).map .token := by
    rw [kinds, List.map_map]
    exact eq_map_token_of_flatMap_eq hchars
  rw [h] at hpieces
  exact apart_of_pieces hpieces

theorem tokenize_spread (hne : ts ≠ []) (h : ∀ t ∈ ts, t.Proper) (hspaced : Spaced gap ts) :
    tokenize (Token.spread gap ts) = .ok (Token.spreadAt gap 0 ts) := by
  refine tokenize_eq_ok_iff.mpr ⟨?_, (tokensFrom_spread h hspaced 0).symm⟩
  intro hnil
  have hmap := Token.map_token_spreadAt gap 0 ts
  rw [hnil] at hmap
  exact hne hmap.symm

/-- Tokens with gaps in between are read as they were written, whatever is in front of the first
and behind the last one. With nothing in between they are exactly if no two numbers touch, and
otherwise other tokens are read. So the tokens of a source can be written with spaces and read
again. -/
theorem spread_reads_back :
    (∀ ts : List Token, ts ≠ [] → (∀ t ∈ ts, t.Proper) →
      (∀ gap : Nat → Gap, (∀ i, 0 < i → i < ts.length → (gap i).text ≠ "") →
        tokenize (Token.spread gap ts) = .ok (Token.spreadAt gap 0 ts)) ∧
      (tokenize (Token.spread (fun _ => .none) ts) = .ok (Token.spreadAt (fun _ => .none) 0 ts) ↔
        Token.Apart ts) ∧
      ∀ us, tokenize (Token.spread (fun _ => .none) ts) = .ok us → us.map (·.token) = ts →
        Token.Apart ts) ∧
    ∀ source us, tokenize source = .ok us →
      ∀ gap : Nat → Gap, (∀ i, 0 < i → i < us.length → (gap i).text = " ") →
        ∃ vs, tokenize (Token.spread gap (us.map (·.token))) = .ok vs ∧
          vs.map (·.token) = us.map (·.token) := by
  refine ⟨fun ts hne h => ?lists, fun source us hus gap hgap => ?sources⟩
  case lists =>
    have hread : ∀ us, tokenize (Token.spread (fun _ => .none) ts) = .ok us →
        us.map (·.token) = ts → Token.Apart ts := by
      intro us hus hmap
      apply apart_of_kinds_spread
      rw [kinds, ← (tokenize_eq_ok_iff.mp hus).2, hmap]
    refine ⟨fun gap hgap => tokenize_spread hne h (.inl hgap), ⟨fun hok => ?_, fun hapart => ?_⟩,
      hread⟩
    · exact hread _ hok (Token.map_token_spreadAt _ 0 ts)
    · exact tokenize_spread hne h (.inr hapart)
  case sources =>
    obtain ⟨hne, rfl⟩ := tokenize_eq_ok_iff.mp hus
    have hproper : ∀ t ∈ (tokensFrom 0 source).map (·.token), t.Proper := by
      intro t ht
      obtain ⟨u, hu, rfl⟩ := List.mem_map.mp ht
      exact proper_of_mem_tokens hu
    have hspaced : Spaced gap ((tokensFrom 0 source).map (·.token)) := by
      refine .inl fun i hpos hi => ?_
      rw [hgap i hpos (by rwa [List.length_map] at hi)]
      decide
    exact ⟨_, tokenize_spread (mt List.map_eq_nil_iff.mp hne) hproper hspaced,
      Token.map_token_spreadAt ..⟩

end Lexer
end Calculator
