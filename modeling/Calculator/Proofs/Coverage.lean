import Mathlib.Data.List.Pairwise
import Mathlib.Data.List.Sort
import Calculator.Proofs.Spans

/-! What becomes of each character of a source. It is part of one token, or it is dropped, or it is
a blank, and numbers are as long as they can be. No other tokens and dropped characters account for
a source in this way. -/
namespace Calculator.Lexer

/-! Each character is accounted for once. -/

/-- How many tokens and dropped characters take up the character at the place `i`. -/
def uses (ts : List PlacedToken) (ds : List (Char × Nat)) (i : Nat) : Nat :=
  ts.countP (·.Covers i) + ds.countP (·.2 = i)

/-- What a piece that starts at `offset` adds to these. -/
def use (offset : Nat) (p : Piece) (i : Nat) : Nat :=
  match p with
  | .token t => if PlacedToken.Covers ⟨t, offset⟩ i then 1 else 0
  | .blank _ => 0
  | .dropped _ => if offset = i then 1 else 0

theorem uses_place_cons (offset : Nat) (p : Piece) (ps : List Piece) (i : Nat) :
    uses (tokens (place offset (p :: ps))) (dropped (place offset (p :: ps))) i = use offset p i +
      uses (tokens (place (offset + p.size) ps)) (dropped (place (offset + p.size) ps)) i := by
  cases p with
  | token t =>
    have hdropped : dropped (place offset (.token t :: ps)) =
        dropped (place (offset + (Piece.token t).size) ps) := rfl
    rw [uses, tokens_place_token, hdropped, List.countP_cons]
    simp only [decide_eq_true_eq, use, uses]
    omega
  | blank c => exact (Nat.zero_add _).symm
  | dropped c =>
    have htokens : tokens (place offset (.dropped c :: ps)) =
        tokens (place (offset + (Piece.dropped c).size) ps) := rfl
    have hdropped : dropped (place offset (.dropped c :: ps)) =
        (c, offset) :: dropped (place (offset + (Piece.dropped c).size) ps) := rfl
    rw [uses, htokens, hdropped, List.countP_cons]
    simp only [decide_eq_true_eq, use, uses]
    omega

theorem use_eq_zero {offset i : Nat} {p : Piece} (hp : 0 < p.size) (h : offset + p.size ≤ i) :
    use offset p i = 0 := by
  cases p with
  | token t => exact if_neg fun hcovers => Nat.not_lt.mpr h hcovers.2
  | blank => rfl
  | dropped => exact if_neg (by omega)

theorem uses_of_lt {offset i : Nat} (h : i < offset) (ps : List Piece) :
    uses (tokens (place offset ps)) (dropped (place offset ps)) i = 0 := by
  induction ps generalizing offset with
  | nil => rfl
  | cons p ps ih =>
    have hp : use offset p i = 0 := by
      cases p with
      | token t => exact if_neg fun hcovers => Nat.not_lt.mpr hcovers.1 h
      | blank => rfl
      | dropped => exact if_neg (by omega)
    rw [uses_place_cons, hp, ih (Nat.lt_add_right _ h)]

/-- A character of a piece is used once, but not if it is a blank. -/
theorem use_add_blank {p : Piece} (hp : p.Proper) {as bs : List Char} {c : Char}
    (h : p.text.toList = as ++ c :: bs) (offset : Nat) :
    use offset p (offset + (String.ofList as).utf8ByteSize) + (if isBlank c then 1 else 0) = 1 := by
  have honly {b : Char} (hb : [b] = as ++ c :: bs) : as = [] ∧ b = c := by
    cases as with
    | nil => exact ⟨rfl, (List.cons.inj hb).1⟩
    | cons => simp at hb
  cases p with
  | token t =>
    have hblank : isBlank c = false :=
      Token.Proper.isBlank_eq_false hp (c := c) (by rw [← Piece.text, h]; simp)
    have hsize : t.text.utf8ByteSize =
        (String.ofList as).utf8ByteSize + (String.ofList (c :: bs)).utf8ByteSize := by
      rw [← utf8ByteSize_ofList_append, ← h, String.ofList_toList, Piece.text]
    have hpos := utf8ByteSize_ofList_pos (List.cons_ne_nil c bs)
    have hcovers : PlacedToken.Covers ⟨t, offset⟩ (offset + (String.ofList as).utf8ByteSize) := by
      refine ⟨Nat.le_add_right .., ?_⟩
      show _ < offset + t.text.utf8ByteSize
      omega
    rw [hblank, use, if_pos hcovers]
    rfl
  | blank b =>
    obtain ⟨rfl, rfl⟩ := honly (by simpa [Piece.text] using h)
    have hblank : isBlank b = true := hp
    rw [hblank]
    rfl
  | dropped b =>
    obtain ⟨rfl, rfl⟩ := honly (by simpa [Piece.text] using h)
    have hblank : isBlank b = false := hp.1
    have hplace : offset = offset + (String.ofList []).utf8ByteSize := rfl
    rw [hblank, use, if_pos hplace]
    rfl

theorem uses_add_blank {ps : List Piece} (hproper : ∀ p ∈ ps, p.Proper)
    (hsize : ∀ p ∈ ps, 0 < p.size) {as bs : List Char} {c : Char}
    (h : ps.flatMap (·.text.toList) = as ++ c :: bs) (offset : Nat) :
    uses (tokens (place offset ps)) (dropped (place offset ps))
      (offset + (String.ofList as).utf8ByteSize) + (if isBlank c then 1 else 0) = 1 := by
  induction ps generalizing as offset with
  | nil => simp at h
  | cons p ps ih =>
    obtain ⟨hp, hps⟩ := List.forall_mem_cons.mp hproper
    obtain ⟨hpos, hsizes⟩ := List.forall_mem_cons.mp hsize
    rw [List.flatMap_cons] at h
    have hp' : (String.ofList p.text.toList).utf8ByteSize = p.size := by
      rw [String.ofList_toList, Piece.size]
    by_cases hlt : (String.ofList as).utf8ByteSize < p.size
    · -- The character is in the first piece, and no later piece reaches back to it.
      obtain ⟨rest, hrest, hbs⟩ :=
        exists_append_of_utf8ByteSize_le h.symm (by rw [hp']; exact Nat.le_of_lt hlt)
      cases rest with
      | nil =>
        rw [List.append_nil] at hrest
        rw [← hrest, hp'] at hlt
        exact absurd hlt (Nat.lt_irrefl _)
      | cons d rest =>
        obtain ⟨rfl, -⟩ := List.cons.inj hbs
        have hlater := uses_of_lt (Nat.add_lt_add_left hlt offset) ps
        rw [uses_place_cons, hlater]
        exact use_add_blank hp hrest offset
    · obtain ⟨rest, rfl, hbs⟩ :=
        exists_append_of_utf8ByteSize_le h (by rw [hp']; exact Nat.not_lt.mp hlt)
      have hfirst : use offset p
          (offset + (String.ofList (p.text.toList ++ rest)).utf8ByteSize) = 0 :=
        use_eq_zero hpos (Nat.add_le_add_left (Nat.not_lt.mp hlt) offset)
      rw [uses_place_cons, hfirst, Nat.zero_add, utf8ByteSize_ofList_append, hp', ← Nat.add_assoc]
      exact ih hps hsizes hbs (offset + p.size)

/-- Tokens and dropped characters that account for a source. -/
structure Accounts (source : String) (ts : List PlacedToken) (ds : List (Char × Nat)) : Prop where
  stands : ∀ t ∈ ts, StandsAt source t.token.text t.offset
  ordered : ts.Pairwise PlacedToken.Precedes
  orderedDropped : ds.Pairwise fun d e => d.2 < e.2 ∧ d.2 + d.1.utf8Size ≤ e.2
  /-- A character is in one token, or it is dropped, or it is a blank. -/
  once : ∀ (c : Char) offset, StandsAt source c.toString offset →
    uses ts ds offset + (if c ∈ [' ', '\t', '\r', '\n', '\x0c'] then 1 else 0) = 1
  symbol : ∀ (c : Char) offset, c ∈ "+-*/()".toList → StandsAt source c.toString offset →
    ∃ t : Token, t.IsSymbol ∧ t.text = c.toString ∧ ⟨t, offset⟩ ∈ ts
  digit : ∀ (c : Char) offset, c.isDigit → StandsAt source c.toString offset →
    ∃! t : PlacedToken, t ∈ ts ∧ ¬t.token.IsSymbol ∧ t.Covers offset
  number : ∀ text offset, ⟨.number text, offset⟩ ∈ ts → IsNumeral text.toList ∧
    ∀ before after : String, source = before ++ text ++ after → before.utf8ByteSize = offset →
      Stops text.toList after.toList ∧ ∀ c ∈ before.toList.getLast?, c.isDigit = false
  dropped_iff : ∀ (c : Char) offset, (c, offset) ∈ ds ↔ StandsAt source c.toString offset ∧
    c ∉ [' ', '\t', '\r', '\n', '\x0c'] ∧ c.isDigit = false ∧ c ∉ "+-*/()".toList ∧
    ¬∃ t ∈ ts, ¬t.token.IsSymbol ∧ c = '.' ∧ t.Covers offset

/-- Wherever a token could begin one does, or one goes on there, and none could be longer. -/
def Longest (source : String) (ts : List PlacedToken) : Prop :=
  ∀ (t : Token) offset, t.Proper → StandsAt source t.text offset →
    ∃ u ∈ ts, u.Covers offset ∧
      (u.offset = offset → t.text.utf8ByteSize ≤ u.token.text.utf8ByteSize)

theorem eq_of_pairwise_lt {β : Type} (key : β → Nat) {xs ys : List β}
    (hxs : xs.Pairwise (key · < key ·)) (hys : ys.Pairwise (key · < key ·))
    (h : ∀ x, x ∈ xs ↔ x ∈ ys) : xs = ys := by
  have : Std.Irrefl (key · < key ·) := ⟨fun _ => Nat.lt_irrefl _⟩
  have : Std.Antisymm (key · < key ·) := ⟨fun _ _ h h' => absurd h (Nat.lt_asymm h')⟩
  exact hxs.eq_of_mem_iff hys h

theorem eq_of_covers {ts : List PlacedToken} (h : ts.Pairwise PlacedToken.Precedes)
    {t u : PlacedToken} (ht : t ∈ ts) (hu : u ∈ ts) {offset : Nat} (hoffset : t.Covers offset)
    (hoffset' : u.Covers offset) : t = u := by
  let Same (t u : PlacedToken) : Prop := t.Covers offset → u.Covers offset → t = u
  have hsame : ts.Pairwise Same := by
    refine h.imp fun hlt hcovers hcovers' => ?_
    exact absurd hcovers.2 (Nat.not_lt.mpr (Nat.le_trans hlt.2 hcovers'.1))
  have : Std.Symm Same := ⟨fun _ _ h hu ht => (h ht hu).symm⟩
  exact hsame.forall_of_forall (fun _ _ _ _ => rfl) ht hu hoffset hoffset'

/-! The lexer's own account. -/

theorem standsAt_of_mem_placed {source : String} {p : Piece} {offset : Nat}
    (h : (p, offset) ∈ placed source) : StandsAt source p.text offset := by
  obtain ⟨us, vs, hpieces, hoffset⟩ := exists_append_of_mem h
  rw [extent_eq, Nat.zero_add] at hoffset
  have hchars := flatMap_text_pieces source.toList
  rw [hpieces, List.flatMap_append, List.flatMap_cons] at hchars
  exact standsAt_iff.mpr ⟨_, _, hchars.symm, hoffset.symm⟩

theorem proper_of_mem_placed {source : String} {p : Piece} {offset : Nat}
    (h : (p, offset) ∈ placed source) : p.Proper := by
  obtain ⟨us, vs, hpieces, -⟩ := exists_append_of_mem h
  exact proper_of_mem_pieces source.toList p (by simp [hpieces])

theorem proper_of_mem_tokens {source : String} {t : PlacedToken} (h : t ∈ tokens (placed source)) :
    t.token.Proper := proper_of_mem_placed (mem_tokens.mp h)

theorem of_mem_dropped {source : String} {c : Char} {offset : Nat}
    (h : (c, offset) ∈ droppedCharacters source) : StandsAt source c.toString offset ∧
      isBlank c = false ∧ c.isDigit = false ∧ c ∉ "+-*/()".toList := by
  have hmem : (Piece.dropped c, offset) ∈ placed source := mem_dropped.mp h
  have hstands := standsAt_of_mem_placed hmem
  rw [Piece.text] at hstands
  exact ⟨hstands, proper_of_mem_placed hmem⟩

theorem uses_placed {source : String} {c : Char} {offset : Nat}
    (h : StandsAt source c.toString offset) :
    uses (tokens (placed source)) (droppedCharacters source) offset +
      (if isBlank c then 1 else 0) = 1 := by
  obtain ⟨as, bs, hsource, rfl⟩ := standsAt_iff.mp h
  rw [Char.toString_eq_singleton, String.toList_singleton, List.singleton_append] at hsource
  have huses := uses_add_blank (proper_of_mem_pieces source.toList)
    (size_pos_of_mem_pieces source.toList) ((flatMap_text_pieces source.toList).trans hsource) 0
  rwa [Nat.zero_add] at huses

theorem covered_or_dropped {source : String} {c : Char} {offset : Nat}
    (h : StandsAt source c.toString offset) (hblank : isBlank c = false) :
    (∃ t ∈ tokens (placed source), t.Covers offset) ∨ (c, offset) ∈ droppedCharacters source := by
  have huses := uses_placed h
  rw [hblank, uses] at huses
  by_cases hcovered : ∃ t ∈ tokens (placed source), t.Covers offset
  · exact .inl hcovered
  · have hnone : (tokens (placed source)).countP (·.Covers offset) = 0 := by
      rw [List.countP_eq_zero]
      exact fun t ht hcovers => hcovered ⟨t, ht, of_decide_eq_true hcovers⟩
    rw [hnone] at huses
    have hpos : 0 < (droppedCharacters source).countP (·.2 = offset) := by
      simp only [Bool.false_eq_true, if_false] at huses
      omega
    obtain ⟨⟨d, start⟩, hd, heq⟩ := List.countP_pos_iff.mp hpos
    obtain rfl : start = offset := of_decide_eq_true heq
    exact .inr (h.char_eq (of_mem_dropped hd).1 ▸ hd)

theorem not_covered_of_dropped {source : String} {c : Char} {offset : Nat}
    (h : (c, offset) ∈ droppedCharacters source) {t : PlacedToken}
    (ht : t ∈ tokens (placed source)) : ¬t.Covers offset := by
  intro hcovers
  have huses := uses_placed (of_mem_dropped h).1
  have htokens : 0 < (tokens (placed source)).countP (·.Covers offset) :=
    List.countP_pos_iff.mpr ⟨t, ht, decide_eq_true hcovers⟩
  have hdropped : 0 < (droppedCharacters source).countP (·.2 = offset) :=
    List.countP_pos_iff.mpr ⟨_, h, decide_eq_true rfl⟩
  rw [uses] at huses
  omega

theorem exists_covers_of_mem_symbols {source : String} {c : Char} {offset : Nat}
    (hc : c ∈ "+-*/()".toList) (h : StandsAt source c.toString offset) :
    ∃ t : Token, t.IsSymbol ∧ t.text = c.toString ∧ ⟨t, offset⟩ ∈ tokens (placed source) := by
  obtain ⟨u, hu⟩ : ∃ u, symbol? c = some u := by
    rw [← Option.ne_none_iff_exists']
    exact fun hnone => symbol?_eq_none_iff.mp hnone hc
  obtain ⟨t, ht, hcovers⟩ | hdropped := covered_or_dropped h (isBlank_eq_false_of_symbol? hu)
  · obtain ⟨hsymbol, ht'⟩ | ⟨-, hdigit | rfl⟩ :=
      (proper_of_mem_tokens ht).char_cases (hcovers.mem (standsAt_of_mem_tokensFrom ht) h)
    · refine ⟨t.token, hsymbol, text_of_symbol? ht', ?_⟩
      have hsize := utf8ByteSize_text_of_isSymbol hsymbol
      have hoffset : t.offset = offset := by
        obtain ⟨hle, hlt⟩ := hcovers
        rw [PlacedToken.finish, hsize] at hlt
        omega
      exact hoffset ▸ ht
    · exact absurd hdigit (ne_true_of_eq_false (isDigit_eq_false_of_symbol? hu))
    · contradiction
  · exact absurd hc (of_mem_dropped hdropped).2.2.2

theorem exists_covers_of_isDigit {source : String} {c : Char} {offset : Nat} (hc : c.isDigit)
    (h : StandsAt source c.toString offset) :
    ∃ t ∈ tokens (placed source), ¬t.token.IsSymbol ∧ t.Covers offset := by
  obtain ⟨t, ht, hcovers⟩ | hdropped := covered_or_dropped h (isBlank_eq_false_of_isDigit hc)
  · obtain ⟨-, hsymbol⟩ | ⟨hnumber, -⟩ :=
      (proper_of_mem_tokens ht).char_cases (hcovers.mem (standsAt_of_mem_tokensFrom ht) h)
    · exact absurd hc (ne_true_of_eq_false (isDigit_eq_false_of_symbol? hsymbol))
    · exact ⟨t, ht, hnumber, hcovers⟩
  · exact absurd hc (ne_true_of_eq_false (of_mem_dropped hdropped).2.2.1)

/-- What stands around a number of a source. -/
theorem stops_of_mem_tokens {source text : String} {offset : Nat}
    (h : ⟨.number text, offset⟩ ∈ tokens (placed source)) {as bs : List Char}
    (hsource : source.toList = as ++ (text.toList ++ bs))
    (hsize : (String.ofList as).utf8ByteSize = offset) :
    Stops text.toList bs ∧ ∀ c ∈ as.getLast?, c.isDigit = false := by
  obtain ⟨us, vs, hpieces, hplace⟩ := exists_append_of_mem_place h
  have hchars := flatMap_text_pieces source.toList
  rw [hpieces, List.flatMap_append, List.flatMap_cons, hsource] at hchars
  rw [extent_eq, Nat.zero_add] at hplace
  obtain ⟨rfl, hback⟩ := append_inj_of_utf8ByteSize_eq hchars (hplace.symm.trans hsize.symm)
  rw [← List.append_cancel_left hback]
  exact ⟨stops_of_pieces (pieces_of_append hpieces), not_isDigit_of_pieces hpieces⟩

/-- No number could begin where one does and be longer. -/
theorem utf8ByteSize_le_of_mem_tokens {source text text' : String} {offset : Nat}
    (h : ⟨.number text, offset⟩ ∈ tokens (placed source)) (hn : IsNumeral text'.toList)
    (h' : StandsAt source text' offset) : text'.utf8ByteSize ≤ text.utf8ByteSize := by
  have hstands : StandsAt source text offset := standsAt_of_mem_tokensFrom h
  obtain ⟨as, bs, hsource, hsize⟩ := standsAt_iff.mp hstands
  obtain ⟨as', bs', hsource', hsize'⟩ := standsAt_iff.mp h'
  obtain ⟨rfl, htexts⟩ := append_inj_of_utf8ByteSize_eq (hsource'.symm.trans hsource)
    (hsize'.trans hsize.symm)
  obtain hle | hle := Nat.le_total text'.utf8ByteSize text.utf8ByteSize
  · exact hle
  obtain ⟨rest, hrest, rfl⟩ := exists_append_of_utf8ByteSize_le htexts.symm (by simpa using hle)
  rw [hrest] at hn
  rw [(stops_of_mem_tokens h hsource hsize).1.eq_nil hn, List.append_nil] at hrest
  rw [String.toList_injective hrest]

theorem accounts_placed (source : String) :
    Accounts source (tokens (placed source)) (droppedCharacters source) where
  stands _ ht := standsAt_of_mem_tokensFrom ht
  ordered := pairwise_tokens source
  orderedDropped := pairwise_dropped source
  once _ _ h := by simpa only [isBlank_iff] using uses_placed h
  symbol _ _ hc h := exists_covers_of_mem_symbols hc h
  digit := by
    intro c offset hc h
    obtain ⟨t, ht, hnumber, hcovers⟩ := exists_covers_of_isDigit hc h
    refine ⟨t, ⟨ht, hnumber, hcovers⟩, ?_⟩
    rintro u ⟨hu, -, hcovers'⟩
    exact eq_of_covers (pairwise_tokens source) hu ht hcovers' hcovers
  number := by
    refine fun text offset h => ⟨proper_of_mem_tokens h, fun before after hsource hbefore => ?_⟩
    refine stops_of_mem_tokens h ?_ (by rw [String.ofList_toList, hbefore])
    rw [hsource, String.append_assoc, String.toList_append, String.toList_append]
  dropped_iff := by
    intro c offset
    constructor
    · intro h
      obtain ⟨hstands, hblank, hdigit, hsymbol⟩ := of_mem_dropped h
      refine ⟨hstands, isBlank_eq_false_iff.mp hblank, hdigit, hsymbol, ?_⟩
      rintro ⟨t, ht, -, -, hcovers⟩
      exact not_covered_of_dropped h ht hcovers
    · rintro ⟨h, hblank, hdigit, hsymbol, hpoint⟩
      obtain ⟨t, ht, hcovers⟩ | hdropped := covered_or_dropped h (isBlank_eq_false_iff.mpr hblank)
      · obtain ⟨-, hc⟩ | ⟨hnumber, hc | rfl⟩ :=
          (proper_of_mem_tokens ht).char_cases (hcovers.mem (standsAt_of_mem_tokensFrom ht) h)
        · exact absurd (mem_symbols_of_symbol? hc) hsymbol
        · exact absurd hc (ne_true_of_eq_false hdigit)
        · exact absurd ⟨t, ht, hnumber, rfl, hcovers⟩ hpoint
      · exact hdropped

theorem longest_placed (source : String) : Longest source (tokens (placed source)) := by
  intro t offset ht h
  obtain ⟨c, rest, htext, hc⟩ := ht.exists_first
  have hfirst := h.first htext
  obtain ⟨hnumber, hdigit⟩ | ⟨hsymbol, hc⟩ := hc
  · obtain ⟨⟨u, start⟩, hu, hnumber', hcovers⟩ := exists_covers_of_isDigit hdigit hfirst
    refine ⟨⟨u, start⟩, hu, hcovers, ?_⟩
    rintro rfl
    obtain ⟨text, rfl⟩ := Token.exists_number hnumber
    obtain ⟨text', rfl⟩ := Token.exists_number hnumber'
    exact utf8ByteSize_le_of_mem_tokens hu ht h
  · obtain ⟨u, hsymbol', hu, hmem⟩ :=
      exists_covers_of_mem_symbols (mem_symbols_of_symbol? hc) hfirst
    have hsize := utf8ByteSize_text_of_isSymbol hsymbol
    have hsize' := utf8ByteSize_text_of_isSymbol hsymbol'
    refine ⟨⟨u, offset⟩, hmem, ⟨Nat.le_refl _, ?_⟩, fun _ => ?_⟩
    · show offset < offset + u.text.utf8ByteSize
      omega
    · rw [hsize, hsize']

/-! No other account. -/

namespace Accounts

variable {source : String} {ts : List PlacedToken} {ds : List (Char × Nat)}

theorem proper (h : Accounts source ts ds) {t : PlacedToken} (ht : t ∈ ts) : t.token.Proper := by
  obtain ⟨token, offset⟩ := t
  cases token with
  | number text => exact (h.number text offset ht).1
  | operator | openParen | closeParen => trivial

theorem covers_offset (h : Accounts source ts ds) {t : PlacedToken} (ht : t ∈ ts) :
    t.Covers t.offset := by
  obtain ⟨c, rest, htext, -⟩ := (h.proper ht).exists_first
  have hpos := utf8ByteSize_ofList_pos (List.cons_ne_nil c rest)
  rw [← htext, String.ofList_toList] at hpos
  exact ⟨Nat.le_refl _, Nat.lt_add_of_pos_right hpos⟩

theorem not_straddles_finish (h : Accounts source ts ds) {t : PlacedToken} (ht : t ∈ ts) :
    ∀ u ∈ ts, ¬u.Straddles t.finish := by
  rintro u hu ⟨hlt, hlt'⟩
  have hfirst := (h.covers_offset ht).2
  have hcovers : t.Covers (max t.offset u.offset) := ⟨by omega, by omega⟩
  have hcovers' : u.Covers (max t.offset u.offset) := ⟨by omega, by omega⟩
  rw [eq_of_covers h.ordered ht hu hcovers hcovers'] at hlt'
  exact Nat.lt_irrefl _ hlt'

/-- No token begins at a character that no token begins with, or inside of it. -/
theorem not_straddles_next (h : Accounts source ts ds) {as cs : List Char} {c : Char}
    (hsource : source.toList = as ++ c :: cs) (hdigit : c.isDigit = false)
    (hsymbol : symbol? c = none) (hclear : ∀ t ∈ ts, ¬t.Straddles (String.ofList as).utf8ByteSize) :
    ∀ t ∈ ts, ¬t.Straddles ((String.ofList as).utf8ByteSize + (single c).size) := by
  rintro t ht ⟨hlt, hlt'⟩
  obtain hbefore | hle := Nat.lt_or_ge t.offset (String.ofList as).utf8ByteSize
  · exact hclear t ht ⟨hbefore, by omega⟩
  obtain ⟨bs, after, hsource', hsize⟩ := standsAt_iff.mp (h.stands t ht)
  obtain ⟨rest, rfl, hrest⟩ := exists_append_of_utf8ByteSize_le (hsource.symm.trans hsource')
    (hsize ▸ hle)
  cases rest with
  | nil =>
    obtain ⟨d, tail, htext, hd⟩ := (h.proper ht).exists_first
    rw [List.nil_append, htext, List.cons_append] at hrest
    obtain ⟨rfl, -⟩ := List.cons.inj hrest
    obtain ⟨-, hd⟩ | ⟨-, hd⟩ := hd
    · exact absurd hd (ne_true_of_eq_false hdigit)
    · exact absurd (hd.symm.trans hsymbol) (by simp)
  | cons d rest =>
    obtain ⟨rfl, -⟩ := List.cons.inj hrest
    rw [← List.singleton_append, utf8ByteSize_ofList_append, utf8ByteSize_ofList_append,
      utf8ByteSize_ofList_single] at hsize
    omega

theorem splitNumber_eq (h : Accounts source ts ds) {as cs : List Char} {text : String}
    (hsource : source.toList = as ++ cs)
    (ht : ⟨.number text, (String.ofList as).utf8ByteSize⟩ ∈ ts) :
    ∃ rest, splitNumber cs = (text.toList, rest) ∧ cs = text.toList ++ rest := by
  have hstands : StandsAt source text (String.ofList as).utf8ByteSize := h.stands _ ht
  obtain ⟨before, after, rfl, hbefore⟩ := hstands
  obtain ⟨hnumeral, haround⟩ := h.number text _ ht
  have hstops := (haround before after rfl hbefore).1
  rw [String.append_assoc, String.toList_append, String.toList_append] at hsource
  obtain ⟨-, rfl⟩ :=
    append_inj_of_utf8ByteSize_eq hsource (by rw [String.ofList_toList, hbefore])
  exact ⟨after.toList, splitNumber_eq_of_stops hnumeral hstops, rfl⟩

theorem mem_of_symbol? (h : Accounts source ts ds) {c : Char} {offset : Nat}
    (hc : StandsAt source c.toString offset) {t : Token} (ht : symbol? c = some t) :
    ⟨t, offset⟩ ∈ ts := by
  obtain ⟨u, hsymbol, htext, hu⟩ := h.symbol c offset (mem_symbols_of_symbol? ht) hc
  obtain ⟨d, hd, hu', -⟩ := exists_char_of_isSymbol hsymbol
  obtain rfl : d = c := by simpa using hd.symm.trans htext
  exact Option.some.inj (hu'.symm.trans ht) ▸ hu

/-- What the lexer reads from a place on, if no token goes on there. -/
theorem mem_of_mem_place (h : Accounts source ts ds) {as cs : List Char}
    (hsource : source.toList = as ++ cs)
    (hclear : ∀ t ∈ ts, ¬t.Straddles (String.ofList as).utf8ByteSize) :
    ∀ t ∈ tokens (place (String.ofList as).utf8ByteSize (pieces cs)), t ∈ ts := by
  fun_induction pieces cs generalizing as with
  | case1 => exact List.forall_mem_nil _
  | case2 c cs hc _ ih =>
    have hstands : StandsAt source c.toString (String.ofList as).utf8ByteSize :=
      standsAt_iff.mpr ⟨as, cs, by simpa using hsource, rfl⟩
    obtain ⟨⟨token, offset⟩, ⟨ht, hnumber, hle, hlt⟩, -⟩ := h.digit c _ hc hstands
    obtain rfl : offset = (String.ofList as).utf8ByteSize :=
      Nat.le_antisymm hle (Nat.not_lt.mp fun hbefore => hclear _ ht ⟨hbefore, hlt⟩)
    obtain ⟨text, rfl⟩ := Token.exists_number hnumber
    obtain ⟨rest, hsplit, hcs⟩ := h.splitNumber_eq hsource ht
    rw [hsplit] at ih ⊢
    rw [String.ofList_toList, tokens_place_token]
    refine List.forall_mem_cons.mpr ⟨ht, ?_⟩
    have hsize : (String.ofList (as ++ text.toList)).utf8ByteSize =
        (String.ofList as).utf8ByteSize + text.utf8ByteSize := by
      rw [utf8ByteSize_ofList_append, String.ofList_toList]
    have hlater := @ih (as ++ text.toList) (by rw [hsource, hcs, List.append_assoc])
    rw [hsize] at hlater
    exact hlater (h.not_straddles_finish ht)
  | case3 c cs hc ih =>
    have hstands : StandsAt source c.toString (String.ofList as).utf8ByteSize :=
      standsAt_iff.mpr ⟨as, cs, by simpa using hsource, rfl⟩
    have hlater := @ih (as ++ [c]) (by simpa using hsource)
    rw [utf8ByteSize_ofList_append, utf8ByteSize_ofList_single] at hlater
    cases hsymbol : symbol? c with
    | none =>
      rw [tokens_place_single hsymbol]
      exact hlater (h.not_straddles_next hsource (by simpa using hc) hsymbol hclear)
    | some t =>
      have ht := h.mem_of_symbol? hstands hsymbol
      have hsingle : single c = .token t := by rw [single, hsymbol]
      rw [hsingle] at hlater ⊢
      exact List.forall_mem_cons.mpr ⟨ht, hlater (h.not_straddles_finish ht)⟩

theorem tokens_eq (h : Accounts source ts ds) : ts = tokens (placed source) := by
  have hlexer := accounts_placed source
  have hsub : ∀ t ∈ tokens (placed source), t ∈ ts := by
    have hfrom := @mem_of_mem_place _ _ _ h [] source.toList rfl
    exact hfrom fun t _ hcut => Nat.not_lt_zero _ hcut.1
  refine eq_of_pairwise_lt PlacedToken.offset (h.ordered.imp And.left)
    (hlexer.ordered.imp And.left) fun t => ⟨fun ht => ?_, hsub t⟩
  obtain ⟨u, hu, hcovers, -⟩ :=
    longest_placed source t.token t.offset (h.proper ht) (h.stands t ht)
  rwa [eq_of_covers h.ordered ht (hsub u hu) (h.covers_offset ht) hcovers]

theorem dropped_eq (h : Accounts source ts ds) : ds = droppedCharacters source := by
  obtain rfl := h.tokens_eq
  have hlexer := accounts_placed source
  refine eq_of_pairwise_lt Prod.snd (h.orderedDropped.imp And.left)
    (hlexer.orderedDropped.imp And.left) fun d => ?_
  exact (h.dropped_iff d.1 d.2).trans (hlexer.dropped_iff d.1 d.2).symm

end Accounts

/-- A source is cut into tokens in the one way that accounts for all of its characters, and no token
could be longer. It is refused exactly if it has neither a digit nor a symbol. -/
theorem accounts_iff_recognized (source : String) :
    (∀ ts ds, Accounts source ts ds ↔ ts = recognized source ∧ ds = droppedCharacters source) ∧
    Longest source (recognized source) ∧
    ∀ e, tokenize source = .error e ↔
      e = .invalidExpression ∧ ∀ c ∈ source.toList, c.isDigit = false ∧ c ∉ "+-*/()".toList := by
  rw [recognized_eq, ← tokens_placed]
  refine ⟨fun ts ds => ⟨fun h => ⟨h.tokens_eq, h.dropped_eq⟩, ?_⟩, longest_placed source,
    fun e => ?_⟩
  · rintro ⟨rfl, rfl⟩
    exact accounts_placed source
  · rw [tokenize_eq_error_iff, tokensFrom_eq_nil_iff]

end Calculator.Lexer
