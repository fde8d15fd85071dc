import Calculator.Proofs.Composition
import Calculator.Proofs.Cuts

/-! Digits with more points than a number can have. A number takes one point with digits on both
sides, so groups of digits are paired from the left, and the point between two pairs is dropped. -/
namespace Calculator

/-- Digits between points. -/
structure DigitGroup where
  text : String
  isDigits : Text.isDigits text.toList

namespace DigitGroup

/-- The groups with a point between each two neighbours. -/
def dotted : List DigitGroup → String
  | [] => ""
  | [g] => g.text
  | g :: h :: gs => g.text ++ ("." ++ dotted (h :: gs))

/-- Each pair of groups as one number. The last group is left over if their number is odd. -/
def numbers : List DigitGroup → List String
  | [] => []
  | [g] => [g.text]
  | g :: h :: gs => (g.text ++ ("." ++ h.text)) :: numbers gs

/-- The place of the group with index `i`, behind the groups in front of it and a point for each. -/
def start : List DigitGroup → Nat → Nat
  | g :: gs, i + 1 => g.text.utf8ByteSize + 1 + start gs i
  | _, _ => 0

@[simp] theorem start_zero (gs : List DigitGroup) : start gs 0 = 0 := by
  cases gs <;> rfl

@[simp] theorem start_succ (g : DigitGroup) (gs : List DigitGroup) (i : Nat) :
    start (g :: gs) (i + 1) = g.text.utf8ByteSize + 1 + start gs i := rfl

theorem isNumeral (g : DigitGroup) : IsNumeral g.text.toList := .whole g.isDigits

theorem isNumeral_pair (g h : DigitGroup) : IsNumeral (g.text ++ ("." ++ h.text)).toList := by
  simpa using IsNumeral.fraction g.isDigits h.isDigits

theorem exists_numbers_cons (g : DigitGroup) (gs : List DigitGroup) :
    ∃ text texts, numbers (g :: gs) = text :: texts := by
  cases gs with
  | nil => exact ⟨_, _, rfl⟩
  | cons => exact ⟨_, _, rfl⟩

/-! Pieces. -/

/-- A number with its point ends wherever no digit follows. -/
theorem stops_pair (g h : DigitGroup) {cs : List Char} (hcs : Text.EndsDigits cs) :
    Lexer.Stops (g.text ++ ("." ++ h.text)).toList cs where
  digit := hcs
  point hpair := by
    refine absurd hpair ?_
    simpa using Lexer.not_isDigits_append_point g.text.toList h.text.toList

theorem pieces_pair_append (g h : DigitGroup) {cs : List Char} (hcs : Text.EndsDigits cs) :
    Lexer.pieces ((g.text ++ ("." ++ h.text)).toList ++ cs) =
      .token (.number (g.text ++ ("." ++ h.text))) :: Lexer.pieces cs := by
  have hsplit := Lexer.splitNumber_eq_of_stops (g.isNumeral_pair h) (g.stops_pair h hcs)
  obtain ⟨c, rest, htext, hc⟩ := (g.isNumeral_pair h).exists_digit
  rw [htext, List.cons_append] at hsplit ⊢
  rw [Lexer.pieces_of_isDigit hc, hsplit, ← htext, String.ofList_toList]

/-- What is read of the groups: their numbers, and a dropped point between each two of these. -/
def pieces (gs : List DigitGroup) : List Piece :=
  ((numbers gs).map fun text => .token (.number text)).intersperse (.dropped '.')

theorem pieces_pair_cons (g h k : DigitGroup) (gs : List DigitGroup) :
    pieces (g :: h :: k :: gs) =
      .token (.number (g.text ++ ("." ++ h.text))) :: .dropped '.' :: pieces (k :: gs) := by
  cases gs <;> rfl

theorem pieces_dotted (gs : List DigitGroup) : Lexer.pieces (dotted gs).toList = pieces gs := by
  fun_induction numbers gs with
  | case1 => rw [dotted, String.toList_empty, Lexer.pieces]; rfl
  | case2 g => exact Lexer.pieces_numeral g.isNumeral
  | case3 g h gs ih =>
    cases gs with
    | nil => exact Lexer.pieces_numeral (g.isNumeral_pair h)
    | cons k gs =>
      have htext : (dotted (g :: h :: k :: gs)).toList =
          (g.text ++ ("." ++ h.text)).toList ++ '.' :: (dotted (k :: gs)).toList := by
        simp [dotted]
      have hpoint : Lexer.single '.' = .dropped '.' := rfl
      rw [htext, g.pieces_pair_append h (Text.endsDigits_cons.mpr rfl),
        Lexer.pieces_of_not_isDigit (by decide), hpoint, ih, pieces_pair_cons]

/-! Places. -/

theorem size_pair (g h : DigitGroup) : (Piece.token (.number (g.text ++ ("." ++ h.text)))).size =
    g.text.utf8ByteSize + 1 + h.text.utf8ByteSize := by
  have hpoint : ".".utf8ByteSize = 1 := rfl
  rw [Piece.size, Piece.text, Token.text, String.utf8ByteSize_append, String.utf8ByteSize_append,
    hpoint, Nat.add_assoc]

/-- Behind a pair and the point that follows it the groups start anew. -/
theorem start_pair (g h : DigitGroup) (gs : List DigitGroup) (offset i : Nat) :
    offset + start (g :: h :: gs) (i + 2) =
      offset + (Piece.token (.number (g.text ++ ("." ++ h.text)))).size + 1 + start gs i := by
  rw [size_pair, start_succ, start_succ]
  omega

theorem tokens_place_pieces (offset : Nat) (gs : List DigitGroup) :
    Lexer.tokens (Lexer.place offset (pieces gs)) =
      (numbers gs).mapIdx fun i text => ⟨.number text, offset + start gs (2 * i)⟩ := by
  fun_induction numbers gs generalizing offset with
  | case1 | case2 => rfl
  | case3 g h gs ih =>
    cases gs with
    | nil => rfl
    | cons k gs =>
      have hplace (i : Nat) : offset + start (g :: h :: k :: gs) (2 * (i + 1)) = _ :=
        start_pair g h (k :: gs) offset (2 * i)
      rw [pieces_pair_cons, Lexer.tokens_place_token, List.mapIdx_cons]
      simp only [hplace, ← ih]
      rfl

/-- In front of each number but the first one stands a point that is in none. -/
theorem dropped_place_pieces (offset : Nat) (gs : List DigitGroup) :
    Lexer.dropped (Lexer.place offset (pieces gs)) =
      (numbers gs).tail.mapIdx fun i _ => ('.', offset + start gs (2 * (i + 1)) - 1) := by
  fun_induction numbers gs generalizing offset with
  | case1 | case2 => rfl
  | case3 g h gs ih =>
    cases gs with
    | nil => rfl
    | cons k gs =>
      obtain ⟨text, texts, htexts⟩ := exists_numbers_cons k gs
      have hplace (i : Nat) : offset + start (g :: h :: k :: gs) (2 * (i + 1)) = _ :=
        start_pair g h (k :: gs) offset (2 * i)
      rw [pieces_pair_cons, List.tail_cons, htexts, List.mapIdx_cons]
      simp only [hplace]
      rw [htexts, List.tail_cons] at ih
      rw [← ih]
      rfl

theorem tokenize_dotted (g : DigitGroup) (gs : List DigitGroup) :
    tokenize (dotted (g :: gs)) =
      .ok ((numbers (g :: gs)).mapIdx fun i text => ⟨.number text, start (g :: gs) (2 * i)⟩) := by
  obtain ⟨text, texts, htexts⟩ := exists_numbers_cons g gs
  have htokens := tokens_place_pieces 0 (g :: gs)
  simp only [Nat.zero_add] at htokens
  rw [tokenize, Lexer.placed, pieces_dotted, htokens, htexts, List.mapIdx_cons]

theorem droppedCharacters_dotted (gs : List DigitGroup) :
    droppedCharacters (dotted gs) =
      (numbers gs).tail.mapIdx fun i _ => ('.', start gs (2 * (i + 1)) - 1) := by
  have hdropped := dropped_place_pieces 0 gs
  simp only [Nat.zero_add] at hdropped
  rw [droppedCharacters, Lexer.placed, pieces_dotted, hdropped]

/-! Values. -/

theorem spells_number {α : Type} {A : Arithmetic α} {text : String} {v : α}
    (h : A.convert? text = some v) (room offset : Nat) :
    (Chain.operand (.product (.operand (.number text)))).Spells A room
      [⟨.number text, offset⟩] v :=
  .operand (.product (.operand (.number h room offset)))

theorem evaluateWithLimit_numeral {text : String} (h : IsNumeral text.toList) (limit : UInt64) :
    ∃ v, Decimal.readFloat? text = some v ∧ evaluateWithLimit text limit = .ok v := by
  obtain ⟨v, hv⟩ := Option.isSome_iff_exists.mp (Decimal.isSome_readFloat? h)
  have htokens : Lexer.tokensFrom 0 text = [⟨.number text, 0⟩] := by
    rw [Lexer.tokensFrom, Lexer.pieces_numeral h]
    rfl
  exact ⟨v, hv, evaluateWithLimit_eq_ok_iff.mpr ⟨_, htokens ▸ spells_number hv _ _⟩⟩

/-- A number behind a number is left over. -/
theorem sentence_number_number {α : Type} {A : Arithmetic α} {text : String} {v : α}
    (h : A.convert? text = some v) (n : Nesting) (offset : Nat) (text' : String) (offset' : Nat)
    (ts : List PlacedToken) :
    Parser.sentence A n (⟨.number text, offset⟩ :: ⟨.number text', offset'⟩ :: ts) =
      .error (.trailingInput text' offset') := by
  have hread : Parser.chain A .additive n
      (⟨.number text, offset⟩ :: ⟨.number text', offset'⟩ :: ts) =
        ⟨.ok v, ⟨.number text', offset'⟩ :: ts, false⟩ :=
    Parser.chain_eq_ok_iff.mpr ⟨trivial, _, _, rfl, spells_number h _ _⟩
  rw [Parser.sentence, Parser.sum, hread]
  rfl

theorem evaluate_three (g h k : DigitGroup) (gs : List DigitGroup) {text : String}
    {texts : List String} (htexts : numbers (k :: gs) = text :: texts) :
    evaluate (dotted (g :: h :: k :: gs)) =
      .error (.trailingInput text (g.text.utf8ByteSize + h.text.utf8ByteSize + 2)) := by
  obtain ⟨v, hv⟩ := Option.isSome_iff_exists.mp (Decimal.isSome_readFloat? (g.isNumeral_pair h))
  have hstart : start (g :: h :: k :: gs) 2 = g.text.utf8ByteSize + h.text.utf8ByteSize + 2 := by
    rw [start_succ, start_succ, start_zero]
    omega
  rw [evaluate, evaluateWithLimit, tokenize_dotted, numbers, htexts, List.mapIdx_cons,
    List.mapIdx_cons, ← hstart]
  exact sentence_number_number hv _ _ _ _ _

/-- Groups of digits with points in between are read in pairs from the left, each at the place of
its first group, and what is dropped are the points between two pairs. So one or two groups are a
number, and of three or more the second pair is left over, or the third group if it is the last. -/
theorem dotted_read_in_pairs :
    (∀ (g : DigitGroup) (gs : List DigitGroup),
      tokenize (dotted (g :: gs)) =
        .ok ((numbers (g :: gs)).mapIdx fun i text => ⟨.number text, start (g :: gs) (2 * i)⟩) ∧
      droppedCharacters (dotted (g :: gs)) =
        (numbers (g :: gs)).tail.mapIdx fun i _ => ('.', start (g :: gs) (2 * (i + 1)) - 1)) ∧
    (∀ g₀ : DigitGroup,
      (∃ v, Decimal.readFloat? (dotted [g₀]) = some v ∧ evaluate (dotted [g₀]) = .ok v) ∧
      ∀ g₁, ∃ v, Decimal.readFloat? (dotted [g₀, g₁]) = some v ∧
        evaluate (dotted [g₀, g₁]) = .ok v) ∧
    ∀ g₀ g₁ g₂ : DigitGroup,
      evaluate (dotted [g₀, g₁, g₂]) =
        .error (.trailingInput g₂.text (g₀.text.utf8ByteSize + g₁.text.utf8ByteSize + 2)) ∧
      ∀ (g₃ : DigitGroup) (gs : List DigitGroup),
        evaluate (dotted (g₀ :: g₁ :: g₂ :: g₃ :: gs)) =
          .error (.trailingInput (g₂.text ++ ("." ++ g₃.text))
            (g₀.text.utf8ByteSize + g₁.text.utf8ByteSize + 2)) := by
  refine ⟨fun g gs => ?tokens, fun g₀ => ?few, fun g₀ g₁ g₂ => ?many⟩
  case tokens => exact ⟨tokenize_dotted g gs, droppedCharacters_dotted _⟩
  case few =>
    exact ⟨evaluateWithLimit_numeral g₀.isNumeral _,
      fun g₁ => evaluateWithLimit_numeral (g₀.isNumeral_pair g₁) _⟩
  case many =>
    exact ⟨evaluate_three g₀ g₁ g₂ [] rfl, fun g₃ gs => evaluate_three g₀ g₁ g₂ (g₃ :: gs) rfl⟩

end DigitGroup
end Calculator
