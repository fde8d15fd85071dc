import Calculator.Proofs.Composition
import Calculator.Proofs.NestingLimit
import Calculator.Proofs.Relocation

/-! A group counts only by its value. Whatever stands around it, the run behind the group goes on
from the value, so another group with the same value gives the same outcome, and errors behind it
move by as much as the two texts differ in length. -/
namespace Calculator

theorem Nesting.exists_of_le {depth : Nat} {limit : UInt64} (h : depth ≤ limit.toNat)
    (sourceEnd : Nat) :
    ∃ n : Nesting, n.depth.toNat = depth ∧ n.limit = limit ∧ n.sourceEnd = sourceEnd := by
  have hdepth : (UInt64.ofNat depth).toNat = depth :=
    UInt64.toNat_ofNat_of_lt (Nat.lt_of_le_of_lt h limit.toNat_lt)
  have hle : UInt64.ofNat depth ≤ limit := by rwa [UInt64.le_iff_toNat_le, hdepth]
  exact ⟨⟨.ofNat depth, limit, sourceEnd, hle⟩, hdepth, rfl, rfl⟩

theorem Parser.run_factor {α : Type} {A : Arithmetic α} {x : Operand .multiplicative}
    {n : Nesting} {used : List PlacedToken} {v : α} (h : x.Spells A n.room used v)
    (ts : List PlacedToken) : Run A .factor n (used ++ ts) ⟨.ok v, ts, false⟩ := by
  have hread := operand_append x h (.multiplicative (ts.map (·.token)))
  have hrun := run_parse A .factor n (used ++ ts)
  rwa [parse, ← operand_multiplicative, hread] at hrun

namespace Machine

variable {α : Type} {A : Arithmetic α} {limit : UInt64} {sourceEnd : Nat}

/-- Where an operand is wanted, a group is read as its value. -/
theorem resume_spelled_group {c : Sentence} {room : Nat} {used : List PlacedToken} {v : α}
    (hc : c.Spells A room used v) {suspended : List (Nat × Frame α)}
    (hroom : suspended.length + 1 + room ≤ limit.toNat) (frame : Frame α) (opening closing : Nat)
    (ts : List PlacedToken) :
    resume A limit sourceEnd ⟨.operand, frame, suspended⟩
        (⟨.openParen, opening⟩ :: (used ++ ⟨.closeParen, closing⟩ :: ts)) =
      resume A limit sourceEnd (.withOperand A ⟨.operand, frame, suspended⟩ v) ts := by
  have hdeep : suspended.length ≤ limit.toNat := by omega
  obtain ⟨n, hdepth, rfl, rfl⟩ := Nesting.exists_of_le hdeep sourceEnd
  have hgroup : (Operand.group c).Spells A n.room
      (⟨.openParen, opening⟩ :: (used ++ [⟨.closeParen, closing⟩])) v :=
    (Operand.Spells.group hc opening closing).mono (by unfold Nesting.room; omega)
  have hrun := (Parser.run_factor hgroup ts).simulates suspended hdepth.symm frame
  rwa [List.cons_append, List.append_assoc, List.singleton_append] at hrun

/-- The run over tokens with a group among them that has the value `v`. -/
def runAround (A : Arithmetic α) (limit : UInt64) (sourceEnd : Nat) (s : State α)
    (before : List PlacedToken) (opening : Nat) (v : α) (after : List PlacedToken) :
    Except ParseError α := do
  let s ← before.foldlM (State.step A limit) s
  let _ ← s.step A limit ⟨.openParen, opening⟩
  resume A limit sourceEnd (s.withOperand A v) after

theorem runAround_relocate (f : Nat → Nat) (s : State α) (before : List PlacedToken)
    (opening : Nat) (v : α) (after : List PlacedToken) :
    runAround A limit (f sourceEnd) (s.relocate f) (before.map (·.relocate f)) (f opening) v
        (after.map (·.relocate f)) =
      (runAround A limit sourceEnd s before opening v after).mapError (.relocate f) := by
  rw [runAround, foldlM_relocate]
  refine bind_relocate fun s => ?_
  rw [show (⟨.openParen, f opening⟩ : PlacedToken) = .relocate f ⟨.openParen, opening⟩ from rfl,
    step_relocate]
  exact bind_relocate fun _ => resume_relocate f (s.withOperand A v) after

theorem length_suspended_of_step {s s' : State α} {t : PlacedToken}
    (h : s.step A limit t = .ok s') :
    s'.suspended.length ≤ s.suspended.length + [t.token].count .openParen := by
  cases effect A s t with
  | fails e _ hstep => rw [hstep limit] at h; contradiction
  | moves u ht hlen hstep =>
    obtain rfl := Except.ok.inj ((hstep limit).symm.trans h)
    exact Nat.le_add_right_of_le (hlen.le ht)
  | opens u offset ht hlen hdeep hstep =>
    subst ht
    obtain hlt | hle := Nat.lt_or_ge s.suspended.length limit.toNat
    · obtain rfl := Except.ok.inj ((hstep limit hlt).symm.trans h)
      simp [hlen]
    · rw [hdeep limit hle] at h
      contradiction

/-- Behind an operand a parenthesis is at fault, and what follows it is not looked at. -/
theorem exists_step_openParen_eq_error (term : α) (frame : Frame α)
    (suspended : List (Nat × Frame α)) (opening : Nat) :
    ∃ e, State.step A limit ⟨.operator term, frame, suspended⟩ ⟨.openParen, opening⟩ =
      .error e := by
  cases suspended with
  | nil => exact ⟨_, rfl⟩
  | cons => exact ⟨_, rfl⟩

theorem resume_eq_runAround {c : Sentence} {room : Nat} {used : List PlacedToken} {v : α}
    (hc : c.Spells A room used v) {s : State α} {before : List PlacedToken}
    (hroom : s.suspended.length + (before.map (·.token)).count .openParen + 1 + room ≤ limit.toNat)
    (opening closing : Nat) (after : List PlacedToken) :
    resume A limit sourceEnd s
        (before ++ ⟨.openParen, opening⟩ :: (used ++ ⟨.closeParen, closing⟩ :: after)) =
      runAround A limit sourceEnd s before opening v after := by
  -- Each opening parenthesis before the group suspends at most one frame, so the room stays enough.
  induction before generalizing s with
  | nil =>
    obtain ⟨mode, frame, suspended⟩ := s
    simp only [List.map_nil, List.count_nil, Nat.add_zero] at hroom
    rw [List.nil_append, runAround, List.foldlM_nil, pure_bind]
    cases mode with
    | operand =>
      have hlt : suspended.length < limit.toNat := by omega
      rw [resume_spelled_group hc hroom, step_openParen hlt]
      rfl
    | operator term =>
      obtain ⟨e, he⟩ := exists_step_openParen_eq_error term frame suspended opening
      rw [resume_of_error he, he]
      rfl
  | cons t before ih =>
    rw [List.cons_append, runAround, List.foldlM_cons]
    cases hstep : s.step A limit t with
    | error e =>
      rw [resume_of_error hstep]
      rfl
    | ok s' =>
      rw [resume_of_ok hstep]
      refine ih ?_
      have hlen := length_suspended_of_step hstep
      rw [List.map_cons, ← List.singleton_append, List.count_append] at hroom
      omega

end Machine

open Lexer (kinds tokensFrom)

theorem Chain.depth_le_count (c : Chain p) : c.depth ≤ c.tokens.count .openParen := by
  have hmax := Token.maxOpen_le 0 c.tokens
  rwa [c.maxOpen_tokens, Nat.zero_add] at hmax

theorem evaluateWithLimit_of_ne_nil {source : String} {limit : UInt64}
    (h : tokensFrom 0 source ≠ []) :
    evaluateWithLimit source limit =
      Machine.resume binary64 limit source.utf8ByteSize {} (tokensFrom 0 source) := by
  rw [evaluateWithLimit_eq, Lexer.tokens_placed, if_neg h, ← Parser.run_eq_sentence rfl]
  rfl

/-- Where the text behind a group starts. -/
def behindGroup (before inner : String) : Nat :=
  before.utf8ByteSize + 1 + inner.utf8ByteSize + 1

theorem tokensFrom_around (before inner after : String) :
    tokensFrom 0 (before ++ "(" ++ inner ++ ")" ++ after) =
      tokensFrom 0 before ++ ⟨.openParen, before.utf8ByteSize⟩ ::
        (tokensFrom (before.utf8ByteSize + 1) inner ++
          ⟨.closeParen, before.utf8ByteSize + 1 + inner.utf8ByteSize⟩ ::
            tokensFrom (behindGroup before inner) after) := by
  have hseparate : Lexer.Separate ("(" ++ (inner ++ (")" ++ after))).toList :=
    Lexer.separate_symbol_append (t := .openParen) trivial _
  simp only [String.append_assoc]
  rw [Lexer.tokensFrom_append hseparate, Nat.zero_add, Lexer.tokensFrom_group]
  rfl

/-- What comes of a source in which a group of value `v` stands behind `before`, when the text after
it starts at `behind`. -/
def evaluateAround (limit : UInt64) (before : String) (v : Float) (behind : Nat) (after : String) :
    Except ParseError Float :=
  Machine.runAround binary64 limit (behind + after.utf8ByteSize) {} (tokensFrom 0 before)
    before.utf8ByteSize v (tokensFrom behind after)

theorem evaluateWithLimit_eq_evaluateAround {before inner after : String} {limit : UInt64}
    {v : Float}
    (hlimit : (before ++ "(" ++ inner ++ ")" ++ after).toList.count '(' ≤ limit.toNat)
    (h : evaluateWithLimit inner limit = .ok v) :
    evaluateWithLimit (before ++ "(" ++ inner ++ ")" ++ after) limit =
      evaluateAround limit before v (behindGroup before inner) after := by
  obtain ⟨c, hc⟩ := evaluateWithLimit_eq_ok_iff.mp h
  have hinner : c.Spells binary64 ((kinds inner).count .openParen)
      (tokensFrom (before.utf8ByteSize + 1) inner) v := by
    refine ⟨hc.tokens.trans (by simp), hc.value, ?_⟩
    have hdepth := c.depth_le_count
    rwa [hc.tokens, Lexer.map_token_tokensFrom] at hdepth
  have hcount := Nat.le_trans (Lexer.count_openParen_tokens_le _) hlimit
  rw [Lexer.tokens_placed, tokensFrom_around] at hcount
  simp only [List.map_append, List.map_cons, List.count_append, List.count_cons_self,
    Lexer.map_token_tokensFrom] at hcount
  have hsize : (before ++ "(" ++ inner ++ ")" ++ after).utf8ByteSize =
      behindGroup before inner + after.utf8ByteSize := by
    simp only [String.utf8ByteSize_append]
    rfl
  rw [evaluateWithLimit_of_ne_nil (by simp [tokensFrom_around]), tokensFrom_around, hsize]
  refine Machine.resume_eq_runAround hinner ?_ ..
  rw [Lexer.map_token_tokensFrom]
  show 0 + (kinds before).count .openParen + 1 + (kinds inner).count .openParen ≤ limit.toNat
  omega

theorem evaluateAround_relocate {f : Nat → Nat} {before after : String} {behind behind' : Nat}
    (hbefore : ∀ i ≤ before.utf8ByteSize, f i = i)
    (hafter : ∀ i ≤ after.utf8ByteSize, f (behind + i) = behind' + i) (limit : UInt64)
    (v : Float) :
    evaluateAround limit before v behind' after =
      (evaluateAround limit before v behind after).mapError (.relocate f) := by
  have hfront : (tokensFrom 0 before).map (·.relocate f) = tokensFrom 0 before :=
    Lexer.map_relocate_tokensFrom fun i hi => by rw [Nat.zero_add, hbefore i hi]
  have hback := Lexer.map_relocate_tokensFrom hafter
  rw [evaluateAround, evaluateAround, ← Machine.runAround_relocate, hfront, hback,
    hbefore _ (Nat.le_refl _), hafter _ (Nat.le_refl _)]
  rfl

/-- Where an offset comes to lie when the group behind `before` gets other contents. -/
def shift (before inner inner' : String) (offset : Nat) : Nat :=
  if offset ≤ before.utf8ByteSize then offset
  else offset + inner'.utf8ByteSize - inner.utf8ByteSize

/-- A group may be replaced by another one of equal value wherever it stands. The outcome stays the
same, whether a value or an error, but for offsets behind the group, and no error points into it. -/
theorem evaluateWithLimit_replace_group (before inner inner' after : String) (limit : UInt64)
    (v : Float)
    (hlimit : (before ++ "(" ++ inner ++ ")" ++ after).toList.count '(' ≤ limit.toNat)
    (hlimit' : (before ++ "(" ++ inner' ++ ")" ++ after).toList.count '(' ≤ limit.toNat)
    (h : evaluateWithLimit inner limit = .ok v) (h' : evaluateWithLimit inner' limit = .ok v) :
    evaluateWithLimit (before ++ "(" ++ inner' ++ ")" ++ after) limit =
      (evaluateWithLimit (before ++ "(" ++ inner ++ ")" ++ after) limit).mapError
        (.relocate (shift before inner inner')) ∧
    ∀ e offset, evaluateWithLimit (before ++ "(" ++ inner ++ ")" ++ after) limit = .error e →
      e.offset? = some offset →
      offset ≤ before.utf8ByteSize ∨ before.utf8ByteSize + inner.utf8ByteSize < offset := by
  rw [evaluateWithLimit_eq_evaluateAround hlimit h, evaluateWithLimit_eq_evaluateAround hlimit' h']
  constructor
  · refine evaluateAround_relocate (f := shift before inner inner') (fun i hi => if_pos hi)
      (fun i _ => ?_) limit v
    unfold shift behindGroup
    rw [if_neg (by omega)]
    omega
  · intro e offset he ho
    refine ParseError.offset_of_relocate (P := fun o =>
      o ≤ before.utf8ByteSize ∨ before.utf8ByteSize + inner.utf8ByteSize < o) (fun f hf => ?_) he ho
    refine (evaluateAround_relocate (fun i hi => hf i (.inl hi)) (fun i _ => hf _ (.inr ?_)) limit
      v).symm
    unfold behindGroup
    omega

/-- The error behind the group moves with it, here by two bytes. -/
theorem evaluateWithLimit_replace_group_trailing :
    evaluateWithLimit "4/2" 2 = .ok 2 ∧ evaluateWithLimit "2" 2 = .ok 2 ∧
      evaluateWithLimit "8-(4/2))" 2 = .error (.trailingInput ")" 7) ∧
      evaluateWithLimit "8-(2))" 2 = .error (.trailingInput ")" 5) := by
  have h : evaluateWithLimit "4/2" 2 = .ok 2 := by decide +kernel
  have h' : evaluateWithLimit "2" 2 = .ok 2 := by decide +kernel
  have htrailing : evaluateWithLimit "8-(4/2))" 2 = .error (.trailingInput ")" 7) := by
    decide +kernel
  have hreplaced := (evaluateWithLimit_replace_group "8-" "4/2" "2" ")" 2 2 (by decide) (by decide)
    h h').1
  refine ⟨h, h', htrailing, hreplaced.trans ?_⟩
  exact congrArg _ htrailing

end Calculator
