import Calculator.Proofs.Seams
import Calculator.Proofs.Simulation

/-! Offsets are passed on and never looked at. Tokens that are moved give the same outcome, and an
error points where the token or the end of the source went that it pointed at. -/
namespace Calculator

def ParseError.relocate (f : Nat → Nat) : ParseError → ParseError
  | invalidExpression => invalidExpression
  | unexpectedToken text offset => unexpectedToken text (f offset)
  | unexpectedEndOfInput offset => unexpectedEndOfInput (f offset)
  | expectedClosingParen offset => expectedClosingParen (f offset)
  | trailingInput text offset => trailingInput text (f offset)
  | nestingTooDeep limit offset => nestingTooDeep limit (f offset)

@[simp] theorem ParseError.kind_relocate (f : Nat → Nat) (e : ParseError) :
    (e.relocate f).kind = e.kind := by
  cases e <;> rfl

@[simp] theorem ParseError.message_relocate (f : Nat → Nat) (e : ParseError) :
    (e.relocate f).message = e.message := by
  cases e <;> rfl

@[simp] theorem ParseError.token?_relocate (f : Nat → Nat) (e : ParseError) :
    (e.relocate f).token? = e.token? := by
  cases e <;> rfl

@[simp] theorem ParseError.limit?_relocate (f : Nat → Nat) (e : ParseError) :
    (e.relocate f).limit? = e.limit? := by
  cases e <;> rfl

@[simp] theorem ParseError.offset?_relocate (f : Nat → Nat) (e : ParseError) :
    (e.relocate f).offset? = e.offset?.map f := by
  cases e <;> rfl

def PlacedToken.relocate (f : Nat → Nat) (t : PlacedToken) : PlacedToken :=
  { t with offset := f t.offset }

/-- Where an error points is known from the relocations that do not change it. -/
theorem ParseError.offset_of_relocate {P : Nat → Prop} {outcome : Except ParseError α}
    (h : ∀ f : Nat → Nat, (∀ o, P o → f o = o) → outcome.mapError (relocate f) = outcome)
    {e : ParseError} (he : outcome = .error e) {o : Nat} (ho : e.offset? = some o) : P o := by
  refine Classical.byContradiction fun hP => ?_
  -- This relocation moves nothing but `o`, so it changes the error if `o` is free to move.
  let f (x : Nat) : Nat := if x = o then o + 1 else x
  have hfixes (x : Nat) (hx : P x) : f x = x := by
    refine if_neg ?_
    rintro rfl
    exact hP hx
  have hmoves : f o = o + 1 := if_pos rfl
  have hfixed := h f hfixes
  rw [he] at hfixed
  have hoffset := congrArg ParseError.offset? (Except.error.inj hfixed)
  rw [offset?_relocate, ho, Option.map_some, hmoves] at hoffset
  exact Nat.succ_ne_self o (Option.some.inj hoffset)

namespace Lexer

theorem map_relocate_place {f : Nat → Nat} {offset offset' : Nat} {ps : List Piece}
    (h : ∀ i ≤ extent ps, f (offset + i) = offset' + i) :
    (tokens (place offset ps)).map (·.relocate f) = tokens (place offset' ps) := by
  induction ps generalizing offset offset' with
  | nil => rfl
  | cons p ps ih =>
    rw [extent] at h
    have hlater : (tokens (place (offset + p.size) ps)).map (·.relocate f) =
        tokens (place (offset' + p.size) ps) := by
      refine ih fun i hi => ?_
      rw [Nat.add_assoc, Nat.add_assoc]
      exact h _ (Nat.add_le_add_left hi _)
    cases p with
    | token t =>
      have hfirst : f offset = offset' := h 0 (Nat.zero_le _)
      rw [tokens_place_token, tokens_place_token, List.map_cons, hlater, PlacedToken.relocate,
        hfirst]
    | blank | dropped => exact hlater

theorem map_relocate_tokensFrom {f : Nat → Nat} {offset offset' : Nat} {text : String}
    (h : ∀ i ≤ text.utf8ByteSize, f (offset + i) = offset' + i) :
    (tokensFrom offset text).map (·.relocate f) = tokensFrom offset' text :=
  map_relocate_place (by rwa [extent_pieces])

end Lexer

namespace Machine

variable {α : Type} {A : Arithmetic α} {limit : UInt64} {sourceEnd : Nat}

def State.relocate (f : Nat → Nat) (s : State α) : State α :=
  { s with suspended := s.suspended.map fun p => (f p.1, p.2) }

/-- Goes on with a relocated state or stops with a relocated error. -/
theorem bind_relocate {β : Type} {f : Nat → Nat} {x : Except ParseError (State α)}
    {k k' : State α → Except ParseError β}
    (h : ∀ s, k' (s.relocate f) = (k s).mapError (.relocate f)) :
    ((x.map (.relocate f)).mapError (.relocate f) >>= k') = (x >>= k).mapError (.relocate f) := by
  cases x with
  | error e => rfl
  | ok s => exact h s

theorem step_relocate (f : Nat → Nat) (s : State α) (t : PlacedToken) :
    (s.relocate f).step A limit (t.relocate f) =
      ((s.step A limit t).map (.relocate f)).mapError (.relocate f) := by
  obtain ⟨mode, frame, suspended⟩ := s
  obtain ⟨token, offset⟩ := t
  cases mode with
  | operand =>
    cases token with
    | number text =>
      cases hv : A.convert? text with
      | some v => exact (step_number hv _).trans (by rw [step_number hv]; rfl)
      | none =>
        have hrefused : Parser.Refused A (.number text) := hv
        rw [State.relocate, PlacedToken.relocate, step_refused hrefused, step_refused hrefused]
        rfl
    | openParen =>
      have hlen : (suspended.map fun p => (f p.1, p.2)).length = suspended.length :=
        List.length_map _
      obtain hlt | hle := Nat.lt_or_ge suspended.length limit.toNat
      · exact (step_openParen (hlen ▸ hlt) _).trans (by rw [step_openParen hlt]; rfl)
      · exact (step_tooDeep (hlen ▸ hle) _).trans (by rw [step_tooDeep hle]; rfl)
    | operator | closeParen => rfl
  | operator term =>
    cases token with
    | operator op => cases op <;> rfl
    | number | openParen | closeParen => cases suspended <;> rfl

theorem foldlM_relocate (f : Nat → Nat) (s : State α) (ts : List PlacedToken) :
    (ts.map (·.relocate f)).foldlM (State.step A limit) (s.relocate f) =
      ((ts.foldlM (State.step A limit) s).map (.relocate f)).mapError (.relocate f) := by
  induction ts generalizing s with
  | nil => rfl
  | cons t ts ih =>
    rw [List.map_cons, List.foldlM_cons, List.foldlM_cons, step_relocate]
    cases s.step A limit t with
    | error e => rfl
    | ok s' => exact ih s'

theorem finish_relocate (f : Nat → Nat) (s : State α) :
    (s.relocate f).finish A (f sourceEnd) = (s.finish A sourceEnd).mapError (.relocate f) := by
  obtain ⟨mode, frame, suspended⟩ := s
  cases mode <;> cases suspended <;> rfl

theorem resume_relocate (f : Nat → Nat) (s : State α) (ts : List PlacedToken) :
    resume A limit (f sourceEnd) (s.relocate f) (ts.map (·.relocate f)) =
      (resume A limit sourceEnd s ts).mapError (.relocate f) := by
  rw [resume, foldlM_relocate]
  exact bind_relocate (finish_relocate f)

end Machine
end Calculator
