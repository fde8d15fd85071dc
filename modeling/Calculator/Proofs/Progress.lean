import Calculator.Proofs.History

/-! How far a parse has come, event by event: which tokens are left, which nestings are in use and
whether a factor still wants its token. One step for each kind of event says all there is to say
about it, and what every step keeps holds of a whole parse. -/
namespace Calculator
namespace Parser

namespace Event

variable {α : Type}

/-- The tokens in front of the descent where it enters a factor or looks at a token. -/
def left? : Event α → Option (List PlacedToken)
  | .factor _ left | .look _ _ left => some left
  | _ => none

def entry? : Event α → Option (List PlacedToken)
  | .factor _ left => some left
  | _ => none

def taken? : Event α → Option PlacedToken
  | .take t => some t
  | .enter opening _ _ => some ⟨.openParen, opening⟩
  | _ => none

end Event

section
variable {α : Type}

/-- The tokens taken, in their order. -/
def taken (es : List (Event α)) : List PlacedToken := es.filterMap Event.taken?

/-- The tokens left at each entry into a factor. -/
def entries (es : List (Event α)) : List (List PlacedToken) := es.filterMap Event.entry?

@[simp] theorem taken_cons (e : Event α) (es : List (Event α)) :
    taken (e :: es) = e.taken?.toList ++ taken es := by
  unfold taken
  cases h : e.taken? <;> simp [h]

@[simp] theorem entries_nil : entries ([] : List (Event α)) = [] := rfl

@[simp] theorem entries_cons (e : Event α) (es : List (Event α)) :
    entries (e :: es) = e.entry?.toList ++ entries es := by
  unfold entries
  cases h : e.entry? <;> simp [h]

end

/-! Steps. -/

structure Progress where
  left : List PlacedToken
  /-- Innermost first, that of the whole parse last. -/
  nestings : List Nesting
  /-- A factor was entered and has not taken its token. -/
  wanting : Bool

namespace Progress

inductive Step {α : Type} : Progress → Event α → Progress → Prop where
  | factor (n : Nesting) (left : List PlacedToken) (outer : List Nesting) :
      Step ⟨left, n :: outer, false⟩ (.factor n left) ⟨left, n :: outer, true⟩
  | look (p : Precedence) (n : Nesting) (left : List PlacedToken) (outer : List Nesting) :
      Step ⟨left, n :: outer, false⟩ (.look p n left) ⟨left, n :: outer, false⟩
  | take (t : PlacedToken) (left : List PlacedToken) (ns : List Nesting) (wanting : Bool) :
      Step ⟨t :: left, ns, wanting⟩ (.take t) ⟨left, ns, false⟩
  | enter {n inner : Nesting} {opening : Nat} (h : n.descend opening = .ok inner)
      (left : List PlacedToken) (outer : List Nesting) :
      Step ⟨⟨.openParen, opening⟩ :: left, n :: outer, true⟩ (.enter opening n inner)
        ⟨left, inner :: n :: outer, false⟩
  | leave (left : List PlacedToken) (n inner : Nesting) (outer : List Nesting) (wanting : Bool) :
      Step ⟨left, inner :: n :: outer, wanting⟩ .leave ⟨left, n :: outer, wanting⟩
  | apply (op : Operator) (v w : α) (left : List PlacedToken) (ns : List Nesting) :
      Step ⟨left, ns, false⟩ (.apply op v w) ⟨left, ns, false⟩

inductive Steps {α : Type} : Progress → List (Event α) → Progress → Prop where
  | refl (s : Progress) : Steps s [] s
  | cons {s m s' : Progress} {e : Event α} {es : List (Event α)} (first : Step s e m)
      (more : Steps m es s') : Steps s (e :: es) s'

variable {α : Type} {s m s' : Progress} {e : Event α} {es fs : List (Event α)}

theorem Steps.append (h : Steps s es m) (h' : Steps m fs s') : Steps s (es ++ fs) s' := by
  induction h with
  | refl => exact h'
  | cons first _ ih => exact .cons first (ih h')

theorem Steps.split (h : Steps s (es ++ fs) s') : ∃ m, Steps s es m ∧ Steps m fs s' := by
  induction es generalizing s with
  | nil => exact ⟨s, .refl s, h⟩
  | cons e es ih =>
    cases h with
    | cons first more =>
      obtain ⟨m, hes, hfs⟩ := ih more
      exact ⟨m, .cons first hes, hfs⟩

/-! What steps keep. -/

theorem Step.taken_append (h : Step s e s') : e.taken?.toList ++ s'.left = s.left := by
  cases h <;> rfl

theorem Steps.taken_append (h : Steps s es s') : taken es ++ s'.left = s.left := by
  induction h with
  | refl => rfl
  | cons first _ ih => rw [taken_cons, List.append_assoc, ih, first.taken_append]

theorem Step.left_eq (h : Step s e s') {left : List PlacedToken} (he : e.left? = some left) :
    s.left = left := by
  cases h <;> cases he <;> rfl

/-- How many factors can still be entered: one for each token, and one at their end. The one that
wants its token has been entered already. -/
def slots (s : Progress) : Nat := s.left.length + if s.wanting then 0 else 1

theorem Step.slots_le (h : Step s e s') : e.entry?.toList.length + s'.slots ≤ s.slots := by
  cases h with
  | take _ _ _ wanting => cases wanting <;> simp [slots, Event.entry?]
  | factor | look | enter | leave | apply => simp [slots, Event.entry?] <;> omega

theorem Step.slots_of_entry (h : Step s e s') {left : List PlacedToken}
    (he : e.entry? = some left) : left.length < s.slots ∧ s'.slots = left.length := by
  cases h <;> cases he
  exact ⟨Nat.lt_succ_self _, rfl⟩

theorem Steps.slots_le (h : Steps s es s') : (entries es).length + s'.slots ≤ s.slots := by
  induction h with
  | refl => simp
  | cons first _ ih =>
    have := first.slots_le
    rw [entries_cons, List.length_append]
    omega

theorem Steps.length_lt_slots (h : Steps s es s') : ∀ left ∈ entries es, left.length < s.slots := by
  induction h with
  | refl => simp
  | cons first _ ih =>
    intro left hleft
    rw [entries_cons, List.mem_append, Option.mem_toList] at hleft
    obtain hentry | hmore := hleft
    · exact (first.slots_of_entry hentry).1
    · have := first.slots_le
      have := ih left hmore
      omega

theorem Steps.pairwise_entries (h : Steps s es s') :
    (entries es).Pairwise fun left left' => left'.length < left.length := by
  induction h with
  | refl => exact .nil
  | @cons _ _ _ e _ first more ih =>
    rw [entries_cons]
    cases he : e.entry? with
    | none => exact ih
    | some left =>
      -- From here on as many factors can be entered as tokens are left.
      refine .cons (fun left' hleft' => ?_) ih
      rw [← (first.slots_of_entry he).2]
      exact more.length_lt_slots left' hleft'

end Progress

/-! Every parse goes by these steps. -/

open Progress (Step Steps)

section
variable {α : Type} {A : Arithmetic α}

/-- It failed in a factor that found no token to take. -/
def wanting (r : Parse α) : Bool :=
  match r.outcome with
  | .error (.unexpectedEndOfInput _) => true
  | _ => false

theorem steps_takeBehind (r : Parse α) (opening : Nat) (ns : List Nesting) :
    Steps ⟨r.rest, ns, wanting r⟩ (takeBehind r)
      ⟨(r.andThen (closeGroup opening)).rest, ns, wanting (r.andThen (closeGroup opening))⟩ := by
  obtain ⟨outcome, rest, starved⟩ := r
  cases outcome with
  | error e => exact .refl _
  | ok v =>
    cases rest with
    | nil => exact .refl _
    | cons t rest =>
      obtain ⟨token, offset⟩ := t
      refine .cons (.take ⟨token, offset⟩ rest ns false) ?_
      cases token with
      | number | operator | openParen | closeParen => exact .refl _

/-- A call leaves the nestings outside its own as they were. -/
theorem Traced.steps {k : Production α} {n : Nesting} {ts : List PlacedToken} {r : Parse α}
    {es : List (Event α)} (h : Traced A k n ts r es) (outer : List Nesting) :
    Steps ⟨ts, n :: outer, false⟩ es ⟨r.rest, n :: outer, wanting r⟩ := by
  induction h generalizing outer with
  | chainFailed _ first => exact first outer
  | chain _ _ first more => exact (first outer).append (more outer)
  | stop p n v h => exact .cons (.look p n _ outer) (.refl _)
  | turnFailed v offset h _ right =>
    exact .cons (.look _ _ _ outer) (.cons (.take _ _ _ _) (right outer))
  | turn v offset h _ _ right more =>
    refine .cons (.look _ _ _ outer) (.cons (.take _ _ _ _) ((right outer).append ?_))
    exact .cons (.apply _ _ _ _ _) (more outer)
  | ended n => exact .cons (.factor n [] outer) (.refl _)
  | number n offset ts h => exact .cons (.factor n _ outer) (.cons (.take _ ts _ _) (.refl _))
  | refused n ts h => exact .cons (.factor n _ outer) (.cons (.take _ ts _ _) (.refl _))
  | tooDeep opening ts h => exact .cons (.factor _ _ outer) (.cons (.take _ ts _ _) (.refl _))
  | group h _ body =>
    -- The nesting of the group is innermost while its body is read, however that ends.
    refine .cons (.factor _ _ outer) (.cons (.enter h _ outer) ((body (_ :: outer)).append ?_))
    exact (steps_takeBehind _ _ _).append (.cons (.leave _ _ _ _ _) (.refl _))

theorem steps_record (A : Arithmetic α) (k : Production α) (n : Nesting) (ts : List PlacedToken) :
    Steps ⟨ts, [n], false⟩ (record A k n ts).events
      ⟨(parse A k n ts).rest, [n], wanting (parse A k n ts)⟩ :=
  record_parse A k n ts ▸ (record A k n ts).traced.steps []

theorem steps_history (A : Arithmetic α) (n : Nesting) (ts : List PlacedToken) :
    ∃ s, Steps ⟨ts, [n], false⟩ (history A n ts) s :=
  -- No group is closed here, but the token behind the sum is taken just as behind a group's.
  ⟨_, ((record A (.chain .additive) n ts).traced.steps []).append (steps_takeBehind _ 0 [n])⟩

theorem step_of_history {n : Nesting} {before after : List (Event α)} {e : Event α}
    (h : history A n ts = before ++ e :: after) :
    ∃ s s', Steps ⟨ts, [n], false⟩ before s ∧ Step s e s' := by
  obtain ⟨_, hsteps⟩ := steps_history A n ts
  obtain ⟨s, hbefore, hafter⟩ := (h ▸ hsteps).split
  cases hafter with
  | cons first _ => exact ⟨s, _, hbefore, first⟩

/-! Why a parse ends. -/

/-- A success has taken tokens in front, and one at least. -/
def Advances (ts : List PlacedToken) (r : Parse α) : Prop :=
  ∀ v, r.outcome = .ok v → ∃ used, used ≠ [] ∧ ts = used ++ r.rest

theorem Run.advances {k : Production α} {n : Nesting} {ts : List PlacedToken} {r : Parse α}
    (h : Run A k n ts r) (hlt : ∀ v, r.outcome = .ok v → r.rest.length < ts.length) :
    Advances ts r := by
  intro v hv
  obtain ⟨used, hused⟩ := h.suffix
  refine ⟨used, ?_, hused.symm⟩
  rintro rfl
  exact Nat.lt_irrefl _ (hused ▸ hlt v hv)

theorem advances_chain (p : Precedence) (n : Nesting) (ts : List PlacedToken) :
    Advances ts (chain A p n ts) :=
  (run_parse A (.chain p) n ts).advances fun _ => length_rest_lt_of_chain

theorem advances_operand (p : Precedence) (n : Nesting) (ts : List PlacedToken) :
    Advances ts (operand A p n ts) :=
  (parse_operand A p n ts ▸ run_parse A (.operand p) n ts).advances fun _ =>
    length_rest_lt_of_operand A

theorem advances_factor (n : Nesting) (ts : List PlacedToken) : Advances ts (factor A n ts) :=
  operand_multiplicative A n ts ▸ advances_operand .multiplicative n ts

theorem advances_group (inner : Nesting) (opening : Nat) (ts : List PlacedToken) :
    Advances ts ((chain A .additive inner ts).andThen (closeGroup opening)) := by
  intro v hv
  obtain ⟨hbody, closing, hrest⟩ := closed_of_andThen_closeGroup hv
  obtain ⟨used, -, hused⟩ := advances_chain .additive inner ts v hbody
  exact ⟨used ++ [⟨.closeParen, closing⟩], by simp, hused.trans (by rw [hrest]; simp)⟩

/-- From one turn of a loop to the next an operator and an operand are taken. -/
theorem Calls.turn_eq {p q : Precedence} {v w : α} {n n' : Nesting} {ts left : List PlacedToken}
    (h : Calls (⟨.extend q w, n', left⟩ : Call A) ⟨.extend p v, n, ts⟩) :
    q = p ∧ n' = n ∧ ∃ used, 2 ≤ used.length ∧ ts = used ++ left := by
  generalize hnext : (⟨.extend q w, n', left⟩ : Call A) = next at h
  cases h with
  | @right p op hop n v offset ts =>
    -- An operand is no loop.
    obtain ⟨hk, -⟩ := Call.mk.inj hnext
    cases p <;> contradiction
  | @turn p op n ts mid u starved hop v offset right =>
    cases hnext
    have hadvances := advances_operand (A := A) p n ts
    rw [← parse_operand, right.parse_eq] at hadvances
    obtain ⟨used, hne, rfl⟩ := hadvances u rfl
    refine ⟨rfl, rfl, ⟨.operator op, offset⟩ :: used, ?_, rfl⟩
    exact Nat.succ_le_succ (List.length_pos_iff.mpr hne)

theorem taken_append_left {n : Nesting} {ts left : List PlacedToken} {e : Event α}
    {before after : List (Event α)} (h : history A n ts = before ++ e :: after)
    (he : e.left? = some left) : taken before ++ left = ts := by
  obtain ⟨s, _, hbefore, hstep⟩ := step_of_history h
  exact hstep.left_eq he ▸ hbefore.taken_append

/-- A parse ends and does not go back. No call leads to calls without end, since a success takes
tokens in front, and a loop from one turn to the next at least two. Wherever the whole parse enters
a factor or looks at a token, exactly the tokens taken so far are gone, so none is taken twice.
Between two entries into a factor tokens are taken: there is at most one entry for each token and
one at the end. -/
theorem parse_never_goes_back (A : Arithmetic α) :
    WellFounded (Calls (A := A)) ∧
    (∀ p n ts, Advances ts (chain A p n ts)) ∧
    (∀ n ts, Advances ts (factor A n ts)) ∧
    (∀ inner opening ts,
      Advances ts ((chain A .additive inner ts).andThen (closeGroup opening))) ∧
    (∀ p q v w n n' ts left, Calls (⟨.extend q w, n', left⟩ : Call A) ⟨.extend p v, n, ts⟩ →
      q = p ∧ n' = n ∧ ∃ used, 2 ≤ used.length ∧ ts = used ++ left) ∧
    (∀ k n ts, (record A k n ts).parse = parse A k n ts ∧
      taken (record A k n ts).events ++ (parse A k n ts).rest = ts) ∧
    ∀ n ts, (∃ rest, taken (history A n ts) ++ rest = ts) ∧
      (∀ before e after left, history A n ts = before ++ e :: after → e.left? = some left →
        taken before ++ left = ts) ∧
      (entries (history A n ts)).Pairwise (fun left left' => left'.length < left.length) ∧
      (entries (history A n ts)).length ≤ ts.length + 1 := by
  refine ⟨wellFounded_calls, advances_chain, advances_factor, advances_group,
    fun _ _ _ _ _ _ _ _ => Calls.turn_eq, fun k n ts => ⟨record_parse A k n ts, ?taken⟩,
    fun n ts => ?history⟩
  case taken => exact (steps_record A k n ts).taken_append
  case history =>
    obtain ⟨s, hsteps⟩ := steps_history A n ts
    have hslots : (entries (history A n ts)).length + s.slots ≤ ts.length + 1 := hsteps.slots_le
    exact ⟨⟨s.left, hsteps.taken_append⟩, fun _ _ _ _ => taken_append_left,
      hsteps.pairwise_entries, Nat.le_of_add_right_le hslots⟩

end

end Parser
end Calculator
