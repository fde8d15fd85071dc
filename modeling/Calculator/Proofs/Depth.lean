import Calculator.Proofs.Progress

/-! How deep a parse stands. The depth that it carries downwards is a number in each nesting, and
nothing ties it to the groups being read but the steps that start one and end one. -/
namespace Calculator

theorem Nesting.depth_of_descend {n inner : Nesting} {opening : Nat}
    (h : n.descend opening = .ok inner) :
    inner.depth = n.depth + 1 ∧ inner.depth.toNat = n.depth.toNat + 1 := by
  obtain ⟨hlt, hdepth, _⟩ := descend_eq_ok h
  exact ⟨UInt64.toNat_inj.mp (hdepth.trans (toNat_depth_succ hlt).symm), hdepth⟩

theorem Nesting.eq_of_toNat_depth_eq {n n' : Nesting} (hlimit : n.limit = n'.limit)
    (hend : n.sourceEnd = n'.sourceEnd) (hdepth : n.depth.toNat = n'.depth.toNat) : n = n' := by
  cases n
  cases n'
  cases hlimit
  cases hend
  cases UInt64.toNat_inj.mp hdepth
  rfl

namespace Parser

namespace Event

variable {α : Type}

/-- What the descent carries where it enters a factor, looks at a token or starts on a group. -/
def nesting? : Event α → Option Nesting
  | .factor n _ | .look _ n _ | .enter _ n _ => some n
  | _ => none

def isEnter : Event α → Bool
  | .enter .. => true
  | _ => false

def isLeave : Event α → Bool
  | .leave => true
  | _ => false

end Event

section
variable {α : Type}

/-- How many groups were started on. -/
def opened (es : List (Event α)) : Nat := es.countP Event.isEnter

/-- How many of them are behind the descent. -/
def closed (es : List (Event α)) : Nat := es.countP Event.isLeave

theorem opened_append (es fs : List (Event α)) : opened (es ++ fs) = opened es + opened fs :=
  List.countP_append

theorem closed_append (es fs : List (Event α)) : closed (es ++ fs) = closed es + closed fs :=
  List.countP_append

/-- Each group is entered by taking a parenthesis. -/
theorem opened_le_count (es : List (Event α)) :
    opened es ≤ ((taken es).map (·.token)).count .openParen := by
  induction es with
  | nil => exact Nat.le_refl _
  | cons e es ih =>
    cases e with
    | enter opening n inner =>
      have hopened : opened (.enter opening n inner :: es) = opened es + 1 :=
        List.countP_cons_of_pos rfl
      rw [hopened]
      simpa [Event.taken?] using ih
    | take t =>
      refine Nat.le_trans ih ?_
      rw [taken_cons, List.map_append, List.count_append]
      exact Nat.le_add_left ..
    | factor | look | leave | apply => exact ih

end

/-- The nestings in use, innermost first. -/
inductive Nested (limit : UInt64) (sourceEnd : Nat) : List Nesting → Prop where
  | start : Nested limit sourceEnd [.start limit sourceEnd]
  | enter {n inner : Nesting} {opening : Nat} {outer : List Nesting}
      (h : n.descend opening = .ok inner) (hn : Nested limit sourceEnd (n :: outer)) :
      Nested limit sourceEnd (inner :: n :: outer)

theorem Nested.exists_head {limit : UInt64} {sourceEnd : Nat} {ns : List Nesting}
    (h : Nested limit sourceEnd ns) :
    ∃ n outer, ns = n :: outer ∧ n.limit = limit ∧ n.sourceEnd = sourceEnd ∧
      n.depth.toNat = outer.length := by
  induction h with
  | start => exact ⟨_, [], rfl, rfl, rfl, rfl⟩
  | enter h _ ih =>
    obtain ⟨n, outer, ⟨⟩, hlimit, hend, hdepth⟩ := ih
    obtain ⟨_, hinner, hlimit', hend'⟩ := Nesting.descend_eq_ok h
    refine ⟨_, _, rfl, hlimit'.trans hlimit, hend'.trans hend, ?_⟩
    rw [hinner, hdepth, List.length_cons]

namespace Progress

variable {α : Type} {limit : UInt64} {sourceEnd : Nat} {s s' : Progress} {e : Event α}
  {es : List (Event α)}

theorem Step.nested (h : Step s e s') (hs : Nested limit sourceEnd s.nestings) :
    Nested limit sourceEnd s'.nestings := by
  cases h with
  | enter h left outer => exact .enter h hs
  | leave left n inner outer wanting =>
    cases hs with
    | enter _ hn => exact hn
  | factor | look | take | apply => exact hs

theorem Steps.nested (h : Steps s es s') (hs : Nested limit sourceEnd s.nestings) :
    Nested limit sourceEnd s'.nestings := by
  induction h with
  | refl => exact hs
  | cons first _ ih => exact ih (first.nested hs)

theorem Step.opened_add_length (h : Step s e s') :
    opened [e] + s.nestings.length = closed [e] + s'.nestings.length := by
  cases h with
  | enter => exact (Nat.add_comm 1 _).trans (Nat.zero_add _).symm
  | leave => exact (Nat.zero_add _).trans (Nat.add_comm _ 1)
  | factor | look | take | apply => rfl

theorem Steps.opened_add_length (h : Steps s es s') :
    opened es + s.nestings.length = closed es + s'.nestings.length := by
  induction h with
  | refl => rfl
  | @cons _ _ _ e es first _ ih =>
    have := first.opened_add_length
    rw [← List.singleton_append, opened_append, closed_append]
    omega

theorem Step.nesting_eq (h : Step s e s') {n : Nesting} (he : e.nesting? = some n) :
    ∃ outer, s.nestings = n :: outer := by
  cases h <;> cases he <;> exact ⟨_, rfl⟩

/-- The depth is how many groups are open. -/
theorem Steps.depth_eq {ts : List PlacedToken}
    (h : Steps ⟨ts, [.start limit sourceEnd], false⟩ es s) :
    ∃ n outer, s.nestings = n :: outer ∧ n.limit = limit ∧ n.sourceEnd = sourceEnd ∧
      opened es = closed es + n.depth.toNat := by
  obtain ⟨n, outer, hs, hlimit, hend, hdepth⟩ := (h.nested .start).exists_head
  have hlength := h.opened_add_length
  simp only [hs, List.length_cons, List.length_nil] at hlength
  exact ⟨n, outer, hs, hlimit, hend, by omega⟩

end Progress

section
variable {α : Type} {A : Arithmetic α} {limit : UInt64} {sourceEnd : Nat} {ts : List PlacedToken}

theorem depth_of_history {n : Nesting} {before after : List (Event α)} {e : Event α}
    (h : history A (.start limit sourceEnd) ts = before ++ e :: after)
    (he : e.nesting? = some n) :
    n.limit = limit ∧ n.sourceEnd = sourceEnd ∧ opened before = closed before + n.depth.toNat := by
  obtain ⟨s, _, hbefore, hstep⟩ := step_of_history h
  obtain ⟨outer, hs⟩ := hstep.nesting_eq he
  obtain ⟨_, _, hs', hdepth⟩ := hbefore.depth_eq
  cases hs.symm.trans hs'
  exact hdepth

theorem opened_le_closed_add_limit {before after : List (Event α)}
    (h : history A (.start limit sourceEnd) ts = before ++ after) :
    closed before ≤ opened before ∧ opened before ≤ closed before + limit.toNat := by
  obtain ⟨_, hsteps⟩ := steps_history A (.start limit sourceEnd) ts
  obtain ⟨s, hbefore, -⟩ := (h ▸ hsteps).split
  obtain ⟨n, _, _, rfl, _, hdepth⟩ := hbefore.depth_eq
  have := UInt64.le_iff_toNat_le.mp n.depth_le_limit
  omega

theorem nesting_eq_of_closed_eq {n n' : Nesting} {before between after : List (Event α)}
    {e e' : Event α}
    (h : history A (.start limit sourceEnd) ts = before ++ e :: (between ++ e' :: after))
    (he : e.nesting? = some n) (he' : e'.nesting? = some n')
    (hbetween : opened (e :: between) = closed (e :: between)) : n' = n := by
  obtain ⟨hlimit, hend, hdepth⟩ := depth_of_history h he
  have h' : history A (.start limit sourceEnd) ts = (before ++ e :: between) ++ e' :: after := by
    rw [h, List.append_assoc, List.cons_append]
  obtain ⟨hlimit', hend', hdepth'⟩ := depth_of_history h' he'
  rw [opened_append, closed_append] at hdepth'
  exact Nesting.eq_of_toNat_depth_eq (hlimit'.trans hlimit.symm) (hend'.trans hend.symm) (by omega)

theorem depth_of_enter {n n' inner : Nesting} {opening : Nat} {before after : List (Event α)}
    (h : history A n ts = before ++ .enter opening n' inner :: after) :
    n'.descend opening = .ok inner := by
  obtain ⟨_, _, _, hstep⟩ := step_of_history h
  cases hstep with
  | enter h => exact h

/-- The depth that a parse carries is the number of groups it is reading, each of which took a
parenthesis, and never more than the limit. The limit and the end of the source stay what they were.
Once the groups started on in between are read, a loop goes on with the nesting it had. A group is
read one level deeper, and that sum is never too large for the depth. -/
theorem depth_counts_open_groups (A : Arithmetic α) (limit : UInt64) (sourceEnd : Nat)
    (ts : List PlacedToken) :
    (∀ before e after n, history A (.start limit sourceEnd) ts = before ++ e :: after →
      e.nesting? = some n →
      opened before = closed before + n.depth.toNat ∧ n.depth ≤ limit ∧
        n.depth.toNat ≤ ((taken before).map (·.token)).count .openParen ∧
        n.limit = limit ∧ n.sourceEnd = sourceEnd) ∧
    (∀ before after, history A (.start limit sourceEnd) ts = before ++ after →
      closed before ≤ opened before ∧ opened before ≤ closed before + limit.toNat) ∧
    (∀ before e between e' after n n',
      history A (.start limit sourceEnd) ts = before ++ e :: (between ++ e' :: after) →
      e.nesting? = some n → e'.nesting? = some n' →
      opened (e :: between) = closed (e :: between) → n' = n) ∧
    (∀ before opening n inner after,
      history A (.start limit sourceEnd) ts = before ++ .enter opening n inner :: after →
      n.descend opening = .ok inner) ∧
    ∀ (n : Nesting) opening inner, n.descend opening = .ok inner →
      inner.depth = n.depth + 1 ∧ inner.depth.toNat = n.depth.toNat + 1 ∧
        n.depth.toNat + 1 < UInt64.size := by
  refine ⟨fun before e after n h he => ?depth, fun _ _ => opened_le_closed_add_limit,
    fun _ _ _ _ _ _ _ => nesting_eq_of_closed_eq, fun _ _ _ _ _ => depth_of_enter,
    fun n opening inner h => ?descend⟩
  case depth =>
    obtain ⟨rfl, rfl, hdepth⟩ := depth_of_history h he
    have := opened_le_count before
    exact ⟨hdepth, n.depth_le_limit, by omega, rfl, rfl⟩
  case descend =>
    obtain ⟨hdepth, htoNat⟩ := Nesting.depth_of_descend h
    exact ⟨hdepth, htoNat, htoNat ▸ inner.depth.toNat_lt⟩

/-- With room for one group the second parenthesis is taken, but its group is not read. -/
example (A : Arithmetic α) :
    ((history A (.start 1 2) [⟨.openParen, 0⟩, ⟨.openParen, 1⟩]).filterMap (·.nesting?)).map
      (·.depth) = [0, 0, 1] := by cbv

end

end Parser
end Calculator
