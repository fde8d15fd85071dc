import Calculator.Proofs.NumberText

/-! The reader takes the texts of the grammar and no others. What it reads off the front of a text
is what that part of the text spells, and a text that spells a value is read as that value, if what
stands behind it does not go on with a number. -/
namespace Calculator.Json

namespace Reader

/-! Blanks. -/

theorem skipBlanks_append {blanks : List Char} (h : Blanks blanks) (cs : List Char) :
    skipBlanks (blanks ++ cs) = skipBlanks cs :=
  List.dropWhile_append_of_pos h

theorem skipBlanks_cons {c : Char} (h : isBlank c = false) (cs : List Char) :
    skipBlanks (c :: cs) = c :: cs := by
  rw [skipBlanks, List.dropWhile_cons_of_neg (by simp [h])]

theorem exists_blanks (cs : List Char) : ∃ blanks, Blanks blanks ∧ cs = blanks ++ skipBlanks cs :=
  ⟨cs.takeWhile isBlank, List.all_eq_true.mp List.all_takeWhile,
    List.takeWhile_append_dropWhile.symm⟩

theorem closed?_append {blanks : List Char} (h : Blanks blanks) {close : Char}
    (hclose : isBlank close = false) (rest : List Char) :
    closed? close (blanks ++ close :: rest) = some ((), rest) := by
  rw [closed?, skipBlanks_append h, skipBlanks_cons hclose]
  exact if_pos rfl

theorem closed?_eq_none {close c : Char} {cs rest : List Char} (h : skipBlanks cs = c :: rest)
    (hne : c ≠ close) : closed? close cs = none := by
  rw [closed?, h]
  exact if_neg hne

theorem blanks_of_closed? {close : Char} {cs rest : List Char} {u : Unit}
    (h : closed? close cs = some (u, rest)) :
    ∃ blanks, Blanks blanks ∧ cs = blanks ++ close :: rest := by
  obtain ⟨blanks, hblanks, hcs⟩ := exists_blanks cs
  unfold closed? at h
  split at h
  next c rest' hc =>
    split at h
    next heq =>
      cases h
      exact ⟨blanks, hblanks, by rw [← heq, ← hc, ← hcs]⟩
    next => contradiction
  next => contradiction

theorem separator?_comma {blanks : List Char} (h : Blanks blanks) (close : Char) (cs : List Char) :
    separator? close (blanks ++ ',' :: cs) = some (true, skipBlanks cs) := by
  rw [separator?, skipBlanks_append h, skipBlanks_cons (by decide)]
  exact if_pos rfl

theorem separator?_close {blanks : List Char} (h : Blanks blanks) {close : Char}
    (hclose : isBlank close = false) (hcomma : close ≠ ',') (rest : List Char) :
    separator? close (blanks ++ close :: rest) = some (false, rest) := by
  rw [separator?, skipBlanks_append h, skipBlanks_cons hclose]
  exact (if_neg hcomma).trans (if_pos rfl)

theorem blanks_of_separator? {close : Char} {cs rest : List Char} {more : Bool}
    (h : separator? close cs = some (more, rest)) :
    ∃ blanks, Blanks blanks ∧
      (more = true ∧ (∃ after, Blanks after ∧ cs = blanks ++ ',' :: (after ++ rest)) ∨
        more = false ∧ cs = blanks ++ close :: rest) := by
  obtain ⟨blanks, hblanks, hcs⟩ := exists_blanks cs
  refine ⟨blanks, hblanks, ?_⟩
  unfold separator? at h
  split at h
  next c rest' hc =>
    rw [hc] at hcs
    split at h
    next heq =>
      cases h
      obtain ⟨after, hafter, hrest⟩ := exists_blanks rest'
      exact .inl ⟨rfl, after, hafter, by rw [hcs, heq, ← hrest]⟩
    next =>
      split at h
      next heq =>
        cases h
        exact .inr ⟨rfl, heq ▸ hcs⟩
      next => contradiction
  next => contradiction

/-! Strings. -/

theorem charText_of_surrogatePair? {a b c d e : Char} {high : Nat} {cs rest : List Char}
    (hunit : unit? a b c d = some high) (hhigh : isHighSurrogate high)
    (h : surrogatePair? high cs = some (e, rest)) :
    ∃ text, '\\' :: 'u' :: a :: b :: c :: d :: cs = text ++ rest ∧ CharText e text := by
  unfold surrogatePair? at h
  split at h
  next =>
    split at h
    next hlow =>
      split at h
      next hpair =>
        simp only [Option.some.injEq, Prod.mk.injEq] at h
        obtain ⟨rfl, rfl⟩ := h
        exact ⟨_, rfl, .pair hunit hlow hhigh hpair⟩
      next => contradiction
    next => contradiction
  next => contradiction

theorem charText_of_escape? {cs rest : List Char} {c : Char} (h : escape? cs = some (c, rest)) :
    ∃ text, '\\' :: cs = text ++ rest ∧ CharText c text := by
  unfold escape? at h
  split at h
  next =>
    split at h
    next n hunit =>
      split at h
      next hhigh => exact charText_of_surrogatePair? hunit hhigh h
      next hhigh =>
        split at h
        next => contradiction
        next hlow =>
          cases h
          exact ⟨_, rfl, .unit hunit (by simpa using hhigh) (by simpa using hlow)⟩
    next => contradiction
  next =>
    obtain ⟨_, he, h⟩ := Option.map_eq_some_iff.mp h
    cases h
    exact ⟨_, rfl, .letter he⟩
  next => contradiction

theorem stringBody?_charText {c : Char} {text : List Char} (h : CharText c text) (cs : List Char) :
    stringBody? (text ++ cs) = (stringBody? cs).map fun (s, rest) => (c :: s, rest) := by
  have escaped {e : List Char} (he : escape? (e ++ cs) = some (c, cs)) :
      stringBody? ('\\' :: e ++ cs) = (stringBody? cs).map fun (s, rest) => (c :: s, rest) := by
    rw [List.cons_append, stringBody?_cons, if_neg (by decide), if_pos rfl, he]
  cases h with
  | plain hquote hbackslash hcontrol =>
    rw [List.singleton_append, stringBody?_cons, if_neg hquote, if_neg hbackslash,
      if_neg (Nat.not_lt.mpr hcontrol)]
  | @letter e _ h =>
    refine @escaped [e] ?_
    have hne : e ≠ 'u' := by
      rintro rfl
      contradiction
    rw [List.singleton_append, escape?]
    · rw [h]
      rfl
    · simp [hne]
  | @unit a b c d n h hhigh hlow =>
    exact @escaped ['u', a, b, c, d] (by simp [escape?, h, hhigh, hlow])
  | @pair a b c d a' b' c' d' high low h h' hhigh hlow =>
    exact @escaped ['u', a, b, c, d, '\\', 'u', a', b', c', d']
      (by simp [escape?, surrogatePair?, h, h', hhigh, hlow])

theorem stringBody?_append {text cs : List Char} (h : StringText text cs) (rest : List Char) :
    stringBody? (cs ++ '"' :: rest) = some (text, rest) := by
  induction h with
  | nil => rw [List.nil_append, stringBody?_cons, if_pos rfl]
  | cons h _ ih =>
    rw [List.append_assoc, stringBody?_charText h, ih]
    rfl

theorem stringText_of_stringBody? {cs text rest : List Char}
    (h : stringBody? cs = some (text, rest)) :
    ∃ body, cs = body ++ '"' :: rest ∧ StringText text body := by
  match cs with
  | [] =>
    rw [stringBody?_nil] at h
    contradiction
  | c :: cs =>
    rw [stringBody?_cons] at h
    split at h
    next hquote =>
      cases h
      exact ⟨[], by rw [hquote]; rfl, .nil⟩
    next hquote =>
      split at h
      next hbackslash =>
        split at h
        next hescape =>
          obtain ⟨⟨text', rest'⟩, h', h⟩ := Option.map_eq_some_iff.mp h
          cases h
          have := length_lt_of_escape? hescape
          obtain ⟨first, hfirst, hchar⟩ := charText_of_escape? hescape
          obtain ⟨body, rfl, hbody⟩ := stringText_of_stringBody? h'
          exact ⟨first ++ body, by rw [hbackslash, hfirst, List.append_assoc], .cons hchar hbody⟩
        next => contradiction
      next hbackslash =>
        split at h
        next => contradiction
        next hcontrol =>
          obtain ⟨⟨text', rest'⟩, h', h⟩ := Option.map_eq_some_iff.mp h
          cases h
          obtain ⟨body, rfl, hbody⟩ := stringText_of_stringBody? h'
          exact ⟨[c] ++ body, rfl,
            .cons (.plain hquote hbackslash (Nat.not_lt.mp hcontrol)) hbody⟩
termination_by cs.length

/-! Names. -/

theorem skipBlanks_nameText {name : String} {text : List Char} (h : NameText name text)
    (cs : List Char) : ∃ inner, skipBlanks (text ++ cs) = '"' :: inner := by
  obtain ⟨hbefore, -, -⟩ := h
  rw [List.append_assoc, skipBlanks_append hbefore]
  exact ⟨_, skipBlanks_cons (by decide) _⟩

theorem memberName?_append {name : String} {text : List Char} (h : NameText name text)
    (cs : List Char) : memberName? (skipBlanks (text ++ cs)) = some (name, skipBlanks cs) := by
  obtain ⟨hbefore, hname, hafter⟩ := h
  simp only [List.append_assoc, List.cons_append, List.nil_append]
  rw [skipBlanks_append hbefore, skipBlanks_cons (by decide), memberName?, stringBody?_append hname]
  dsimp only
  rw [skipBlanks_append hafter, skipBlanks_cons (by decide)]
  rfl

theorem nameText_of_memberName? {name : String} {cs rest : List Char}
    (h : memberName? cs = some (name, rest)) :
    ∃ text blanks, NameText name text ∧ Blanks blanks ∧ cs = text ++ (blanks ++ rest) := by
  unfold memberName? at h
  split at h
  next =>
    split at h
    next rest' hbody =>
      split at h
      next rest'' hcolon =>
        cases h
        obtain ⟨body, rfl, hname⟩ := stringText_of_stringBody? hbody
        obtain ⟨after, hafter, hrest⟩ := exists_blanks rest'
        obtain ⟨blanks, hblanks, hrest'⟩ := exists_blanks rest''
        refine ⟨_, blanks, .intro (List.forall_mem_nil _) hname hafter, hblanks, ?_⟩
        rw [hrest, hcolon]
        simp [← hrest']
      next => contradiction
    next => contradiction
  next => contradiction

/-! What is read is spelled. -/

theorem spells_of_scalar? {cs rest : List Char} {v : Value} (h : scalar? cs = some (v, rest)) :
    ∃ text, cs = text ++ rest ∧ Spells (.value v) text ∧ v.depth = 0 := by
  unfold scalar? at h
  split at h
  next =>
    obtain ⟨⟨text, rest'⟩, h', h⟩ := Option.map_eq_some_iff.mp h
    cases h
    obtain ⟨body, rfl, hbody⟩ := stringText_of_stringBody? h'
    exact ⟨_, by simp, .string hbody, rfl⟩
  next =>
    cases hw : word? cs with
    | some r =>
      rw [hw] at h
      cases h
      unfold word? at hw
      split at hw <;> cases hw
      · exact ⟨_, rfl, .null, rfl⟩
      · exact ⟨_, rfl, .true, rfl⟩
      · exact ⟨_, rfl, .false, rfl⟩
    | none =>
      rw [hw] at h
      have h : number? cs = some (v, rest) := h
      unfold number? at h
      split at h
      next hs =>
        split at h
        next => contradiction
        next hrange =>
          cases h
          obtain ⟨text, hcs, htext⟩ := NumberText.spelled_of_split? hs
          exact ⟨text, hcs, .number htext (by simpa using hrange), rfl⟩
      next => contradiction

theorem blanks_append {cs ds : List Char} (h : Blanks cs) (h' : Blanks ds) : Blanks (cs ++ ds) :=
  fun c hc => (List.mem_append.mp hc).elim (h c) (h' c)

/-- Blanks in front belong to the first element. -/
theorem spells_elements_blanks {blanks cs : List Char} (hblanks : Blanks blanks) {vs : List Value}
    (h : Spells (.elements vs) cs) : Spells (.elements vs) (blanks ++ cs) := by
  have element {v : Value} {ds : List Char} (h : Spells (.element v) ds) :
      Spells (.element v) (blanks ++ ds) := by
    cases h with
    | element hbefore h hafter =>
      rw [← List.append_assoc]
      exact .element (blanks_append hblanks hbefore) h hafter
  cases h with
  | lastElement h => exact .lastElement (element h)
  | moreElements h hs =>
    rw [← List.append_assoc]
    exact .moreElements (element h) hs

theorem spells_members_blanks {blanks cs : List Char} (hblanks : Blanks blanks)
    {ms : List (String × Value)} (h : Spells (.members ms) cs) :
    Spells (.members ms) (blanks ++ cs) := by
  have named {name : String} {ds : List Char} (h : NameText name ds) :
      NameText name (blanks ++ ds) := by
    cases h with
    | intro hbefore h hafter =>
      rw [← List.append_assoc]
      exact .intro (blanks_append hblanks hbefore) h hafter
  cases h with
  | lastMember hname h =>
    rw [← List.append_assoc]
    exact .lastMember (named hname) h
  | moreMembers hname h hs =>
    rw [← List.append_assoc]
    exact .moreMembers (named hname) h hs

-- The reader skips the blanks behind a bracket or a comma before it looks for an item. The grammar
-- counts them to that item.
mutual

theorem spells_of_value? {levels : Nat} {cs rest : List Char} {v : Value}
    (h : value? levels cs = some (v, rest)) :
    ∃ text, cs = text ++ rest ∧ Spells (.value v) text ∧ v.depth ≤ levels := by
  by_cases hbracket : ∃ inner, cs = '[' :: inner
  · obtain ⟨inner, hcs⟩ := hbracket
    rw [hcs, value?_bracket] at h
    obtain ⟨blanks, hblanks, hinner⟩ := exists_blanks inner
    have hlength := length_skipBlanks_le inner
    split at h
    next => contradiction
    next =>
      split at h
      next hclosed =>
        cases h
        obtain ⟨blanks, hblanks, rfl⟩ := blanks_of_closed? hclosed
        exact ⟨_, by rw [hcs]; simp, .emptyArray hblanks, by simp [Value.depth, itemsDepth]⟩
      next =>
        obtain ⟨⟨vs, rest'⟩, h', h⟩ := Option.map_eq_some_iff.mp h
        cases h
        obtain ⟨text, htext, hspells, hdepth⟩ := spells_of_items? h'
        refine ⟨_, ?_, .array (spells_elements_blanks hblanks hspells), Nat.succ_le_succ hdepth⟩
        rw [hcs, hinner, htext]
        simp
  by_cases hbrace : ∃ inner, cs = '{' :: inner
  · obtain ⟨inner, hcs⟩ := hbrace
    rw [hcs, value?_brace] at h
    obtain ⟨blanks, hblanks, hinner⟩ := exists_blanks inner
    have hlength := length_skipBlanks_le inner
    split at h
    next => contradiction
    next =>
      split at h
      next hclosed =>
        cases h
        obtain ⟨blanks, hblanks, rfl⟩ := blanks_of_closed? hclosed
        exact ⟨_, by rw [hcs]; simp, .emptyObject hblanks, by simp [Value.depth, membersDepth]⟩
      next =>
        obtain ⟨⟨ms, rest'⟩, h', h⟩ := Option.map_eq_some_iff.mp h
        cases h
        obtain ⟨text, htext, hspells, hdepth⟩ := spells_of_members? h'
        refine ⟨_, ?_, .object (spells_members_blanks hblanks hspells), Nat.succ_le_succ hdepth⟩
        rw [hcs, hinner, htext]
        simp
  rw [value?_scalar levels (fun inner h => hbracket ⟨inner, h⟩)
    (fun inner h => hbrace ⟨inner, h⟩)] at h
  obtain ⟨text, hcs, hspells, hdepth⟩ := spells_of_scalar? h
  exact ⟨text, hcs, hspells, by omega⟩
termination_by 2 * cs.length
decreasing_by
  · simp only [hcs, List.length_cons]; omega
  · simp only [hcs, List.length_cons]; omega

theorem spells_of_items? {levels : Nat} {cs rest : List Char} {vs : List Value}
    (h : items? levels cs = some (vs, rest)) :
    ∃ text, cs = text ++ ']' :: rest ∧ Spells (.elements vs) text ∧ itemsDepth vs ≤ levels := by
  rw [items?_eq] at h
  split at h
  next => contradiction
  next v rest' hv =>
    have := size_le_of_value? hv
    obtain ⟨text, rfl, hspells, hdepth⟩ := spells_of_value? hv
    have helement {after : List Char} (hafter : Blanks after) :=
      Spells.element (List.forall_mem_nil _) hspells hafter
    split at h
    next => contradiction
    next hs =>
      cases h
      obtain ⟨after, hafter, ⟨⟨⟩, -⟩ | ⟨-, rfl⟩⟩ := blanks_of_separator? hs
      refine ⟨_, ?_, .lastElement (helement hafter), by simpa [itemsDepth] using hdepth⟩
      simp
    next hs =>
      obtain ⟨⟨vs', rest''⟩, h', h⟩ := Option.map_eq_some_iff.mp h
      cases h
      have := length_lt_of_separator? hs
      obtain ⟨after, hafter, ⟨-, before, hbefore, rfl⟩ | ⟨⟨⟩, -⟩⟩ := blanks_of_separator? hs
      obtain ⟨texts, rfl, hspells', hdepth'⟩ := spells_of_items? h'
      refine ⟨_, ?_, .moreElements (helement hafter) (spells_elements_blanks hbefore hspells'),
        Nat.max_le.mpr ⟨hdepth, hdepth'⟩⟩
      simp
termination_by 2 * cs.length + 1

theorem spells_of_members? {levels : Nat} {cs rest : List Char} {ms : List (String × Value)}
    (h : members? levels cs = some (ms, rest)) :
    ∃ text, cs = text ++ '}' :: rest ∧ Spells (.members ms) text ∧ membersDepth ms ≤ levels := by
  rw [members?_eq] at h
  split at h
  next => contradiction
  next hn =>
    have := length_lt_of_memberName? hn
    obtain ⟨nameText, before, hname, hbefore, rfl⟩ := nameText_of_memberName? hn
    split at h
    next => contradiction
    next hv =>
      have := size_le_of_value? hv
      obtain ⟨text, rfl, hspells, hdepth⟩ := spells_of_value? hv
      have helement {after : List Char} (hafter : Blanks after) :=
        Spells.element hbefore hspells hafter
      split at h
      next => contradiction
      next hs =>
        cases h
        obtain ⟨after, hafter, ⟨⟨⟩, -⟩ | ⟨-, rfl⟩⟩ := blanks_of_separator? hs
        refine ⟨_, ?_, .lastMember hname (helement hafter), by simpa [membersDepth] using hdepth⟩
        simp
      next hs =>
        obtain ⟨⟨ms', rest''⟩, h', h⟩ := Option.map_eq_some_iff.mp h
        cases h
        have := length_lt_of_separator? hs
        obtain ⟨after, hafter, ⟨-, before', hbefore', rfl⟩ | ⟨⟨⟩, -⟩⟩ := blanks_of_separator? hs
        obtain ⟨texts, rfl, hspells', hdepth'⟩ := spells_of_members? h'
        refine ⟨_, ?_, .moreMembers hname (helement hafter)
          (spells_members_blanks hbefore' hspells'), Nat.max_le.mpr ⟨hdepth, hdepth'⟩⟩
        simp
termination_by 2 * cs.length + 1

end

/-! What is spelled is read. -/

open NumberText (EndsNumber)

theorem endsNumber_cons {c : Char} {cs : List Char} :
    EndsNumber (c :: cs) ↔ c.isDigit = false ∧ c ≠ '.' ∧ c ≠ 'e' ∧ c ≠ 'E' := by simp [EndsNumber]

theorem endsNumber_nil : EndsNumber [] := by simp [EndsNumber]

theorem endsNumber_append {blanks rest : List Char} (h : Blanks blanks) (hrest : EndsNumber rest) :
    EndsNumber (blanks ++ rest) := by
  cases blanks with
  | nil => exact hrest
  | cons c cs =>
    have hblank := h c (List.mem_cons_self ..)
    simp only [isBlank, Bool.or_eq_true, decide_eq_true_eq] at hblank
    obtain ((rfl | rfl) | rfl) | rfl := hblank <;> exact endsNumber_cons.mpr (by decide)

theorem eq_cons_of_spelled {t : NumberText} {cs : List Char} (h : t.Spelled cs) :
    ∃ c ds, cs = c :: ds ∧ ∀ x : Char, x ≠ '-' ∧ x.isDigit = false → c ≠ x := by
  obtain ⟨negative, hwhole, -, -, -⟩ := h
  obtain ⟨c, ds, rfl, hc⟩ := Text.exists_digit hwhole
  cases negative with
  | true => exact ⟨_, _, rfl, fun x hx => hx.1.symm⟩
  | false => exact ⟨_, _, rfl, fun x hx => Text.ne_of_isDigit hc x hx.2⟩

/-- The text of a value starts with no blank and with no closing bracket. -/
theorem eq_cons_of_spells {v : Value} {cs : List Char} (h : Spells (.value v) cs) :
    ∃ c ds, cs = c :: ds ∧ isBlank c = false ∧ c ≠ ']' := by
  cases h with
  | number h =>
    obtain ⟨c, ds, rfl, hne⟩ := eq_cons_of_spelled h
    refine ⟨c, ds, rfl, ?_, hne ']' (by decide)⟩
    simp [isBlank, hne ' ' (by decide), hne '\t' (by decide), hne '\n' (by decide),
      hne '\r' (by decide)]
  | null | true | false | string | emptyArray | array | emptyObject | object =>
    exact ⟨_, _, rfl, by decide, by decide⟩

theorem value?_spelled (levels : Nat) {t : NumberText} {cs : List Char} (h : t.Spelled cs)
    (hrange : t.overflows = false) {rest : List Char} (hrest : EndsNumber rest) :
    value? levels (cs ++ rest) = some (.number t.negative t.value, rest) := by
  have hnumber : number? (cs ++ rest) = some (.number t.negative t.value, rest) := by
    rw [number?, NumberText.split?_append h hrest]
    exact if_neg (by simp [hrange])
  obtain ⟨c, ds, rfl, hne⟩ := eq_cons_of_spelled h
  have hword : word? (c :: (ds ++ rest)) = none := by
    simp [word?, hne 'n' (by decide), hne 't' (by decide), hne 'f' (by decide)]
  rw [List.cons_append] at hnumber ⊢
  rw [value?_scalar levels (by simp [hne '[' (by decide)]) (by simp [hne '{' (by decide)]), scalar?,
    hword, hnumber]
  · rfl
  · simp [hne '"' (by decide)]

theorem skipBlanks_element {v : Value} {cs : List Char} (h : Spells (.element v) cs)
    (rest : List Char) : ∃ c ds, skipBlanks (cs ++ rest) = c :: ds ∧ c ≠ ']' := by
  cases h with
  | element hbefore h _ =>
    obtain ⟨c, ds, rfl, hblank, hbracket⟩ := eq_cons_of_spells h
    rw [List.append_assoc, skipBlanks_append hbefore]
    exact ⟨c, _, skipBlanks_cons hblank _, hbracket⟩

theorem closed?_elements {vs : List Value} {cs : List Char} (h : Spells (.elements vs) cs)
    (rest : List Char) : closed? ']' (cs ++ rest) = none := by
  suffices hhead : ∃ c ds, skipBlanks (cs ++ rest) = c :: ds ∧ c ≠ ']' by
    obtain ⟨c, ds, hskip, hne⟩ := hhead
    exact closed?_eq_none hskip hne
  cases h with
  | lastElement h => exact skipBlanks_element h rest
  | moreElements h _ =>
    rw [List.append_assoc]
    exact skipBlanks_element h _

theorem closed?_members {ms : List (String × Value)} {cs : List Char}
    (h : Spells (.members ms) cs) (rest : List Char) : closed? '}' (cs ++ rest) = none := by
  suffices hhead : ∃ ds, skipBlanks (cs ++ rest) = '"' :: ds by
    obtain ⟨ds, hskip⟩ := hhead
    exact closed?_eq_none hskip (by decide)
  cases h with
  | lastMember hname | moreMembers hname =>
    rw [List.append_assoc]
    exact skipBlanks_nameText hname _

/-- What a production is read as where a text of it stands. -/
def Reads : Part → List Char → Prop
  | .value v, cs => ∀ levels rest, v.depth ≤ levels → EndsNumber rest →
      value? levels (cs ++ rest) = some (v, rest)
  | .element v, cs => ∀ levels rest, v.depth ≤ levels → EndsNumber rest →
      ∃ after, Blanks after ∧ value? levels (skipBlanks (cs ++ rest)) = some (v, after ++ rest)
  | .elements vs, cs => ∀ levels rest, itemsDepth vs ≤ levels →
      items? levels (skipBlanks (cs ++ ']' :: rest)) = some (vs, rest)
  | .members ms, cs => ∀ levels rest, membersDepth ms ≤ levels →
      members? levels (skipBlanks (cs ++ '}' :: rest)) = some (ms, rest)

/-- By induction on the grammar. What follows an item is blanks and a comma or the closing bracket,
none of which goes on with a number. -/
theorem reads_of_spells {p : Part} {cs : List Char} (h : Spells p cs) : Reads p cs := by
  induction h with
  | null | true | false =>
    intro levels rest _ _
    exact value?_scalar levels (by simp) (by simp)
  | number h hrange =>
    intro levels rest _ hrest
    exact value?_spelled levels h hrange hrest
  | string h =>
    intro levels rest _ _
    rw [List.cons_append, List.append_assoc, value?_scalar levels (by simp) (by simp), scalar?]
    exact congrArg _ (stringBody?_append h rest)
  | emptyArray h =>
    intro levels rest hdepth _
    obtain ⟨levels, rfl⟩ := Nat.exists_eq_succ_of_ne_zero (Nat.ne_of_gt hdepth)
    rw [List.cons_append, List.append_assoc, value?_bracket]
    dsimp only
    rw [List.singleton_append, closed?_append h (by decide)]
  | array h ih =>
    intro levels rest hdepth _
    obtain ⟨levels, rfl⟩ := Nat.exists_eq_succ_of_ne_zero (Nat.ne_of_gt (Nat.zero_lt_of_lt hdepth))
    rw [List.cons_append, List.append_assoc, value?_bracket]
    dsimp only
    rw [closed?_elements h, List.singleton_append, ih levels rest (Nat.le_of_succ_le_succ hdepth)]
    rfl
  | emptyObject h =>
    intro levels rest hdepth _
    obtain ⟨levels, rfl⟩ := Nat.exists_eq_succ_of_ne_zero (Nat.ne_of_gt hdepth)
    rw [List.cons_append, List.append_assoc, value?_brace]
    dsimp only
    rw [List.singleton_append, closed?_append h (by decide)]
  | object h ih =>
    intro levels rest hdepth _
    obtain ⟨levels, rfl⟩ := Nat.exists_eq_succ_of_ne_zero (Nat.ne_of_gt (Nat.zero_lt_of_lt hdepth))
    rw [List.cons_append, List.append_assoc, value?_brace]
    dsimp only
    rw [closed?_members h, List.singleton_append, ih levels rest (Nat.le_of_succ_le_succ hdepth)]
    rfl
  | @element v before cs after hbefore h hafter ih =>
    intro levels rest hdepth hrest
    obtain ⟨c, ds, rfl, hblank, -⟩ := eq_cons_of_spells h
    have hread := ih levels (after ++ rest) hdepth (endsNumber_append hafter hrest)
    refine ⟨after, hafter, ?_⟩
    rw [List.append_assoc, List.append_assoc, skipBlanks_append hbefore, List.cons_append,
      skipBlanks_cons hblank]
    exact hread
  | lastElement _ ih =>
    intro levels rest hdepth
    rw [itemsDepth, itemsDepth, Nat.max_zero] at hdepth
    obtain ⟨after, hafter, hread⟩ :=
      ih levels (']' :: rest) hdepth (endsNumber_cons.mpr (by decide))
    rw [items?_eq, hread]
    dsimp only
    rw [separator?_close hafter (by decide) (by decide)]
  | @moreElements v vs cs ds _ _ ih ihs =>
    intro levels rest hdepth
    rw [itemsDepth, Nat.max_le] at hdepth
    obtain ⟨after, hafter, hread⟩ :=
      ih levels (',' :: (ds ++ ']' :: rest)) hdepth.1 (endsNumber_cons.mpr (by decide))
    rw [List.append_assoc, List.cons_append, items?_eq, hread]
    dsimp only
    rw [separator?_comma hafter]
    dsimp only
    rw [ihs levels rest hdepth.2]
    rfl
  | lastMember hname _ ih =>
    intro levels rest hdepth
    rw [membersDepth, membersDepth, Nat.max_zero] at hdepth
    obtain ⟨after, hafter, hread⟩ :=
      ih levels ('}' :: rest) hdepth (endsNumber_cons.mpr (by decide))
    rw [List.append_assoc, members?_eq, memberName?_append hname]
    dsimp only
    rw [hread]
    dsimp only
    rw [separator?_close hafter (by decide) (by decide)]
  | @moreMembers name v ms cs ds es hname _ _ ih ihs =>
    intro levels rest hdepth
    rw [membersDepth, Nat.max_le] at hdepth
    obtain ⟨after, hafter, hread⟩ :=
      ih levels (',' :: (es ++ '}' :: rest)) hdepth.1 (endsNumber_cons.mpr (by decide))
    rw [List.append_assoc, List.append_assoc, List.cons_append, members?_eq,
      memberName?_append hname]
    dsimp only
    rw [hread]
    dsimp only
    rw [separator?_comma hafter]
    dsimp only
    rw [ihs levels rest hdepth.2]
    rfl

theorem blanks_iff {cs : List Char} : Blanks cs ↔ skipBlanks cs = [] :=
  List.dropWhile_eq_nil_iff.symm

end Reader

open Reader

/-- The reader takes exactly the texts of one value, and reads the value they spell. -/
theorem Value.ofText?_eq_some_iff {cs : List Char} {v : Value} :
    ofText? cs = some v ↔ Document v cs := by
  constructor
  · intro h
    unfold ofText? at h
    split at h
    next rest hv =>
      split at h
      next hrest =>
        cases h
        obtain ⟨before, hbefore, hcs⟩ := exists_blanks cs
        obtain ⟨text, htext, hspells, hdepth⟩ := spells_of_value? hv
        refine ⟨?_, hdepth⟩
        rw [hcs, htext]
        exact .element hbefore hspells (blanks_iff.mpr hrest)
      next => contradiction
    next => contradiction
  · rintro ⟨hspells, hdepth⟩
    obtain ⟨after, hafter, hread⟩ := reads_of_spells hspells maxLevels [] hdepth endsNumber_nil
    rw [List.append_nil, List.append_nil] at hread
    rw [ofText?, hread]
    exact if_pos (blanks_iff.mp hafter)

end Calculator.Json
