import Calculator.Proofs.Numerals

/-! Cutting a text in two. A number is as long as it can be, so it ends in the same place whatever
follows the cut, unless the cut is inside of it. Text without digits may then be put in there. -/
namespace Calculator.Lexer

open Text (isDigits EndsDigits endsDigits_cons)

/-- A number ends where no digit follows and, if it has no point yet, no point with a digit. -/
structure Stops (number cs : List Char) : Prop where
  digit : EndsDigits cs
  point : isDigits number → ∀ ds, cs = '.' :: ds → EndsDigits ds

theorem endsDigits_of_append {cs ds : List Char} (h : EndsDigits (cs ++ ds)) : EndsDigits cs := by
  cases cs with
  | nil => simp
  | cons c cs => exact endsDigits_cons.mpr (endsDigits_cons.mp h)

theorem Stops.of_append {number cs ds : List Char} (h : Stops number (cs ++ ds)) :
    Stops number cs where
  digit := endsDigits_of_append h.digit
  point hn es hes := endsDigits_of_append (h.point hn (es ++ ds) (by rw [hes]; rfl))

theorem endsDigits_insert {cs ds ws : List Char} (h : EndsDigits (cs ++ ds))
    (hw : ∀ c ∈ ws, c.isDigit = false) : EndsDigits (cs ++ (ws ++ ds)) := by
  cases cs with
  | nil =>
    cases ws with
    | nil => exact h
    | cons w ws => exact endsDigits_cons.mpr (hw w (List.mem_cons_self ..))
  | cons c cs => exact endsDigits_cons.mpr (endsDigits_cons.mp h)

/-- No number goes on across characters that are no digits. Even if the first of them is a point,
what follows it is no digit, or else the number went on before. -/
theorem Stops.insert {number cs ds ws : List Char} (h : Stops number (cs ++ ds))
    (hw : ∀ c ∈ ws, c.isDigit = false) : Stops number (cs ++ (ws ++ ds)) where
  digit := endsDigits_insert h.digit hw
  point hn es hes := by
    cases cs with
    | nil =>
      cases ws with
      | nil => exact h.point hn es hes
      | cons w ws =>
        obtain ⟨-, rfl⟩ := List.cons.inj hes
        exact @endsDigits_insert [] ds ws h.digit fun c hc => hw c (List.mem_cons_of_mem _ hc)
    | cons c cs =>
      obtain ⟨rfl, rfl⟩ := List.cons.inj hes
      exact endsDigits_insert (h.point hn (cs ++ ds) rfl) hw

theorem not_isDigits_append_point (cs ds : List Char) : ¬isDigits (cs ++ '.' :: ds) := by
  intro h
  have hpoint := (Text.isDigits_iff.mp h).2 '.' (by simp)
  contradiction

theorem stops_splitNumber (cs : List Char) : Stops (splitNumber cs).1 (splitNumber cs).2 := by
  unfold splitNumber
  split
  next rest _ =>
    split
    next hnone =>
      refine ⟨by simp, fun _ es hes => ?_⟩
      obtain ⟨-, rfl⟩ := List.cons.inj hes
      rw [← List.takeWhile_append_dropWhile (p := Char.isDigit) (l := rest), hnone]
      exact Text.endsDigits_dropWhile rest
    next =>
      exact ⟨Text.endsDigits_dropWhile rest, fun hn => absurd hn (not_isDigits_append_point _ _)⟩
  next hnot =>
    exact ⟨Text.endsDigits_dropWhile cs, fun _ es hes => absurd hes (hnot es)⟩

theorem splitNumber_eq_of_stops {number cs : List Char} (hn : IsNumeral number)
    (h : Stops number cs) : splitNumber (number ++ cs) = (number, cs) := by
  cases hn with
  | whole hd =>
    have htake := Text.takeWhile_isDigits_append hd h.digit
    have hdrop := Text.dropWhile_isDigits_append hd h.digit
    by_cases hpoint : ∃ rest, cs = '.' :: rest
    · obtain ⟨rest, rfl⟩ := hpoint
      have hrest := Text.takeWhile_eq_nil_of_endsDigits (h.point hd rest rfl)
      simp only [splitNumber, htake, hdrop, hrest]
    · have hcs (rest : List Char) : (number ++ cs).dropWhile Char.isDigit ≠ '.' :: rest := by
        rw [hdrop]
        exact fun hrest => hpoint ⟨rest, hrest⟩
      rw [splitNumber_of_dropWhile_ne hcs, htake, hdrop]
  | @fraction digits behind hd hb =>
    have htake := Text.takeWhile_isDigits_append hb h.digit
    have hdrop := Text.dropWhile_isDigits_append hb h.digit
    rw [List.append_assoc, List.cons_append]
    simp only [splitNumber, Text.takeWhile_isDigits_point hd, Text.dropWhile_isDigits_point hd,
      htake, hdrop]
    cases behind with
    | nil => contradiction
    | cons => rfl

/-- The longer of two texts in front of the same text has the shorter one in front. -/
theorem exists_append_of_utf8ByteSize_le {xs ys as bs : List Char} (h : xs ++ ys = as ++ bs)
    (hsize : (String.ofList xs).utf8ByteSize ≤ (String.ofList as).utf8ByteSize) :
    ∃ rest, as = xs ++ rest ∧ ys = rest ++ bs := by
  obtain hshort | ⟨rest, rfl, hbs⟩ := List.append_eq_append_iff.mp h
  · exact hshort
  · rw [String.ofList_append, String.utf8ByteSize_append] at hsize
    have hrest : rest = [] := by
      rw [← String.ofList_eq_empty_iff, ← String.utf8ByteSize_eq_zero_iff]
      omega
    subst hrest
    exact ⟨[], by simp, hbs.symm⟩

/-- Each number ends before the place `cut` or starts behind it. -/
def Uncut (cut : Nat) (ts : List PlacedToken) : Prop :=
  ∀ text offset, ⟨.number text, offset⟩ ∈ ts →
    offset + text.utf8ByteSize ≤ cut ∨ cut ≤ offset

theorem Uncut.of_place_cons {cut offset : Nat} {p : Piece} {ps : List Piece}
    (h : Uncut cut (tokens (place offset (p :: ps)))) :
    Uncut cut (tokens (place (offset + p.size) ps)) := by
  cases p with
  | token t => exact fun text offset ht => h text offset (List.mem_cons_of_mem _ ht)
  | blank | dropped => exact h

/-- A number that ends before the cut is the same whatever text without digits is put in there. -/
theorem splitNumber_insert {c : Char} (hc : c.isDigit) {cs bs ws : List Char}
    (h : (String.ofList (splitNumber (c :: cs ++ bs)).1).utf8ByteSize ≤
      (String.ofList (c :: cs)).utf8ByteSize) (hw : ∀ w ∈ ws, w.isDigit = false) :
    splitNumber (c :: cs ++ (ws ++ bs)) =
      ((splitNumber (c :: cs)).1, (splitNumber (c :: cs)).2 ++ (ws ++ bs)) := by
  have hnumeral : IsNumeral (splitNumber (c :: cs ++ bs)).1 := isNumeral_splitNumber hc (cs ++ bs)
  have hstops := stops_splitNumber (c :: cs ++ bs)
  obtain ⟨rest, hcs, hbehind⟩ := exists_append_of_utf8ByteSize_le (splitNumber_append _) h
  generalize (splitNumber (c :: cs ++ bs)).1 = number at hnumeral hstops hcs
  rw [hbehind] at hstops
  rw [hcs, List.append_assoc, splitNumber_eq_of_stops hnumeral (hstops.insert hw),
    splitNumber_eq_of_stops hnumeral hstops.of_append]

theorem pieces_insert {ws bs as : List Char} (hw : ∀ c ∈ ws, c.isDigit = false) (offset : Nat)
    (h : Uncut (offset + (String.ofList as).utf8ByteSize)
      (tokens (place offset (pieces (as ++ bs))))) :
    pieces (as ++ (ws ++ bs)) = pieces as ++ pieces (ws ++ bs) := by
  fun_induction pieces as generalizing offset with
  | case1 => rfl
  | case2 c cs hc _ ih =>
    have hpieces := pieces_of_isDigit hc (cs ++ bs)
    rw [← List.cons_append] at hpieces
    rw [hpieces] at h
    have hsize : (String.ofList (splitNumber (c :: cs ++ bs)).1).utf8ByteSize ≤
        (String.ofList (c :: cs)).utf8ByteSize := by
      have hpos : (String.ofList (c :: cs)).utf8ByteSize ≠ 0 :=
        mt String.utf8ByteSize_eq_zero_iff.mp (by simp)
      have hfirst := h _ _ (List.mem_cons_self ..)
      omega
    have hnone : ∀ w ∈ ([] : List Char), w.isDigit = false := by simp
    have hbehind := splitNumber_insert hc hsize hnone
    rw [List.nil_append] at hbehind
    have hwhole := congrArg (fun cs => (String.ofList cs).utf8ByteSize)
      (splitNumber_append (c :: cs))
    simp only [String.ofList_append, String.utf8ByteSize_append] at hwhole
    have hlater := h.of_place_cons
    rw [hbehind, ← hwhole, ← Nat.add_assoc] at hlater
    have hinserted := splitNumber_insert hc hsize hw
    rw [List.cons_append] at hinserted
    rw [List.cons_append, pieces_of_isDigit hc, hinserted, ih _ hlater, List.cons_append]
  | case3 c cs hc ih =>
    rw [List.cons_append, pieces_of_not_isDigit hc] at h
    have hlater := h.of_place_cons
    have hwhole : (String.ofList (c :: cs)).utf8ByteSize =
        (single c).size + (String.ofList cs).utf8ByteSize := by
      rw [Piece.size, text_single, ← List.singleton_append, String.ofList_append,
        String.utf8ByteSize_append]
      rfl
    rw [hwhole, ← Nat.add_assoc] at hlater
    rw [List.cons_append, pieces_of_not_isDigit hc, ih _ hlater, List.cons_append]

theorem pieces_append_of_no_digit {ws : List Char} (hw : ∀ c ∈ ws, c.isDigit = false)
    (bs : List Char) : pieces (ws ++ bs) = pieces ws ++ pieces bs := by
  induction ws with
  | nil => rw [pieces]; rfl
  | cons w ws ih =>
    obtain ⟨hfirst, hws⟩ := List.forall_mem_cons.mp hw
    have hdigit : ¬w.isDigit := by simp [hfirst]
    rw [List.cons_append, pieces_of_not_isDigit hdigit, pieces_of_not_isDigit hdigit, ih hws,
      List.cons_append]

/-- Where no number is cut, the tokens of a text are those of its two parts, and they stay the same
when text without digits is put between these. -/
theorem tokensFrom_insert {a b w : String} (hcut : Uncut a.utf8ByteSize (tokens (placed (a ++ b))))
    (hw : ∀ c ∈ w.toList, c.isDigit = false) :
    tokensFrom 0 (a ++ (w ++ b)) =
      tokensFrom 0 a ++ (tokensFrom a.utf8ByteSize w ++
        tokensFrom (a.utf8ByteSize + w.utf8ByteSize) b) := by
  have hpieces : pieces (a ++ (w ++ b)).toList =
      pieces a.toList ++ (pieces w.toList ++ pieces b.toList) := by
    rw [placed, String.toList_append] at hcut
    rw [String.toList_append, String.toList_append, pieces_insert hw 0,
      pieces_append_of_no_digit hw]
    rwa [Nat.zero_add, String.ofList_toList]
  rw [tokensFrom, hpieces, place_append, place_append, extent_pieces, extent_pieces, Nat.zero_add]
  rw [tokens, List.filterMap_append, List.filterMap_append]
  rfl

theorem tokensFrom_append_of_uncut {a b : String}
    (hcut : Uncut a.utf8ByteSize (tokens (placed (a ++ b)))) :
    tokensFrom 0 (a ++ b) = tokensFrom 0 a ++ tokensFrom a.utf8ByteSize b := by
  simpa using tokensFrom_insert hcut (w := "") (by simp)

end Calculator.Lexer
