import Calculator.Proofs.Coverage
import Calculator.Proofs.Relocation

/-! Reading a text in two parts. The parts have the tokens of the whole exactly if no token of the
whole is cut, and then they drop the same characters as well. -/
namespace Calculator.Lexer

theorem map_dropped_place (offset start : Nat) (ps : List Piece) :
    (dropped (place start ps)).map (fun d => (d.1, offset + d.2)) =
      dropped (place (offset + start) ps) := by
  induction ps generalizing start with
  | nil => rfl
  | cons p ps ih =>
    have hlater := ih (start + p.size)
    rw [← Nat.add_assoc] at hlater
    cases p with
    | dropped c => exact congrArg ((c, offset + start) :: ·) hlater
    | token | blank => exact hlater

theorem map_relocate_recognized (offset : Nat) (source : String) :
    (recognized source).map (·.relocate (offset + ·)) = tokensFrom offset source := by
  rw [recognized_eq]
  exact map_relocate_tokensFrom fun i _ => by rw [Nat.zero_add]

theorem finish_le_of_mem_recognized {source : String} {t : PlacedToken}
    (h : t ∈ recognized source) : t.finish ≤ source.utf8ByteSize := by
  rw [recognized_eq] at h
  obtain ⟨before, after, hsource, hoffset⟩ := exists_append_of_mem_tokensFrom h
  rw [PlacedToken.finish, hoffset, hsource, String.utf8ByteSize_append, String.utf8ByteSize_append]
  omega

theorem uncut_of_not_straddles {cut : Nat} {ts : List PlacedToken}
    (h : ∀ t ∈ ts, ¬t.Straddles cut) : Uncut cut ts := by
  intro text offset ht
  obtain hlt | hle := Nat.lt_or_ge offset cut
  · exact .inl (Nat.not_lt.mp fun hlt' => h _ ht ⟨hlt, hlt'⟩)
  · exact .inr hle

theorem pieces_append_of_uncut {a b : String}
    (hcut : Uncut a.utf8ByteSize (tokens (placed (a ++ b)))) :
    pieces (a ++ b).toList = pieces a.toList ++ pieces b.toList := by
  have hnone : ∀ c ∈ ([] : List Char), c.isDigit = false := List.forall_mem_nil _
  rw [placed, String.toList_append] at hcut
  rw [String.toList_append]
  apply pieces_insert hnone 0
  rwa [Nat.zero_add, String.ofList_toList]

/-- Exactly where no token is cut in two, the tokens of a text are those of its two parts, the
second part moved behind the first. Then the dropped characters are those of the parts, too. -/
theorem recognized_append_iff (a b : String) :
    (recognized (a ++ b) =
        recognized a ++ (recognized b).map (·.relocate (a.utf8ByteSize + ·)) ↔
      ∀ t ∈ recognized (a ++ b), ¬t.Straddles a.utf8ByteSize) ∧
    ((∀ t ∈ recognized (a ++ b), ¬t.Straddles a.utf8ByteSize) →
      droppedCharacters (a ++ b) =
        droppedCharacters a ++ (droppedCharacters b).map fun d => (d.1, a.utf8ByteSize + d.2)) := by
  have hpieces (h : ∀ t ∈ recognized (a ++ b), ¬t.Straddles a.utf8ByteSize) :
      pieces (a ++ b).toList = pieces a.toList ++ pieces b.toList := by
    rw [recognized_eq, ← tokens_placed] at h
    exact pieces_append_of_uncut (uncut_of_not_straddles h)
  refine ⟨⟨?parts, ?whole⟩, ?dropped⟩
  case parts =>
    rintro heq t ht ⟨hlt, hlt'⟩
    rw [heq] at ht
    obtain hfront | hback := List.mem_append.mp ht
    · have := finish_le_of_mem_recognized hfront
      omega
    · obtain ⟨u, -, rfl⟩ := List.mem_map.mp hback
      exact Nat.not_lt.mpr (Nat.le_add_right ..) hlt
  case whole =>
    intro h
    rw [map_relocate_recognized, recognized_eq, recognized_eq,
      tokensFrom_append_of_pieces (hpieces h), Nat.zero_add]
  case dropped =>
    intro h
    rw [droppedCharacters, droppedCharacters, droppedCharacters, placed, placed, placed,
      map_dropped_place, hpieces h, place_append, extent_pieces, Nat.zero_add, Nat.add_zero]
    exact List.filterMap_append

end Calculator.Lexer
