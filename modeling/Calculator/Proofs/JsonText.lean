import Calculator.Proofs.JsonGrammar
import Calculator.Proofs.NumberRange

/-! JSON text, read as it is written, on one line or indented. The writer spells each value the way
the grammar says, so its text is the text of that value and of no other, provided the numbers and
the levels are such as a reader accepts. -/
namespace Calculator.Json

open Reader

/-! Strings. -/

theorem hexValue?_digitChar {n : Nat} (h : n < 16) : Text.hexValue? (Nat.digitChar n) = some n := by
  decide +revert

theorem unit?_digitChar {n : Nat} (h : n < 0x20) :
    unit? '0' '0' (Nat.digitChar (n / 16)) (Nat.digitChar (n % 16)) = some n := by
  have hzero : Text.hexValue? '0' = some 0 := rfl
  simp only [unit?, hzero, hexValue?_digitChar (show n / 16 < 16 by omega),
    hexValue?_digitChar (show n % 16 < 16 by omega), Option.bind_eq_bind, Option.bind_some,
    Option.pure_def, Option.some.injEq]
  omega

theorem charText_escaped (c : Char) : CharText c (escaped c) := by
  unfold escaped
  split
  next h => subst h; exact .letter rfl
  next hquote =>
    split
    next h => subst h; exact .letter rfl
    next hbackslash =>
      -- the five control characters with an escape of their own
      repeat
        split
        next h => subst h; exact .letter rfl
      split
      next hcontrol =>
        have hhigh : isHighSurrogate c.toNat = false := by
          simp only [isHighSurrogate, Bool.and_eq_false_iff, decide_eq_false_iff_not]
          omega
        have hlow : isLowSurrogate c.toNat = false := by
          simp only [isLowSurrogate, Bool.and_eq_false_iff, decide_eq_false_iff_not]
          omega
        simpa using CharText.unit (unit?_digitChar hcontrol) hhigh hlow
      next hcontrol => exact .plain hquote hbackslash (Nat.le_of_not_lt hcontrol)

theorem stringText_escaped (text : List Char) : StringText text (text.flatMap escaped) := by
  induction text with
  | nil => exact .nil
  | cons c cs ih => exact .cons (charText_escaped c) ih

/-! Values. -/

mutual

/-- Whether a reader that has so many levels left takes the value: its numbers are in normal form
and in range. -/
def Value.Readable (levels : Nat) : Value → Prop
  | .number negative d => d.IsNormal ∧ (NumberText.ofDecimal negative d).overflows = false
  | .array items => 0 < levels ∧ ItemsReadable (levels - 1) items
  | .object members => 0 < levels ∧ MembersReadable (levels - 1) members
  | _ => True

def ItemsReadable (levels : Nat) : List Value → Prop
  | [] => True
  | v :: vs => v.Readable levels ∧ ItemsReadable levels vs

def MembersReadable (levels : Nat) : List (String × Value) → Prop
  | [] => True
  | (_, v) :: ms => v.Readable levels ∧ MembersReadable levels ms

end

theorem blanks_line (s : Spacing) (depth : Nat) : Blanks (s.line depth) := by
  cases s with
  | compact => exact List.forall_mem_nil _
  | pretty =>
    intro c hc
    obtain rfl | hc := List.mem_cons.mp hc
    · rfl
    · rw [List.eq_of_mem_replicate hc]
      rfl

theorem spells_signedText {negative : Bool} {d : Decimal} (hnormal : d.IsNormal)
    (hrange : (NumberText.ofDecimal negative d).overflows = false) :
    Spells (.value (.number negative d)) (numberFormat.signedText negative d) := by
  have h := Spells.number (NumberText.proper_ofDecimal negative hnormal).spelled hrange
  rwa [NumberText.text_ofDecimal, NumberText.value_ofDecimal negative hnormal,
    NumberText.negative_ofDecimal] at h

/-- A member starts a line; the blank behind the colon belongs to the value. -/
theorem nameText_stringText (s : Spacing) (depth : Nat) (name : String) :
    NameText name (s.line depth ++ (stringText name ++ [':'])) := by
  have h := NameText.intro (blanks_line s depth) (stringText_escaped name.toList)
    (List.forall_mem_nil _)
  simpa [stringText] using h

theorem exists_colon (s : Spacing) : ∃ blanks, Blanks blanks ∧ s.colon = ':' :: blanks := by
  cases s with
  | compact => exact ⟨[], List.forall_mem_nil _, rfl⟩
  | pretty => exact ⟨[' '], by simp [Blanks, isBlank], rfl⟩

-- By induction on the size of the value. The line behind the last item belongs to that item.
mutual

/-- A value is written in a way of the grammar. -/
theorem spells_text (s : Spacing) (depth levels : Nat) :
    ∀ v : Value, v.Readable levels → Spells (.value v) (v.text s depth) ∧ v.depth ≤ levels
  | .null, _ => ⟨.null, Nat.zero_le _⟩
  | .bool true, _ => ⟨.true, Nat.zero_le _⟩
  | .bool false, _ => ⟨.false, Nat.zero_le _⟩
  | .number .., hv => ⟨spells_signedText hv.1 hv.2, Nat.zero_le _⟩
  | .string text, _ => by
    have h := Spells.string (stringText_escaped text.toList)
    rw [String.ofList_toList] at h
    exact ⟨h, Nat.zero_le _⟩
  | .array [], hv => ⟨.emptyArray (List.forall_mem_nil _), hv.1⟩
  | .array (v :: vs), hv => by
    obtain ⟨levels, rfl⟩ := Nat.exists_eq_succ_of_ne_zero (Nat.ne_of_gt hv.1)
    obtain ⟨-, hv, hvs⟩ := hv
    obtain ⟨h, hdepth⟩ := spells_itemsText s depth (depth + 1) levels v hv vs hvs
    refine ⟨?_, Nat.succ_le_succ hdepth⟩
    simpa only [Value.text, List.append_assoc] using Spells.array h
  | .object [], hv => ⟨.emptyObject (List.forall_mem_nil _), hv.1⟩
  | .object ((name, v) :: ms), hv => by
    obtain ⟨levels, rfl⟩ := Nat.exists_eq_succ_of_ne_zero (Nat.ne_of_gt hv.1)
    obtain ⟨-, hv, hms⟩ := hv
    obtain ⟨h, hdepth⟩ := spells_membersText s depth (depth + 1) levels name v hv ms hms
    refine ⟨?_, Nat.succ_le_succ hdepth⟩
    simpa only [Value.text, List.append_assoc] using Spells.object h
termination_by v => v.size
decreasing_by
  · simp only [Value.size, itemsSize]; omega
  · simp only [Value.size, membersSize]; omega

theorem spells_itemsText (s : Spacing) (depth inside levels : Nat) (v : Value)
    (hv : v.Readable levels) : ∀ vs, ItemsReadable levels vs →
      Spells (.elements (v :: vs))
        (s.line inside ++ (v.text s inside ++ (itemsText s inside vs ++ s.line depth))) ∧
      itemsDepth (v :: vs) ≤ levels
  | [], _ => by
    obtain ⟨h, hdepth⟩ := spells_text s inside levels v hv
    refine ⟨.lastElement (.element (blanks_line s inside) h (blanks_line s depth)), ?_⟩
    simpa only [itemsDepth, Nat.max_zero] using hdepth
  | w :: ws, ⟨hw, hws⟩ => by
    obtain ⟨h, hdepth⟩ := spells_text s inside levels v hv
    obtain ⟨hs, hdepths⟩ := spells_itemsText s depth inside levels w hw ws hws
    have helement := Spells.element (blanks_line s inside) h (List.forall_mem_nil _)
    refine ⟨?_, Nat.max_le.mpr ⟨hdepth, hdepths⟩⟩
    simpa [itemsText] using Spells.moreElements helement hs
termination_by vs => v.size + itemsSize vs + 1
decreasing_by
  · omega
  · omega
  · simp only [itemsSize]; omega

theorem spells_membersText (s : Spacing) (depth inside levels : Nat) (name : String) (v : Value)
    (hv : v.Readable levels) : ∀ ms, MembersReadable levels ms →
      Spells (.members ((name, v) :: ms))
        (s.line inside ++ (stringText name ++ (s.colon ++ (v.text s inside ++
          (membersText s inside ms ++ s.line depth))))) ∧
      membersDepth ((name, v) :: ms) ≤ levels
  | [], _ => by
    obtain ⟨h, hdepth⟩ := spells_text s inside levels v hv
    obtain ⟨blanks, hblanks, hcolon⟩ := exists_colon s
    have hmember := Spells.lastMember (nameText_stringText s inside name)
      (.element hblanks h (blanks_line s depth))
    refine ⟨?_, by simpa only [membersDepth, Nat.max_zero] using hdepth⟩
    simpa [membersText, hcolon] using hmember
  | (name', w) :: ms, ⟨hw, hms⟩ => by
    obtain ⟨h, hdepth⟩ := spells_text s inside levels v hv
    obtain ⟨hs, hdepths⟩ := spells_membersText s depth inside levels name' w hw ms hms
    obtain ⟨blanks, hblanks, hcolon⟩ := exists_colon s
    have hmembers := Spells.moreMembers (nameText_stringText s inside name)
      (.element hblanks h (List.forall_mem_nil _)) hs
    refine ⟨?_, Nat.max_le.mpr ⟨hdepth, hdepths⟩⟩
    simpa [membersText, hcolon] using hmembers
termination_by ms => v.size + membersSize ms + 1
decreasing_by
  · omega
  · omega
  · simp only [membersSize]; omega

end

/-- The text of a readable value, with blanks behind it, is read as that value. -/
theorem Value.ofText?_text (s : Spacing) {v : Value} (hv : v.Readable maxLevels)
    {rest : List Char} (hrest : skipBlanks rest = []) : ofText? (v.text s 0 ++ rest) = some v := by
  obtain ⟨h, hdepth⟩ := spells_text s 0 maxLevels v hv
  have helement := Spells.element (List.forall_mem_nil _) h (blanks_iff.mpr hrest)
  exact ofText?_eq_some_iff.mpr ⟨helement, hdepth⟩

/-! Embedded texts. -/

mutual

/-- No object in the value stands for an embedded text. -/
def Value.Literal : Value → Prop
  | .array items => ItemsLiteral items
  | .object members => (members.head?.map Prod.fst) ≠ some embeddedName ∧ MembersLiteral members
  | _ => True

def ItemsLiteral : List Value → Prop
  | [] => True
  | v :: vs => v.Literal ∧ ItemsLiteral vs

def MembersLiteral : List (String × Value) → Prop
  | [] => True
  | (_, v) :: ms => v.Literal ∧ MembersLiteral ms

end

mutual

theorem Value.expand?_literal : ∀ v : Value, v.Literal → v.expand? = some v
  | .null, _ => by rw [Value.expand?] <;> simp
  | .bool _, _ => by rw [Value.expand?] <;> simp
  | .number .., _ => by rw [Value.expand?] <;> simp
  | .string _, _ => by rw [Value.expand?] <;> simp
  | .array items, h => by
    rw [Value.expand?, expandItems?_literal items h]
    rfl
  | .object [], _ => by rw [Value.expand?]
  | .object ((name, v) :: ms), ⟨hname, h⟩ => by
    have hname : name ≠ embeddedName := by simpa using hname
    unfold Value.expand?
    rw [if_neg hname, expandMembers?_literal _ h]
    rfl

theorem expandItems?_literal : ∀ vs, ItemsLiteral vs → expandItems? vs = some vs
  | [], _ => by rw [expandItems?]
  | v :: vs, ⟨hv, hvs⟩ => by
    rw [expandItems?, Value.expand?_literal v hv, expandItems?_literal vs hvs]

theorem expandMembers?_literal : ∀ ms, MembersLiteral ms → expandMembers? ms = some ms
  | [], _ => by rw [expandMembers?]
  | (_, v) :: ms, ⟨hv, hms⟩ => by
    rw [expandMembers?, Value.expand?_literal v hv, expandMembers?_literal ms hms]

end

theorem fromUTF8?_toUTF8 (s : String) : String.fromUTF8? s.toUTF8 = some s := dif_pos s.isValidUTF8

/-- A readable value without embedded texts is what the bytes of its text stand for. -/
theorem Value.ofBytes?_text (s : Spacing) {v : Value} (hv : v.Readable maxLevels)
    (hliteral : v.Literal) : ofBytes? (String.ofList (v.text s 0)).toUTF8 = some v := by
  have htext := @ofText?_text s v hv [] rfl
  rw [List.append_nil] at htext
  rw [ofBytes?, fromUTF8?_toUTF8, Option.bind_some, String.toList_ofList, htext, Option.bind_some,
    expand?_literal v hliteral]

end Calculator.Json
