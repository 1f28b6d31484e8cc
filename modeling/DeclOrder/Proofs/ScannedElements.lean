import DeclOrder.Proofs.BlankRuns
import DeclOrder.Proofs.WrittenAttributes

/-!
# Elements that are scanned

A script element is an opening tag, which ends at the first `>`, a body, and the first closing tag
behind it.  A text is scanned for elements from left to right, on from the end of each element.  The
elements that are found are exactly those of the scan.
-/

namespace DeclOrder

/-! ## Words that are read -/

namespace Text

theorem exists_of_afterWord? {word text rest : Text} (found : afterWord? word text = some rest) :
    ∃ read, text = read ++ rest ∧ afterWord? word read = some [] := by
  fun_induction afterWord? word text with
  | case1 text =>
      cases found
      exact ⟨[], rfl, rfl⟩
  | case2 => cases found
  | case3 letter word c text same ih =>
      obtain ⟨read, rfl, reads⟩ := ih found
      exact ⟨c :: read, rfl, by rw [afterWord?, if_pos same, reads]⟩
  | case4 => cases found

/-- A word is read at the start of a text exactly when a part of the text reads as the word. -/
theorem afterWord?_eq_some_iff {word : String} {text rest : Text} :
    afterWord? word.toList text = some rest ↔
      ∃ read, read.reads word = true ∧ text = read ++ rest := by
  constructor
  · intro found
    obtain ⟨read, whole, reads⟩ := exists_of_afterWord? found
    exact ⟨read, decide_eq_true reads, whole⟩
  · rintro ⟨read, reads, rfl⟩
    exact afterWord?_of_reads reads rest

/-- A text is cut at the first occurrence of a character. -/
theorem cut_of_dropWhile_ne {sign c : Char} {text behind : Text}
    (ends : text.dropWhile (· ≠ sign) = c :: behind) :
    text = text.takeWhile (· ≠ sign) ++ sign :: behind := by
  have stops : c = sign := by
    have first := List.head?_dropWhile_not (· ≠ sign) text
    rw [ends] at first
    simpa using first
  rw [← stops, ← ends, stops, List.takeWhile_append_dropWhile]

/-- A cut of a text at a character that satisfies a condition. -/
theorem mem_behindEach_iff {p : Char → Bool} {text rest : Text} :
    rest ∈ behindEach p text ↔ ∃ before c, p c = true ∧ text = before ++ c :: rest := by
  induction text with
  | nil => simp [behindEach]
  | cons d text ih =>
      rw [behindEach]
      constructor
      · intro member
        have further : rest ∈ behindEach p text → ∃ before c, p c = true ∧
            d :: text = before ++ c :: rest := by
          intro later
          obtain ⟨before, c, pass, rfl⟩ := ih.mp later
          exact ⟨d :: before, c, pass, rfl⟩
        split at member
        · rename_i pass
          rcases List.mem_cons.mp member with rfl | later
          · exact ⟨[], d, pass, rfl⟩
          · exact further later
        · exact further member
      · rintro ⟨before, c, pass, whole⟩
        cases before with
        | nil =>
            cases whole
            rw [if_pos pass]
            exact List.mem_cons_self
        | cons e before =>
            have later := ih.mpr ⟨before, c, pass, (List.cons.inj whole).2⟩
            split
            · exact List.mem_cons_of_mem _ later
            · exact later

end Text

namespace Component

/-! ## Elements -/

/-- A closing tag: `</script` in capital or small letters, blanks, and `>`. -/
def ClosingTag (tag : Text) : Prop :=
  ∃ word blanks : Text, word.reads "</script" = true ∧ blanks.Blank ∧ tag = word ++ (blanks ++ ['>'])

/-- A text at an offset starts with a script element: an opening tag that ends at its first `>`, and
a body that ends at the first closing tag. -/
structure ElementAt (offset : Nat) (text opening : Text) (element : Element)
    (closing behind : Text) : Prop where
  whole : text = opening ++ (element.attributes ++ '>' :: (element.body ++ (closing ++ behind)))
  opens : opening.reads "<script" = true
  boundary : ∀ c ∈ element.attributes.head?, isWord c = false
  attributes : '>' ∉ element.attributes
  closes : ClosingTag closing
  first : ∀ place < element.body.length, ∀ tag rest, ClosingTag tag →
    (element.body ++ (closing ++ behind)).drop place ≠ tag ++ rest
  start : element.start = offset + (opening.length + element.attributes.length + 1)

/-- A text at an offset starts with an element, up to what is behind it. -/
def StartsElement (offset : Nat) (text : Text) (element : Element) (behind : Text) : Prop :=
  ∃ opening closing, ElementAt offset text opening element closing behind

/-- The elements of a text at an offset, scanned from left to right: none starts in what is skipped
before an element, and the scan goes on behind it. -/
inductive Scans : Nat → Text → List Element → Prop where
  | done {offset : Nat} {text : Text}
      (none : ∀ place element behind, ¬StartsElement (offset + place) (text.drop place) element behind) :
      Scans offset text []
  | next {offset : Nat} {skipped text behind : Text} {element : Element} {rest : List Element}
      (none : ∀ place < skipped.length, ∀ element behind,
        ¬StartsElement (offset + place) ((skipped ++ text).drop place) element behind)
      (starts : StartsElement (offset + skipped.length) text element behind)
      (later : Scans (offset + skipped.length + (text.length - behind.length)) behind rest) :
      Scans offset (skipped ++ text) (element :: rest)

theorem afterClosingTag?_eq_some_iff {text behind : Text} :
    afterClosingTag? text = some behind ↔ ∃ tag, ClosingTag tag ∧ text = tag ++ behind := by
  constructor
  · intro found
    rw [afterClosingTag?] at found
    split at found
    · rename_i rest result
      obtain ⟨inner, word, blanks⟩ := Option.map_eq_some_iff.mp result
      obtain ⟨read, reads, rfl⟩ := Text.afterWord?_eq_some_iff.mp word
      cases found
      refine ⟨_, ⟨read, inner.takeWhile isBlank, reads, Text.blank_takeWhile inner, rfl⟩, ?_⟩
      conv_lhs => rw [← List.takeWhile_append_dropWhile (p := isBlank) (l := inner), blanks]
      simp
    · cases found
  · rintro ⟨_, ⟨word, blanks, reads, blank, rfl⟩, rfl⟩
    rw [List.append_assoc, List.append_assoc, afterClosingTag?, Text.afterWord?_of_reads reads,
      Option.map_some, List.dropWhile_append_of_pos blank]
    rfl

theorem ClosingTag.ne_nil {tag : Text} (closes : ClosingTag tag) : tag ≠ [] := by
  obtain ⟨word, blanks, _, _, rfl⟩ := closes
  simp

/-- A body reaches up to the first closing tag. -/
theorem splitAtClosingTag?_eq_some_iff {text body behind : Text} :
    splitAtClosingTag? text = some (body, behind) ↔
      ∃ closing, ClosingTag closing ∧ text = body ++ (closing ++ behind) ∧
        ∀ place < body.length, ∀ tag rest, ClosingTag tag → text.drop place ≠ tag ++ rest := by
  induction text generalizing body with
  | nil =>
      constructor
      · intro found
        cases found
      · rintro ⟨closing, closes, whole, _⟩
        have none := (List.append_eq_nil_iff.mp whole.symm).2
        exact absurd (List.append_eq_nil_iff.mp none).1 closes.ne_nil
  | cons c text ih =>
      rw [splitAtClosingTag?]
      -- A closing tag ends the body here, or no body ends here at all.
      cases here : afterClosingTag? (c :: text) with
      | some after =>
          obtain ⟨tag, closes, whole⟩ := afterClosingTag?_eq_some_iff.mp here
          constructor
          · intro found
            cases found
            exact ⟨tag, closes, whole, fun place inside => absurd inside (Nat.not_lt_zero _)⟩
          · rintro ⟨closing, closing', cut, first⟩
            cases body with
            | nil =>
                have same := afterClosingTag?_eq_some_iff.mpr ⟨closing, closing', cut⟩
                cases here.symm.trans same
                rfl
            | cons d body => exact absurd whole (first 0 (Nat.zero_lt_succ _) tag after closes)
      | none =>
          have unclosed : ∀ tag rest, ClosingTag tag → c :: text ≠ tag ++ rest := by
            intro tag rest closes whole
            cases here.symm.trans (afterClosingTag?_eq_some_iff.mpr ⟨tag, closes, whole⟩)
          constructor
          · intro found
            obtain ⟨⟨inner, after⟩, split, same⟩ := Option.map_eq_some_iff.mp found
            cases same
            obtain ⟨closing, closes, whole, first⟩ := ih.mp split
            refine ⟨closing, closes, by rw [whole]; rfl, fun place inside => ?_⟩
            cases place with
            | zero => exact unclosed
            | succ place => exact first place (Nat.lt_of_succ_lt_succ inside)
          · rintro ⟨closing, closes, cut, first⟩
            cases body with
            | nil => exact absurd cut (unclosed closing behind closes)
            | cons d body =>
                obtain ⟨rfl, rest⟩ := List.cons.inj cut
                have split := ih.mpr ⟨closing, closes, rest, fun place inside =>
                  first (place + 1) (Nat.succ_lt_succ inside)⟩
                exact Option.map_eq_some_iff.mpr ⟨_, split, rfl⟩

/-- An opening tag reaches up to its first `>`. -/
theorem openingTag?_eq_some_iff {text attributes behind : Text} :
    openingTag? text = some (attributes, behind) ↔
      ∃ opening : Text, opening.reads "<script" = true ∧
        (∀ c ∈ attributes.head?, isWord c = false) ∧ '>' ∉ attributes ∧
        text = opening ++ (attributes ++ '>' :: behind) := by
  constructor
  · intro found
    rw [openingTag?] at found
    split at found
    · cases found
    · rename_i rest word
      obtain ⟨opening, opens, rfl⟩ := Text.afterWord?_eq_some_iff.mp word
      split at found
      · cases found
      · rename_i boundary
        split at found
        · cases found
        · rename_i sign after ends
          cases found
          have whole := Text.cut_of_dropWhile_ne ends
          refine ⟨opening, opens, fun c head => ?_, fun member => ?_, by rw [← whole]⟩
          · have front : rest.head? = some c := by
              rw [whole]
              exact List.mem_head?_append_of_mem_head? head
            rw [front] at boundary
            simpa using boundary
          · simpa using List.mem_takeWhile_imp member
  · rintro ⟨opening, opens, boundary, absent, rfl⟩
    have passes : ∀ c ∈ attributes, decide (c ≠ '>') = true := fun c member =>
      decide_eq_true fun same => absent (same ▸ member)
    have sign : isWord '>' = false := by decide +kernel
    have start : (((attributes ++ '>' :: behind).head?.map isWord).getD false) = false := by
      cases attributes with
      | nil => rw [List.nil_append, List.head?_cons, Option.map_some, Option.getD_some, sign]
      | cons c attributes => exact boundary c rfl
    simp only [openingTag?, Text.afterWord?_of_reads opens, start, Bool.false_eq_true, if_false,
      List.dropWhile_append_of_pos passes, List.takeWhile_append_of_pos passes]
    simp

/-- An element is read at the start of a text exactly when the text starts with it. -/
theorem elementAt?_eq_some_iff {offset : Nat} {text behind : Text} {element : Element} :
    elementAt? offset text = some (element, behind) ↔
      StartsElement offset text element behind := by
  constructor
  · intro found
    obtain ⟨⟨attributes, inner⟩, opened, found⟩ := Option.bind_eq_some_iff.mp found
    obtain ⟨⟨body, after⟩, closed, found⟩ := Option.bind_eq_some_iff.mp found
    obtain ⟨opening, opens, boundary, absent, rfl⟩ := openingTag?_eq_some_iff.mp opened
    obtain ⟨closing, closes, rfl, first⟩ := splitAtClosingTag?_eq_some_iff.mp closed
    cases found
    refine ⟨opening, closing, rfl, opens, boundary, absent, closes, first, ?_⟩
    simp only [List.length_append, List.length_cons]
    omega
  · rintro ⟨opening, closing, rfl, opens, boundary, absent, closes, first, start⟩
    obtain ⟨attributes, place, body⟩ := element
    dsimp only at start boundary absent first
    subst start
    have opened : openingTag? (opening ++ (attributes ++ '>' :: (body ++ (closing ++ behind)))) =
        some (attributes, body ++ (closing ++ behind)) :=
      openingTag?_eq_some_iff.mpr ⟨opening, opens, boundary, absent, rfl⟩
    have closed : splitAtClosingTag? (body ++ (closing ++ behind)) = some (body, behind) :=
      splitAtClosingTag?_eq_some_iff.mpr ⟨closing, closes, rfl, first⟩
    have length : (opening ++ (attributes ++ '>' :: (body ++ (closing ++ behind)))).length -
        (body ++ (closing ++ behind)).length = opening.length + attributes.length + 1 := by
      simp only [List.length_append, List.length_cons]
      omega
    simp only [elementAt?, opened, closed, Option.bind_eq_bind, Option.bind_some, length]
    rfl

/-! ## Scans -/

theorem elementsFrom_cons {offset : Nat} {c : Char} {rest : Text}
    (none : elementAt? offset (c :: rest) = none) :
    elementsFrom offset (c :: rest) = elementsFrom (offset + 1) rest := by
  rw [elementsFrom]
  split
  · rename_i some
    cases none.symm.trans some
  · rfl

theorem elementsFrom_of_element {offset : Nat} {text behind : Text} {element : Element}
    (found : elementAt? offset text = some (element, behind)) :
    elementsFrom offset text =
      element :: elementsFrom (offset + (text.length - behind.length)) behind := by
  cases text with
  | nil => exact absurd (length_of_elementAt? found) (Nat.not_lt_zero _)
  | cons c rest =>
      rw [elementsFrom]
      split
      · rename_i other after same
        cases found.symm.trans same
        rfl
      · rename_i none
        cases found.symm.trans none

theorem StartsElement.suffix {offset : Nat} {text behind : Text} {element : Element}
    (starts : StartsElement offset text element behind) : behind <:+ text := by
  obtain ⟨opening, closing, placed⟩ := starts
  refine ⟨opening ++ (element.attributes ++ '>' :: (element.body ++ closing)), ?_⟩
  rw [placed.whole]
  simp

/-- Where no element starts, the search goes on. -/
theorem elementsFrom_skip {offset : Nat} {skipped text : Text}
    (none : ∀ place < skipped.length, ∀ element behind,
      ¬StartsElement (offset + place) ((skipped ++ text).drop place) element behind) :
    elementsFrom offset (skipped ++ text) = elementsFrom (offset + skipped.length) text := by
  induction skipped generalizing offset with
  | nil => rfl
  | cons c skipped ih =>
      have here : elementAt? offset (c :: (skipped ++ text)) = .none := by
        cases found : elementAt? offset (c :: (skipped ++ text)) with
        | none => rfl
        | some pair =>
            exact absurd (elementAt?_eq_some_iff.mp found)
              (none 0 (Nat.zero_lt_succ _) pair.1 pair.2)
      rw [List.cons_append, elementsFrom_cons here, ih fun place inside element behind => ?_,
        List.length_cons, Nat.add_right_comm, Nat.add_assoc]
      have later := none (place + 1) (Nat.succ_lt_succ inside) element behind
      rw [show offset + (place + 1) = offset + 1 + place by omega] at later
      exact later

theorem Scans.eq_elementsFrom {offset : Nat} {text : Text} {list : List Element}
    (scans : Scans offset text list) : list = elementsFrom offset text := by
  induction scans with
  | @done offset text none =>
      have skipped : elementsFrom offset (text ++ []) = elementsFrom (offset + text.length) [] :=
        elementsFrom_skip fun place _ => by simpa using none place
      rw [List.append_nil, elementsFrom] at skipped
      exact skipped.symm
  | next none starts later ih =>
      rw [elementsFrom_skip none, elementsFrom_of_element (elementAt?_eq_some_iff.mpr starts), ih]

theorem Scans.cons {offset : Nat} {c : Char} {rest : Text} {list : List Element}
    (none : ∀ element behind, ¬StartsElement offset (c :: rest) element behind)
    (scans : Scans (offset + 1) rest list) : Scans offset (c :: rest) list := by
  cases scans with
  | done none' =>
      refine .done fun place => ?_
      cases place with
      | zero => exact none
      | succ place =>
          rw [show offset + (place + 1) = offset + 1 + place by omega]
          exact none' place
  | @next _ skipped text behind _ _ none' starts later =>
      have length : offset + 1 + skipped.length = offset + (c :: skipped).length := by
        rw [List.length_cons]
        omega
      rw [length] at starts later
      rw [← List.cons_append]
      refine .next (fun place inside => ?_) starts later
      cases place with
      | zero => exact none
      | succ place =>
          rw [show offset + (place + 1) = offset + 1 + place by omega]
          exact none' place (Nat.lt_of_succ_lt_succ inside)

theorem not_startsElement {offset : Nat} {text : Text} (none : elementAt? offset text = none)
    (element : Element) (behind : Text) : ¬StartsElement offset text element behind := by
  intro starts
  cases none.symm.trans (elementAt?_eq_some_iff.mpr starts)

theorem scans_elementsFrom (offset : Nat) (text : Text) :
    Scans offset text (elementsFrom offset text) := by
  induction text using WellFounded.induction (measure List.length).wf generalizing offset with
  | h text ih =>
      cases found : elementAt? offset text with
      | some pair =>
          have shorter : pair.2.length < text.length := length_of_elementAt? found
          have starts : StartsElement (offset + ([] : Text).length) text pair.1 pair.2 :=
            elementAt?_eq_some_iff.mp found
          rw [elementsFrom_of_element found]
          exact .next (fun place inside => absurd inside (Nat.not_lt_zero _)) starts
            (ih pair.2 shorter _)
      | none =>
          have unstarted := not_startsElement found
          cases text with
          | nil =>
              -- An element takes up characters, so none starts in an empty text.
              rw [elementsFrom]
              refine .done fun place element behind starts => ?_
              rw [List.drop_nil] at starts
              obtain ⟨opening, _, element⟩ := starts
              have whole := congrArg List.length element.whole
              simp at whole
          | cons c rest =>
              rw [elementsFrom_cons found]
              exact .cons unstarted (ih rest (Nat.lt_succ_self _) _)

/-- The elements that are found are exactly those of the scan. -/
theorem scans_iff {offset : Nat} {text : Text} {list : List Element} :
    Scans offset text list ↔ list = elementsFrom offset text :=
  ⟨Scans.eq_elementsFrom, fun same => same ▸ scans_elementsFrom offset text⟩

/-- Each element of a scan starts somewhere in the text. -/
theorem Scans.exists_of_mem {offset : Nat} {text : Text} {list : List Element}
    (scans : Scans offset text list) : ∀ element ∈ list, ∃ before inner behind,
      text = before ++ inner ∧ StartsElement (offset + before.length) inner element behind := by
  induction scans with
  | done none =>
      intro element member
      cases member
  | @next offset skipped text behind first rest none starts later ih =>
      intro element member
      rcases List.mem_cons.mp member with rfl | further
      · exact ⟨skipped, text, behind, rfl, starts⟩
      · obtain ⟨before, inner, after, rfl, found⟩ := ih element further
        obtain ⟨front, rfl⟩ := starts.suffix
        refine ⟨skipped ++ (front ++ before), inner, after, by simp, ?_⟩
        rw [List.length_append, Nat.add_sub_cancel, Nat.add_assoc, Nat.add_assoc] at found
        rwa [List.length_append, List.length_append]

end Component

end DeclOrder
