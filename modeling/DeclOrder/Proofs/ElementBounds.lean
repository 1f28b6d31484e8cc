import DeclOrder.Component

/-!
# Where script elements stand

Comments are masked character by character, so a masked document is as long as the document and
places in the one are places in the other.  The body of every script element lies inside the
document, and so does the script of a component.
-/

namespace DeclOrder.Component

@[simp] theorem maskComments_nil : maskComments [] = [] := by
  rw [maskComments]

theorem maskComments_of_comment {text behind : Text} (found : afterComment? text = some behind) :
    maskComments text =
      List.replicate (text.length - behind.length) ' ' ++ maskComments behind := by
  cases text with
  | nil =>
      have := length_of_afterComment? found
      simp at this
  | cons c rest =>
      rw [maskComments]
      split
      · rename_i other same
        cases found.symm.trans same
        rfl
      · rename_i none
        cases found.symm.trans none

theorem maskComments_cons {c : Char} {rest : Text} (none : afterComment? (c :: rest) = none) :
    maskComments (c :: rest) = c :: maskComments rest := by
  rw [maskComments]
  split
  · rename_i some
    cases none.symm.trans some
  · rfl

/-- Induction along the comments that masking visits. -/
theorem maskComments_induction {motive : Text → Prop} (nil : motive [])
    (comment : ∀ text behind, afterComment? text = some behind → motive behind → motive text)
    (other : ∀ c rest, afterComment? (c :: rest) = none → motive rest → motive (c :: rest))
    (text : Text) : motive text := by
  induction text using WellFounded.induction (measure List.length).wf with
  | h text ih =>
      cases text with
      | nil => exact nil
      | cons c rest =>
          cases found : afterComment? (c :: rest) with
          | some behind => exact comment _ _ found (ih behind (length_of_afterComment? found))
          | none => exact other c rest found (ih rest (Nat.lt_succ_self _))

/-- Masking comments keeps the length of a document. -/
@[simp] theorem length_maskComments (text : Text) : (maskComments text).length = text.length := by
  induction text using maskComments_induction with
  | nil => rw [maskComments_nil]
  | comment text behind found ih =>
      have shorter := length_of_afterComment? found
      rw [maskComments_of_comment found, List.length_append, List.length_replicate, ih]
      omega
  | other c rest none ih => rw [maskComments_cons none, List.length_cons, ih, List.length_cons]

/-! ## Bounds of elements -/

theorem length_body_of_splitAtClosingTag? {text body rest : Text}
    (found : splitAtClosingTag? text = some (body, rest)) : body.length ≤ text.length := by
  induction text generalizing body with
  | nil => cases found
  | cons c text ih =>
      simp only [splitAtClosingTag?] at found
      split at found
      · cases found
        exact Nat.zero_le _
      · obtain ⟨⟨inner, behind⟩, split, same⟩ := Option.map_eq_some_iff.mp found
        cases same
        exact Nat.succ_le_succ (ih split)

theorem bounds_of_elementAt? {offset : Nat} {text rest : Text} {element : Element}
    (found : elementAt? offset text = some (element, rest)) :
    offset ≤ element.start ∧ element.start + element.body.length ≤ offset + text.length := by
  obtain ⟨⟨attributes, inner⟩, opened, found⟩ := Option.bind_eq_some_iff.mp found
  obtain ⟨⟨body, behind⟩, closed, found⟩ := Option.bind_eq_some_iff.mp found
  have shorter := length_of_openingTag? opened
  have inside := length_body_of_splitAtClosingTag? closed
  cases found
  dsimp only
  omega

theorem bounds_of_mem_elementsFrom {offset : Nat} {text : Text} {element : Element}
    (member : element ∈ elementsFrom offset text) :
    offset ≤ element.start ∧ element.start + element.body.length ≤ offset + text.length := by
  induction text using WellFounded.induction (measure List.length).wf generalizing offset with
  | h text ih =>
      cases text with
      | nil =>
          rw [elementsFrom] at member
          cases member
      | cons c rest =>
          rw [elementsFrom] at member
          split at member
          · rename_i first behind found
            have shorter := length_of_elementAt? found
            rcases List.mem_cons.mp member with rfl | later
            · exact bounds_of_elementAt? found
            · have bounds := ih behind shorter later
              omega
          · have bounds := ih rest (Nat.lt_succ_self _) member
            rw [List.length_cons]
            omega

/-- The script of a component stands inside the document. -/
theorem bounds_of_setup? {document : Text} {setup : Setup} (found : setup? document = some setup) :
    setup.start ≤ setup.stop ∧ setup.stop ≤ document.length := by
  obtain ⟨element, first, rfl⟩ := Option.map_eq_some_iff.mp found
  have bounds := bounds_of_mem_elementsFrom (List.mem_of_find?_eq_some first)
  rw [length_maskComments] at bounds
  dsimp only
  omega

end DeclOrder.Component
