import DeclOrder.Proofs.Occurrences

/-!
# Where comments stand

A comment reaches from `<!--` to the next `-->`.  Comments are taken from left to right, so one that
starts inside another one is no comment of its own, and one that is never closed is none at all.  A
masked document has blanks at the places of its comments and is the document everywhere else;
whatever is read there without blanks stands in the document, outside all comments.
-/

namespace DeclOrder.Component

/-- What lies between two offsets of a document. -/
structure Region where
  start : Nat
  stop : Nat
  deriving DecidableEq, Repr

namespace Region

/-- A place lies in a region. -/
def Has (region : Region) (place : Nat) : Prop :=
  region.start ≤ place ∧ place < region.stop

instance (region : Region) (place : Nat) : Decidable (region.Has place) :=
  inferInstanceAs (Decidable (_ ∧ _))

/-- A region, moved to the right. -/
def shift (distance : Nat) (region : Region) : Region :=
  ⟨region.start + distance, region.stop + distance⟩

end Region

/-- A text starts with a comment: with what stands from `<!--` to the next `-->`. -/
def StartsComment (text behind : Text) : Prop :=
  ∃ inner, text = "<!--".toList ++ (inner ++ ("-->".toList ++ behind)) ∧
    ∀ front rest, inner ++ "-->".toList = front ++ ("-->".toList ++ rest) → rest = []

/-- The regions of a document that are comments, taken from left to right. -/
structure CommentsAt (document : Text) (regions : List Region) : Prop where
  closed : ∀ region ∈ regions, ∃ behind, StartsComment (document.drop region.start) behind ∧
    region.stop + behind.length = document.length
  apart : regions.Pairwise fun a b => a.stop ≤ b.start
  complete : ∀ place behind, StartsComment (document.drop place) behind →
    ∃ region ∈ regions, region.Has place

/-- The comments of a document. -/
def comments : Text → List Region
  | [] => []
  | c :: rest =>
    match found : afterComment? (c :: rest) with
    | some behind =>
      have := length_of_afterComment? found
      let length := (c :: rest).length - behind.length
      ⟨0, length⟩ :: (comments behind).map (Region.shift length)
    | none => (comments rest).map (Region.shift 1)
  termination_by text => text.length
  decreasing_by
    · assumption
    · simp

/-- A place of a document lies in a comment. -/
def InComment (document : Text) (place : Nat) : Prop :=
  ∃ region ∈ comments document, region.Has place

instance (document : Text) (place : Nat) : Decidable (InComment document place) :=
  inferInstanceAs (Decidable (∃ region ∈ comments document, region.Has place))

/-! ## Comments that are found -/

theorem behindFirst?_of_after? {sought text behind : Text}
    (found : Text.after? sought text = some behind) : behindFirst? sought text = some behind := by
  cases text with
  | nil => exact found
  | cons c rest => rw [behindFirst?, found]

theorem isSome_behindFirst? (sought inner behind : Text) :
    (behindFirst? sought (inner ++ (sought ++ behind))).isSome = true := by
  induction inner with
  | nil =>
      have found : Text.after? sought (sought ++ behind) = some behind := by
        rw [Text.after?, if_pos (List.isPrefixOf_iff_prefix.mpr (List.prefix_append _ _)),
          List.drop_left]
      rw [List.nil_append, behindFirst?_of_after? found]
      rfl
  | cons c inner ih =>
      rw [List.cons_append, behindFirst?]
      split
      · rfl
      · exact ih

/-- What follows the first occurrence of a text, as a cut at that occurrence. -/
theorem cut_of_behindFirst? {sought text behind : Text}
    (found : behindFirst? sought text = some behind) :
    ∃ inner, text = inner ++ (sought ++ behind) ∧
      ∀ front rest, inner ++ sought = front ++ (sought ++ rest) → rest = [] := by
  have only : ∀ front rest : Text, [] ++ sought = front ++ (sought ++ rest) → rest = [] := by
    intro front rest same
    have lengths := congrArg List.length same
    simp only [List.nil_append, List.length_append] at lengths
    exact List.eq_nil_of_length_eq_zero (by omega)
  induction text with
  | nil =>
      have whole : [] = sought ++ behind := Text.eq_append_of_after? found
      exact ⟨[], whole, only⟩
  | cons c text ih =>
      rw [behindFirst?] at found
      split at found
      · rename_i after here
        cases found
        have whole : c :: text = sought ++ behind := Text.eq_append_of_after? here
        exact ⟨[], whole, only⟩
      · rename_i none
        obtain ⟨inner, rfl, first⟩ := ih found
        refine ⟨c :: inner, rfl, fun front rest same => ?_⟩
        cases front with
        | nil =>
            -- The text would start with an occurrence.
            have starts : sought <+: c :: (inner ++ (sought ++ behind)) := by
              rw [← List.append_assoc, ← List.cons_append, ← List.cons_append, same]
              exact ⟨rest ++ behind, by simp⟩
            rw [Text.after?, if_pos (List.isPrefixOf_iff_prefix.mpr starts)] at none
            cases none
        | cons d front => exact first front rest (List.cons.inj same).2

theorem startsComment_of_afterComment? {text behind : Text}
    (found : afterComment? text = some behind) : StartsComment text behind := by
  obtain ⟨inside, opened, closed⟩ := Option.bind_eq_some_iff.mp found
  obtain ⟨inner, rfl, first⟩ := cut_of_behindFirst? closed
  exact ⟨inner, Text.eq_append_of_after? opened, first⟩

theorem not_startsComment {text : Text} (none : afterComment? text = none) (behind : Text) :
    ¬StartsComment text behind := by
  rintro ⟨inner, rfl, _⟩
  have opened : Text.after? "<!--".toList
      ("<!--".toList ++ (inner ++ ("-->".toList ++ behind))) =
        some (inner ++ ("-->".toList ++ behind)) := rfl
  have closed := isSome_behindFirst? "-->".toList inner behind
  rw [afterComment?, opened, Option.bind_some] at none
  rw [none] at closed
  cases closed

theorem not_startsComment_nil (behind : Text) : ¬StartsComment [] behind := by
  rintro ⟨inner, same, _⟩
  cases same

/-- A text starts with at most one comment. -/
theorem StartsComment.unique {text first second : Text} (one : StartsComment text first)
    (other : StartsComment text second) : first = second := by
  obtain ⟨inner, rfl, closed⟩ := one
  obtain ⟨inner', same, closed'⟩ := other
  have same := List.append_cancel_left same
  rw [← List.append_assoc, ← List.append_assoc] at same
  rcases List.append_eq_append_iff.mp same with ⟨more, longer, rfl⟩ | ⟨more, longer, rfl⟩
  · rw [closed' inner more (by rw [longer, List.append_assoc]), List.nil_append]
  · rw [closed inner' more (by rw [longer, List.append_assoc]), List.nil_append]

theorem StartsComment.length_lt {text behind : Text} (starts : StartsComment text behind) :
    behind.length < text.length := by
  obtain ⟨inner, rfl, _⟩ := starts
  simp only [List.length_append]
  have : "<!--".toList.length = 4 := rfl
  omega

/-! ## The places of comments -/

@[simp] theorem comments_nil : comments [] = [] := by
  rw [comments]

theorem comments_of_comment {front behind : Text}
    (found : afterComment? (front ++ behind) = some behind) :
    comments (front ++ behind) =
      ⟨0, front.length⟩ :: (comments behind).map (Region.shift front.length) := by
  have shorter := length_of_afterComment? found
  have length : (front ++ behind).length - behind.length = front.length := by
    rw [List.length_append, Nat.add_sub_cancel]
  generalize front ++ behind = text at found shorter length
  cases text with
  | nil => cases shorter
  | cons c rest =>
      rw [comments]
      split
      · rename_i other same
        cases found.symm.trans same
        rw [length]
      · rename_i none
        cases found.symm.trans none

theorem comments_cons {c : Char} {rest : Text} (none : afterComment? (c :: rest) = none) :
    comments (c :: rest) = (comments rest).map (Region.shift 1) := by
  rw [comments]
  split
  · rename_i some
    cases none.symm.trans some
  · rfl

theorem has_shift {distance : Nat} {region : Region} {place : Nat} :
    (region.shift distance).Has (distance + place) ↔ region.Has place := by
  simp only [Region.Has, Region.shift]
  omega

theorem exists_has_shift {distance : Nat} {regions : List Region} {place : Nat} :
    (∃ region ∈ regions.map (Region.shift distance), region.Has (distance + place)) ↔
      ∃ region ∈ regions, region.Has place := by
  simp only [List.mem_map, exists_exists_and_eq_and, has_shift]

theorem not_has_shift {distance : Nat} {regions : List Region} {place : Nat}
    (before : place < distance) :
    ¬∃ region ∈ regions.map (Region.shift distance), region.Has place := by
  rintro ⟨region, member, above, below⟩
  obtain ⟨origin, _, rfl⟩ := List.mem_map.mp member
  simp only [Region.shift] at above
  omega

/-- Moving comments to the right, with the text that they are comments of. -/
theorem CommentsAt.closed_shift {document : Text} {regions : List Region}
    (placed : CommentsAt document regions) (front : Text) :
    ∀ region ∈ regions.map (Region.shift front.length), ∃ behind,
      StartsComment ((front ++ document).drop region.start) behind ∧
        region.stop + behind.length = (front ++ document).length := by
  intro region member
  obtain ⟨origin, found, rfl⟩ := List.mem_map.mp member
  obtain ⟨behind, starts, stops⟩ := placed.closed origin found
  refine ⟨behind, ?_, ?_⟩
  · rw [Region.shift, Nat.add_comm, List.drop_length_add_append]
    exact starts
  · show origin.stop + front.length + behind.length = (front ++ document).length
    rw [List.length_append]
    omega

theorem CommentsAt.apart_shift {document : Text} {regions : List Region}
    (placed : CommentsAt document regions) (distance : Nat) :
    (regions.map (Region.shift distance)).Pairwise fun a b => a.stop ≤ b.start := by
  rw [List.pairwise_map]
  exact placed.apart.imp fun before => Nat.add_le_add_right before distance

/-- The comments that are found are all comments of a document. -/
theorem commentsAt_comments (document : Text) : CommentsAt document (comments document) := by
  induction document using maskComments_induction with
  | nil =>
      rw [comments_nil]
      refine ⟨by simp, .nil, fun place behind starts => ?_⟩
      rw [List.drop_nil] at starts
      exact absurd starts (not_startsComment_nil behind)
  | comment text behind found placed =>
      obtain ⟨front, rfl⟩ := suffix_of_afterComment? found
      rw [comments_of_comment found]
      refine ⟨?_, ?_, ?_⟩
      · intro region member
        rcases List.mem_cons.mp member with rfl | later
        · exact ⟨behind, startsComment_of_afterComment? found, List.length_append.symm⟩
        · exact placed.closed_shift front region later
      · refine List.pairwise_cons.mpr ⟨fun region member => ?_, placed.apart_shift _⟩
        obtain ⟨origin, _, rfl⟩ := List.mem_map.mp member
        exact Nat.le_add_left _ _
      · intro place after starts
        by_cases inside : place < front.length
        · exact ⟨_, List.mem_cons_self, Nat.zero_le _, inside⟩
        · obtain ⟨further, rfl⟩ := Nat.exists_eq_add_of_le (Nat.le_of_not_lt inside)
          rw [List.drop_length_add_append] at starts
          obtain ⟨region, member, has⟩ :=
            exists_has_shift.mpr (placed.complete further after starts)
          exact ⟨region, List.mem_cons_of_mem _ member, has⟩
  | other c rest none placed =>
      rw [comments_cons none]
      refine ⟨placed.closed_shift [c], placed.apart_shift 1, ?_⟩
      intro place after starts
      cases place with
      | zero => exact absurd starts (not_startsComment none after)
      | succ place =>
          rw [Nat.add_comm]
          exact exists_has_shift.mpr (placed.complete place after starts)

/-! ## One list of comments -/

theorem CommentsAt.forward {document : Text} {regions : List Region}
    (placed : CommentsAt document regions) :
    ∀ region ∈ regions, region.start < region.stop := by
  intro region member
  obtain ⟨behind, starts, stops⟩ := placed.closed region member
  have shorter := starts.length_lt
  rw [List.length_drop] at shorter
  omega

theorem CommentsAt.mem_of_mem {document : Text} {regions others : List Region}
    (placed : CommentsAt document regions) (other : CommentsAt document others) {region : Region}
    (member : region ∈ regions) : region ∈ others := by
  -- Comments that start earlier are in both lists, so none of them reaches over this start.
  induction start : region.start using Nat.strong_induction_on
    generalizing region regions others with
  | h place ih =>
      subst start
      obtain ⟨behind, starts, stops⟩ := placed.closed region member
      obtain ⟨found, inOthers, above, below⟩ := other.complete region.start behind starts
      rcases Nat.lt_or_eq_of_le above with earlier | same
      · have inRegions := ih found.start earlier other placed inOthers rfl
        have separate : regions.Pairwise fun a b => a.stop ≤ b.start ∨ b.stop ≤ a.start :=
          placed.apart.imp Or.inl
        have symmetric : Std.Symm fun a b : Region => a.stop ≤ b.start ∨ b.stop ≤ a.start :=
          ⟨fun _ _ => Or.symm⟩
        have different : found ≠ region := fun equal => absurd earlier (equal ▸ Nat.lt_irrefl _)
        have forward := placed.forward region member
        rcases separate.forall inRegions member different with before | behind <;> omega
      · obtain ⟨after, starts', stops'⟩ := other.closed found inOthers
        rw [same] at starts'
        have stop : found.stop = region.stop := by
          rw [starts'.unique starts] at stops'
          omega
        have equal : found = region := by
          cases found
          cases region
          rw [Region.mk.injEq]
          exact ⟨same, stop⟩
        exact equal ▸ inOthers

/-- The comments of a document are the only ones. -/
theorem commentsAt_iff {document : Text} {regions : List Region} :
    CommentsAt document regions ↔ regions = comments document := by
  constructor
  · intro placed
    have found := commentsAt_comments document
    have ascends : ∀ {list : List Region}, CommentsAt document list →
        list.Pairwise fun a b => a.start < b.start := by
      intro list placed
      refine placed.apart.imp_of_mem fun aMember _ before => ?_
      exact Nat.lt_of_lt_of_le (placed.forward _ aMember) before
    have irreflexive : Std.Irrefl fun a b : Region => a.start < b.start :=
      ⟨fun _ => Nat.lt_irrefl _⟩
    have antisymmetric : Std.Antisymm fun a b : Region => a.start < b.start :=
      ⟨fun _ _ forth back => absurd (Nat.lt_trans forth back) (Nat.lt_irrefl _)⟩
    exact (ascends placed).eq_of_mem_iff (ascends found) fun region =>
      ⟨placed.mem_of_mem found, found.mem_of_mem placed⟩
  · rintro rfl
    exact commentsAt_comments document

/-! ## Masked documents -/

theorem inComment_of_comment {front behind : Text}
    (found : afterComment? (front ++ behind) = some behind) {place : Nat}
    (inside : place < front.length) : InComment (front ++ behind) place := by
  rw [InComment, comments_of_comment found]
  exact ⟨_, List.mem_cons_self, Nat.zero_le _, inside⟩

theorem inComment_behind_comment {front behind : Text}
    (found : afterComment? (front ++ behind) = some behind) (place : Nat) :
    InComment (front ++ behind) (front.length + place) ↔ InComment behind place := by
  rw [InComment, comments_of_comment found, List.exists_mem_cons_iff, exists_has_shift]
  simp [Region.Has, InComment]

theorem not_inComment_zero {c : Char} {rest : Text} (none : afterComment? (c :: rest) = none) :
    ¬InComment (c :: rest) 0 := by
  rw [InComment, comments_cons none]
  exact not_has_shift Nat.zero_lt_one

theorem inComment_succ {c : Char} {rest : Text} (none : afterComment? (c :: rest) = none)
    (place : Nat) : InComment (c :: rest) (place + 1) ↔ InComment rest place := by
  rw [InComment, comments_cons none, Nat.add_comm, exists_has_shift, InComment]

/-- A masked document has blanks in its comments and is the document outside of them. -/
theorem getElem?_maskComments (document : Text) (place : Nat) :
    (maskComments document)[place]? =
      if InComment document place then document[place]?.map fun _ => ' ' else document[place]? := by
  induction document using maskComments_induction generalizing place with
  | nil => simp
  | comment text behind found ih =>
      obtain ⟨front, rfl⟩ := suffix_of_afterComment? found
      rw [maskComments_of_comment found, List.length_append, Nat.add_sub_cancel]
      by_cases inside : place < front.length
      · rw [if_pos (inComment_of_comment found inside),
          List.getElem?_append_left (by simpa using inside), List.getElem?_append_left inside,
          List.getElem?_replicate_of_lt inside, List.getElem?_eq_getElem inside]
        rfl
      · obtain ⟨further, rfl⟩ := Nat.exists_eq_add_of_le (Nat.le_of_not_lt inside)
        rw [List.getElem?_append_right (by simp), List.length_replicate, Nat.add_sub_cancel_left,
          ih, List.getElem?_append_right (by omega), Nat.add_sub_cancel_left]
        simp only [inComment_behind_comment found]
  | other c rest none ih =>
      rw [maskComments_cons none]
      cases place with
      | zero =>
          rw [if_neg (not_inComment_zero none)]
          rfl
      | succ place =>
          rw [List.getElem?_cons_succ, List.getElem?_cons_succ, ih]
          simp only [inComment_succ none]

/-- What is seen in a masked document and is no blank stands in the document, in no comment. -/
theorem live_of_masked {document : Text} {place : Nat} {c : Char}
    (seen : (maskComments document)[place]? = some c) (other : c ≠ ' ') :
    document[place]? = some c ∧ ¬InComment document place := by
  rw [getElem?_maskComments] at seen
  split at seen
  · obtain ⟨_, _, blank⟩ := Option.map_eq_some_iff.mp seen
    exact absurd blank.symm other
  · rename_i outside
    exact ⟨seen, outside⟩

end DeclOrder.Component
