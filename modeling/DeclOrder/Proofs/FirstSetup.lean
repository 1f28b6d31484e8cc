import DeclOrder.Proofs.CommentPlaces
import DeclOrder.Proofs.ScannedElements
import DeclOrder.Proofs.Stretches

/-!
# The first script with a setup attribute

The script of a component is the body of the first element with a `setup` attribute, in a scan of the
document with its comments masked.  A masked character is a blank, and no blank is read as a part of
a tag, so the tags around the body stand in the document and in no comment.
-/

namespace DeclOrder.Component

/-! ## Setup attributes -/

/-- An attribute text has a `setup` attribute: the word, in capital or small letters, behind a blank
or at the start, and before a blank, `=`, `/` or the end. -/
def HasSetup (attributes : Text) : Prop :=
  ∃ before word behind : Text, attributes = before ++ (word ++ behind) ∧
    word.reads "setup" = true ∧ (∀ c ∈ before.getLast?, isBlank c = true) ∧
    ∀ c ∈ behind.head?, isBlank c = true ∨ c = '=' ∨ c = '/'

theorem startsWithSetup_iff {text : Text} :
    startsWithSetup text = true ↔ ∃ word behind : Text, text = word ++ behind ∧
      word.reads "setup" = true ∧ ∀ c ∈ behind.head?, isBlank c = true ∨ c = '=' ∨ c = '/' := by
  constructor
  · intro starts
    rw [startsWithSetup] at starts
    split at starts
    · cases starts
    · rename_i ends
      obtain ⟨word, reads, rfl⟩ := Text.afterWord?_eq_some_iff.mp ends
      exact ⟨word, [], rfl, reads, by simp⟩
    · rename_i sign behind goes
      obtain ⟨word, reads, rfl⟩ := Text.afterWord?_eq_some_iff.mp goes
      refine ⟨word, sign :: behind, rfl, reads, ?_⟩
      rintro c ⟨⟩
      simpa [or_assoc] using starts
  · rintro ⟨word, behind, rfl, reads, boundary⟩
    rw [startsWithSetup, Text.afterWord?_of_reads reads]
    cases behind with
    | nil => rfl
    | cons c behind => simpa [or_assoc] using boundary c rfl

theorem hasSetup_iff {attributes : Text} : hasSetup attributes = true ↔ HasSetup attributes := by
  rw [hasSetup, attributeStarts, List.any_eq_true]
  constructor
  · rintro ⟨text, member, starts⟩
    obtain ⟨word, behind, rfl, reads, boundary⟩ := startsWithSetup_iff.mp starts
    rcases List.mem_cons.mp member with rfl | later
    · exact ⟨[], word, behind, rfl, reads, by simp, boundary⟩
    · obtain ⟨before, c, blank, rfl⟩ := Text.mem_behindEach_iff.mp later
      refine ⟨before ++ [c], word, behind, by simp, reads, fun d last => ?_, boundary⟩
      rw [List.getLast?_concat] at last
      cases last
      exact blank
  · rintro ⟨before, word, behind, rfl, reads, blank, boundary⟩
    refine ⟨word ++ behind, ?_, startsWithSetup_iff.mpr ⟨word, behind, rfl, reads, boundary⟩⟩
    rcases List.eq_nil_or_concat before with rfl | ⟨front, c, rfl⟩
    · exact List.mem_cons_self
    · refine List.mem_cons_of_mem _ (Text.mem_behindEach_iff.mpr ⟨front, c, ?_, by simp⟩)
      exact blank c (by simp)

/-! ## Live tags -/

/-- A text stands at a place of a document, and no character of it lies in a comment. -/
structure StandsLive (document : Text) (place : Nat) (text : Text) : Prop where
  here : document.Stands place text
  outside : ∀ i < text.length, ¬InComment document (place + i)

/-- The tags around the body of an element are live. -/
structure TagsLive (document : Text) (element : Element) : Prop where
  opening : ∃ place opening, opening.reads "<script" = true ∧
    place + (opening.length + element.attributes.length + 1) = element.start ∧
      StandsLive document place opening
  sign : StandsLive document (element.start - 1) ['>']
  closing : ∃ closing, closing.reads "</script" = true ∧
    StandsLive document (element.start + element.body.length) closing

/-- A setup is the body of an element, at its place in the document. -/
structure Setup.IsBody (setup : Setup) (document : Text) (element : Element) : Prop where
  start : setup.start = element.start
  stop : setup.stop = element.start + element.body.length
  language : setup.language = languageOf element.attributes
  body : (maskComments document).slice setup.start setup.stop = element.body
  bounds : 0 < setup.start ∧ setup.start ≤ setup.stop ∧ setup.stop ≤ document.length

/-- What stands in a masked document without a blank is live in the document. -/
theorem standsLive_of_masked {document text : Text} {place : Nat}
    (stands : (maskComments document).Stands place text) (dense : ' ' ∉ text) :
    StandsLive document place text := by
  obtain ⟨before, behind, whole, same⟩ := stands
  obtain rfl : place = before.length := Int.ofNat_inj.mp same
  have live : ∀ i (inside : i < text.length), document[before.length + i]? = some text[i] ∧
      ¬InComment document (before.length + i) := by
    intro i inside
    refine live_of_masked ?_ fun blank => dense (blank ▸ List.getElem_mem inside)
    rw [whole, List.getElem?_append_right (Nat.le_add_right _ _), Nat.add_sub_cancel_left,
      List.getElem?_append_left inside, List.getElem?_eq_getElem inside]
  have starts : text <+: document.drop before.length := by
    refine List.prefix_iff_getElem?.mpr fun i inside => ?_
    rw [List.getElem?_drop]
    exact (live i inside).1
  obtain ⟨rest, cut⟩ := starts
  have length : before.length ≤ document.length := by
    rw [← length_maskComments document, whole, List.length_append]
    exact Nat.le_add_right _ _
  refine ⟨⟨document.take before.length, rest, ?_, ?_⟩, fun i inside => (live i inside).2⟩
  · rw [cut, List.take_append_drop]
  · rw [List.length_take_of_le length]

/-- The parts of an element, one behind the other in the masked document. -/
theorem stands_of_mem {document : Text} {element : Element} (member : element ∈ elements document) :
    ∃ (place : Nat) (opening closing behind : Text), opening.reads "<script" = true ∧
      ClosingTag closing ∧ element.start = place + (opening.length + element.attributes.length + 1) ∧
      (maskComments document).Stands place
        (opening ++ (element.attributes ++ (['>'] ++ (element.body ++ (closing ++ behind))))) := by
  obtain ⟨before, inner, behind, whole, opening, closing, placed⟩ :=
    (scans_elementsFrom 0 (maskComments document)).exists_of_mem element member
  have start := placed.start
  rw [Nat.zero_add] at start
  refine ⟨before.length, opening, closing, behind, placed.opens, placed.closes, start, before, [],
    ?_, rfl⟩
  rw [whole, placed.whole, List.append_nil]
  rfl

theorem tagsLive_of_mem {document : Text} {element : Element}
    (member : element ∈ elements document) : TagsLive document element := by
  obtain ⟨place, opening, closing, behind, opens, closes, start, stands⟩ := stands_of_mem member
  obtain ⟨word, blanks, reads, _, rfl⟩ := closes
  refine ⟨⟨place, opening, opens, start.symm, ?_⟩, ?_, word, reads, ?_⟩
  · exact standsLive_of_masked stands.left (Text.not_mem_of_reads opens (by decide))
  · have sign : (maskComments document).Stands (element.start - 1 : Nat) ['>'] := by
      have placed : ((element.start - 1 : Nat) : Int) =
          place + opening.length + element.attributes.length := by omega
      rw [placed]
      exact stands.right.right.left
    exact standsLive_of_masked sign (by decide)
  · have closing : (maskComments document).Stands
        (element.start + element.body.length : Nat) word := by
      have placed : ((element.start + element.body.length : Nat) : Int) =
          place + opening.length + element.attributes.length + ['>'].length +
            element.body.length := by
        rw [start, List.length_singleton]
        omega
      rw [placed]
      exact stands.right.right.right.right.left.left
    exact standsLive_of_masked closing (Text.not_mem_of_reads reads (by decide))

theorem isBody_of_mem {document : Text} {element : Element} (member : element ∈ elements document) :
    Setup.IsBody ⟨element.start, element.start + element.body.length,
      languageOf element.attributes⟩ document element := by
  have bounds := bounds_of_mem_elementsFrom member
  rw [length_maskComments] at bounds
  obtain ⟨place, opening, closing, behind, _, _, start, stands⟩ := stands_of_mem member
  have body : (maskComments document).Stands element.start element.body := by
    have placed : (element.start : Int) =
        place + opening.length + element.attributes.length + ['>'].length := by
      rw [start, List.length_singleton]
      omega
    rw [placed]
    exact stands.right.right.right.left
  refine ⟨rfl, rfl, rfl, ?_, by dsimp only; omega⟩
  rw [Int.natCast_add]
  exact body.slice_eq

/-- The script of a component is the body of the first element with a `setup` attribute, in a scan
of the document with blanks in place of its comments; the tags around it are live. -/
theorem setup?_first_live (document : Text) :
    (∀ regions, CommentsAt document regions ↔ regions = comments document) ∧
    (maskComments document).length = document.length ∧
    (∀ place, (maskComments document)[place]? =
      if InComment document place then document[place]?.map fun _ => ' ' else document[place]?) ∧
    ∃ scanned, (∀ list, Scans 0 (maskComments document) list ↔ list = scanned) ∧
      (setup? document = none ↔ ∀ element ∈ scanned, ¬HasSetup element.attributes) ∧
      ∀ setup, setup? document = some setup → ∃ before element behind,
        scanned = before ++ element :: behind ∧
        (∀ other ∈ before, ¬HasSetup other.attributes) ∧ HasSetup element.attributes ∧
        setup.IsBody document element ∧ TagsLive document element := by
  refine ⟨fun regions => commentsAt_iff, length_maskComments document,
    getElem?_maskComments document, elements document, fun list => scans_iff, ?_, ?_⟩
  · rw [setup?, Option.map_eq_none_iff, List.find?_eq_none]
    simp only [hasSetup_iff]
  · intro setup found
    obtain ⟨element, first, rfl⟩ := Option.map_eq_some_iff.mp found
    have member := List.mem_of_find?_eq_some first
    obtain ⟨has, before, behind, whole, others⟩ := List.find?_eq_some_iff_append.mp first
    refine ⟨before, element, behind, whole, fun other earlier => ?_, hasSetup_iff.mp has,
      isBody_of_mem member, tagsLive_of_mem member⟩
    rw [← hasSetup_iff]
    simpa using others other earlier

/-- A document with a script in a comment, a script without a `setup` attribute, and one with it. -/
def threeScripts : Text :=
  "<!-- <script setup>a</script> --><script no-setup>b</script><SCRIPT Setup=1>c</Script >".toList

/-- The last one of three scripts is the live one with a `setup` attribute. -/
theorem setup?_first_live_threeScripts :
    setup? threeScripts = some ⟨76, 77, "js"⟩ ∧ ∃ element, HasSetup element.attributes ∧
      Setup.IsBody ⟨76, 77, "js"⟩ threeScripts element ∧ TagsLive threeScripts element ∧
      element.body = ['c'] := by
  have found : setup? threeScripts = some ⟨76, 77, "js"⟩ := by decide +kernel
  obtain ⟨_, _, _, _, _, _, live⟩ := setup?_first_live threeScripts
  obtain ⟨_, element, _, _, _, has, placed, tags⟩ := live _ found
  exact ⟨found, element, has, placed, tags, placed.body.symm.trans (by decide +kernel)⟩

end DeclOrder.Component
