import DeclOrder.Proofs.BlankRuns
import Mathlib.Data.List.Flatten

/-!
# Stretches of a document

A stretch is what lies between two places of a document.  When some parts of a stretch are kept
apart by blanks only, the visible characters of the stretch are those of its parts, in order.
Joined texts are the opposite direction: a separator is put between texts, and each of them can be
read again at the place where it was put.
-/

namespace DeclOrder

/-- What lies between two places of a document. -/
structure Stretch where
  start : Int
  stop : Int
  deriving DecidableEq, Repr

namespace Text

/-! ## Slices between places of a text -/

theorem slice_of_nonneg (text : Text) {start stop : Int} (startNonneg : 0 ≤ start)
    (stopNonneg : 0 ≤ stop) :
    text.slice start stop = (text.take stop.toNat).drop start.toNat := by
  have stopPlace : text.take (place text.length stop) = text.take stop.toNat := by
    rw [place, if_neg (Int.not_lt.mpr stopNonneg), ← List.take_eq_take_min]
  have startPlace : place text.length start = min start.toNat text.length := by
    rw [place, if_neg (Int.not_lt.mpr startNonneg)]
  rw [slice, upTo, stopPlace, startPlace]
  by_cases inside : start.toNat ≤ text.length
  · rw [Nat.min_eq_left inside]
  · rw [List.drop_eq_nil_of_le, List.drop_eq_nil_of_le]
    · rw [List.length_take]
      omega
    · rw [List.length_take]
      omega

theorem upTo_of_nonneg (text : Text) {bound : Int} (nonneg : 0 ≤ bound) :
    text.upTo bound = text.take bound.toNat := by
  rw [upTo, place, if_neg (Int.not_lt.mpr nonneg), ← List.take_eq_take_min]

theorem onward_of_le (text : Text) {bound : Int} (nonneg : 0 ≤ bound)
    (inside : bound ≤ text.length) : text.onward bound = text.drop bound.toNat := by
  rw [onward, place, if_neg (Int.not_lt.mpr nonneg), Nat.min_eq_left (by omega)]

/-- Slices that meet at a place make up the slice over both. -/
theorem slice_append_slice (text : Text) {start middle stop : Int} (nonneg : 0 ≤ start)
    (first : start ≤ middle) (second : middle ≤ stop) :
    text.slice start middle ++ text.slice middle stop = text.slice start stop := by
  have split : text.take stop.toNat =
      text.take middle.toNat ++ (text.take stop.toNat).drop middle.toNat := by
    conv_lhs => rw [← List.take_append_drop middle.toNat (text.take stop.toNat)]
    rw [List.take_take, Nat.min_eq_left (by omega)]
  rw [slice_of_nonneg text nonneg (by omega), slice_of_nonneg text (by omega) (by omega),
    slice_of_nonneg text nonneg (by omega)]
  by_cases inside : start.toNat ≤ text.length
  · conv_rhs => rw [split]
    rw [List.drop_append_of_le_length]
    rw [List.length_take]
    omega
  · rw [List.drop_eq_nil_of_le, List.drop_eq_nil_of_le, List.drop_eq_nil_of_le]
    · rfl
    all_goals
      rw [List.length_take]
      omega

theorem length_slice (text : Text) {start stop : Int} (nonneg : 0 ≤ start)
    (inOrder : start ≤ stop) (inside : stop ≤ text.length) :
    ((text.slice start stop).length : Int) = stop - start := by
  rw [slice_of_nonneg text nonneg (by omega), List.length_drop, List.length_take]
  omega

theorem upTo_eq_slice (text : Text) {bound : Int} (nonneg : 0 ≤ bound) :
    text.upTo bound = text.slice 0 bound := by
  rw [upTo_of_nonneg text nonneg, slice_of_nonneg text (Int.le_refl 0) nonneg]
  rfl

theorem onward_eq_slice (text : Text) {bound : Int} (nonneg : 0 ≤ bound)
    (inside : bound ≤ text.length) : text.onward bound = text.slice bound text.length := by
  rw [onward_of_le text nonneg inside, slice_of_nonneg text nonneg (by omega), Int.toNat_natCast,
    List.take_length]

/-- The text before a slice, the slice and the text behind it make up the text. -/
theorem upTo_append_slice_append_onward (text : Text) {start stop : Int} (nonneg : 0 ≤ start)
    (inOrder : start ≤ stop) :
    text.upTo start ++ text.slice start stop ++ text.onward stop = text := by
  rw [upTo_eq_slice text nonneg, slice_append_slice text (Int.le_refl 0) nonneg inOrder,
    ← upTo_eq_slice text (by omega), upTo_append_onward]

/-- A slice of a slice lies in it. -/
theorem slice_infix_slice (text : Text) {start innerStart innerStop stop : Int}
    (nonneg : 0 ≤ start) (first : start ≤ innerStart) (inner : innerStart ≤ innerStop)
    (second : innerStop ≤ stop) :
    text.slice innerStart innerStop <:+: text.slice start stop := by
  refine ⟨text.slice start innerStart, text.slice innerStop stop, ?_⟩
  rw [slice_append_slice text nonneg first inner,
    slice_append_slice text nonneg (by omega) second]

theorem blank_slice {text : Text} {start stop : Int} (nonneg : 0 ≤ start) (inOrder : start ≤ stop)
    (blank : ∀ place : Nat, start ≤ place → place < stop → ∀ c ∈ text[place]?, isBlank c = true) :
    Blank (text.slice start stop) := by
  intro c member
  rw [slice_of_nonneg text nonneg (by omega)] at member
  obtain ⟨index, found⟩ := List.mem_iff_getElem?.mp member
  rw [List.getElem?_drop, List.getElem?_take] at found
  split at found
  · exact blank (start.toNat + index) (by omega) (by omega) c found
  · cases found

/-! ## Where a text stands -/

/-- The text stands at a place of the document. -/
def Stands (source : Text) (place : Int) (text : Text) : Prop :=
  ∃ before behind, source = before ++ (text ++ behind) ∧ place = before.length

namespace Stands

variable {source text first second : Text} {place : Int}

theorem left (stands : Stands source place (first ++ second)) : Stands source place first := by
  obtain ⟨before, behind, rfl, rfl⟩ := stands
  exact ⟨before, second ++ behind, by simp, rfl⟩

theorem right (stands : Stands source place (first ++ second)) :
    Stands source (place + first.length) second := by
  obtain ⟨before, behind, rfl, rfl⟩ := stands
  exact ⟨before ++ first, behind, by simp, by simp⟩

/-- A text can be read where it stands. -/
theorem slice_eq (stands : Stands source place text) :
    source.slice place (place + text.length) = text := by
  obtain ⟨before, behind, rfl, rfl⟩ := stands
  rw [slice_of_nonneg _ (by omega) (by omega)]
  have stop : ((before.length : Int) + text.length).toNat = before.length + text.length := by omega
  rw [stop, Int.toNat_natCast, List.take_length_add_append, List.take_left, List.drop_left]

theorem mem (stands : Stands source place text) {spot : Nat} (above : place ≤ spot)
    (below : spot < place + text.length) {c : Char} (found : source[spot]? = some c) : c ∈ text := by
  obtain ⟨before, behind, rfl, rfl⟩ := stands
  rw [List.getElem?_append_right (by omega), List.getElem?_append_left (by omega)] at found
  exact List.mem_of_getElem? found

theorem bounds (stands : Stands source place text) :
    0 ≤ place ∧ place + text.length ≤ source.length := by
  obtain ⟨before, behind, rfl, rfl⟩ := stands
  rw [List.length_append, List.length_append]
  omega

/-- Where a slice stands in another document, its parts can be read, moved by the same distance. -/
theorem slice_shift {target : Text} {start stop innerStart innerStop distance : Int}
    (stands : Stands target (start + distance) (source.slice start stop)) (nonneg : 0 ≤ start)
    (first : start ≤ innerStart) (inner : innerStart ≤ innerStop) (second : innerStop ≤ stop)
    (inside : stop ≤ source.length) :
    target.slice (innerStart + distance) (innerStop + distance) =
      source.slice innerStart innerStop := by
  rw [← slice_append_slice source nonneg first (by omega),
    ← slice_append_slice source (by omega) inner second] at stands
  have here := stands.right.left.slice_eq
  rw [length_slice source nonneg first (by omega), length_slice source (by omega) inner (by omega)]
    at here
  have starts : start + distance + (innerStart - start) = innerStart + distance := by omega
  have stops : innerStart + distance + (innerStop - innerStart) = innerStop + distance := by omega
  rwa [starts, stops] at here

end Stands

theorem stands_slice (source : Text) {start stop : Int} (nonneg : 0 ≤ start)
    (forward : start ≤ stop) (inside : stop ≤ source.length) :
    Stands source start (source.slice start stop) := by
  refine ⟨source.upTo start, source.onward stop, ?_, ?_⟩
  · rw [← List.append_assoc, upTo_append_slice_append_onward source nonneg forward]
  · rw [upTo_of_nonneg _ nonneg, List.length_take]
    omega

/-! ## Joined texts -/

@[simp] theorem join_nil (separator : String) : join separator [] = [] := rfl

@[simp] theorem join_singleton (separator : String) (text : Text) :
    join separator [text] = text :=
  List.intercalate_singleton

theorem join_cons_cons (separator : String) (first second : Text) (rest : List Text) :
    join separator (first :: second :: rest) =
      first ++ (separator.toList ++ join separator (second :: rest)) := by
  rw [join, List.intercalate_cons_cons, List.append_assoc, join]

theorem join_cons {separator : String} {rest : List Text} (some : rest ≠ []) (first : Text) :
    join separator (first :: rest) = first ++ (separator.toList ++ join separator rest) := by
  obtain ⟨next, others, rfl⟩ := List.exists_cons_of_ne_nil some
  exact join_cons_cons ..

theorem join_map_cons_cons {α : Type} (separator : String) (text : α → Text) (a b : α)
    (rest : List α) :
    join separator ((a :: b :: rest).map text) =
      text a ++ (separator.toList ++ join separator ((b :: rest).map text)) :=
  join_cons_cons ..

theorem join_append {separator : String} {first second : List Text} (firstSome : first ≠ [])
    (secondSome : second ≠ []) :
    join separator (first ++ second) =
      join separator first ++ (separator.toList ++ join separator second) := by
  induction first with
  | nil => exact absurd rfl firstSome
  | cons text rest ih =>
      cases rest with
      | nil =>
          obtain ⟨next, others, rfl⟩ := List.exists_cons_of_ne_nil secondSome
          rw [join_singleton, List.singleton_append, join_cons_cons]
      | cons next others =>
          rw [List.cons_append, List.cons_append, join_cons_cons, ← List.cons_append,
            ih (List.cons_ne_nil _ _), join_cons_cons, List.append_assoc, List.append_assoc]

/-- Joining joined texts is joining all of them at once. -/
theorem join_flatMap {α : Type} {separator : String} {parts : α → List Text} {list : List α}
    (some : ∀ a ∈ list, parts a ≠ []) :
    join separator (list.flatMap parts) =
      join separator (list.map fun a => join separator (parts a)) := by
  induction list with
  | nil => rfl
  | cons a rest ih =>
      have ih := ih fun b member => some b (List.mem_cons_of_mem _ member)
      cases rest with
      | nil => simp
      | cons b others =>
          have present : (b :: others).flatMap parts ≠ [] := by
            rw [List.flatMap_cons]
            exact List.append_ne_nil_of_left_ne_nil (some b (by simp)) _
          rw [List.flatMap_cons, join_append (some a List.mem_cons_self) present, ih, List.map_cons,
            List.map_cons, List.map_cons, join_cons_cons]

/-- Each of several joined texts stands in the joined text as one piece. -/
theorem infix_join (separator : String) {texts : List Text} {text : Text}
    (member : text ∈ texts) : text <:+: join separator texts := by
  induction texts with
  | nil => cases member
  | cons first rest ih =>
      rcases List.mem_cons.mp member with rfl | later
      · cases rest with
        | nil => exact (join_singleton separator text).symm ▸ List.infix_refl text
        | cons next others =>
            rw [join_cons_cons]
            exact (List.prefix_append _ _).isInfix
      · rw [join_cons (List.ne_nil_of_mem later), ← List.append_assoc]
        exact (ih later).trans (List.suffix_append _ _).isInfix

theorem visible_join {separator : String} (blank : Blank separator.toList) (texts : List Text) :
    (join separator texts).visible = texts.flatMap visible := by
  induction texts with
  | nil => rfl
  | cons text rest ih =>
      cases rest with
      | nil => simp
      | cons next others =>
          rw [join_cons_cons, visible_append, visible_append, blank.visible_eq, ih,
            List.nil_append]
          rfl

theorem startsVisible_join {separator : String} {text : Text} {rest : List Text}
    (starts : text.StartsVisible) : (join separator (text :: rest)).StartsVisible := by
  cases rest with
  | nil => simpa using starts
  | cons next others =>
      rw [join_cons_cons]
      exact starts.append _

theorem endsVisible_join {separator : String} {texts : List Text} (some : texts ≠ [])
    (ends : ∀ text ∈ texts, text.EndsVisible) : (join separator texts).EndsVisible := by
  induction texts with
  | nil => exact absurd rfl some
  | cons text rest ih =>
      cases rest with
      | nil => simpa using ends text List.mem_cons_self
      | cons next others =>
          rw [join_cons_cons]
          have inner := ih (List.cons_ne_nil _ _) fun other member =>
            ends other (List.mem_cons_of_mem _ member)
          exact (inner.append _).append _

/-- Texts that meet only in a line break collapse one by one. -/
theorem collapse_join {separator : String} (feed : collapse separator.toList = ['\n'])
    {texts : List Text} (starts : ∀ text ∈ texts, text.StartsVisible)
    (closed : ∀ text ∈ texts, text.Closed) :
    (join separator texts).collapse = join "\n" (texts.map collapse) := by
  induction texts with
  | nil => simp
  | cons text rest ih =>
      cases rest with
      | nil => simp
      | cons next others =>
          have inner := ih (fun other member => starts other (List.mem_cons_of_mem _ member))
            (fun other member => closed other (List.mem_cons_of_mem _ member))
          have starts : (join separator (next :: others)).StartsVisible :=
            startsVisible_join (starts next (by simp))
          rw [join_cons_cons, collapse_append (.inl (closed text List.mem_cons_self)),
            collapse_append (.inr starts), feed, inner, List.map_cons, List.map_cons,
            List.map_cons, join_cons_cons]
          rfl

end Text

namespace Stretch

/-- The text of a stretch. -/
def text (source : Text) (stretch : Stretch) : Text :=
  source.slice stretch.start stretch.stop

/-- Every place of a stretch that lies in none of the parts holds a blank. -/
def BlankOutside (source : Text) (whole : Stretch) (parts : List Stretch) : Prop :=
  ∀ place : Nat, whole.start ≤ place → place < whole.stop →
    (∀ part ∈ parts, place < part.start ∨ part.stop ≤ place) →
      ∀ c ∈ source[place]?, isBlank c = true

instance (source : Text) (whole : Stretch) (parts : List Stretch) :
    Decidable (BlankOutside source whole parts) :=
  decidable_of_iff
    (∀ place ∈ List.range source.length, whole.start ≤ place → place < whole.stop →
      (∀ part ∈ parts, place < part.start ∨ part.stop ≤ place) →
        source[place]?.all isBlank = true)
    ⟨fun blank place above below outside c found => by
        have inside := List.mem_range.mpr (List.getElem?_eq_some_iff.mp found).1
        exact (Option.all_eq_true ..).mp (blank place inside above below outside) c found,
      fun blank place _ above below outside =>
        (Option.all_eq_true ..).mpr (blank place above below outside)⟩

end Stretch

end DeclOrder
