import DeclOrder.Path
import Mathlib

/-!
# Written paths

A path in normal form has names that are neither empty nor a single dot and hold no slash.  Reading
always gives such a path, and such a path is read back from what is written for it, so the two forms
determine each other.
-/

namespace DeclOrder

namespace Text

variable {separator : Char}

theorem fields_cons_separator (rest : Text) :
    fields separator (separator :: rest) = [] :: fields separator rest := by
  rw [fields, if_pos rfl]

theorem fields_ne_nil (text : Text) : fields separator text ≠ [] := by
  cases text with
  | nil => simp [fields]
  | cons c rest =>
      rw [fields]
      split
      · simp
      · split <;> simp

/-- A character in front of a text goes to the first field, unless it is the separator. -/
theorem fields_cons_of_ne {c : Char} (different : c ≠ separator) {field : Text} {rest : Text}
    {others : List Text} (read : fields separator rest = field :: others) :
    fields separator (c :: rest) = (c :: field) :: others := by
  rw [fields, if_neg different, read]

theorem fields_of_not_mem {field : Text} (free : separator ∉ field) :
    fields separator field = [field] := by
  induction field with
  | nil => rfl
  | cons c field ih =>
      rw [List.mem_cons, not_or] at free
      exact fields_cons_of_ne (Ne.symm free.1) (ih free.2)

theorem fields_append_separator {field : Text} (free : separator ∉ field) (rest : Text) :
    fields separator (field ++ separator :: rest) = field :: fields separator rest := by
  induction field with
  | nil => exact fields_cons_separator rest
  | cons c field ih =>
      rw [List.mem_cons, not_or] at free
      exact fields_cons_of_ne (Ne.symm free.1) (ih free.2)

/-- Fields without the separator are found again between the separators that join them. -/
theorem fields_intercalate {pieces : List Text} (free : ∀ piece ∈ pieces, separator ∉ piece)
    (some : pieces ≠ []) : fields separator (List.intercalate [separator] pieces) = pieces := by
  induction pieces with
  | nil => exact absurd rfl some
  | cons piece rest ih =>
      rw [List.forall_mem_cons] at free
      cases rest with
      | nil => rw [List.intercalate_singleton, fields_of_not_mem free.1]
      | cons next rest =>
          rw [List.intercalate_cons_cons, List.append_assoc, List.singleton_append,
            fields_append_separator free.1, ih free.2 (List.cons_ne_nil _ _)]

theorem not_mem_of_mem_fields {text field : Text} (member : field ∈ fields separator text) :
    separator ∉ field := by
  induction text generalizing field with
  | nil =>
      rw [List.mem_singleton.mp member]
      exact List.not_mem_nil
  | cons c rest ih =>
      by_cases same : c = separator
      · rw [same, fields_cons_separator, List.mem_cons] at member
        rcases member with rfl | later
        · exact List.not_mem_nil
        · exact ih later
      · obtain ⟨first, others, read⟩ := List.exists_cons_of_ne_nil (fields_ne_nil rest)
        rw [fields_cons_of_ne same read, List.mem_cons] at member
        rcases member with rfl | later
        · rw [List.mem_cons, not_or]
          exact ⟨Ne.symm same, ih (read ▸ List.mem_cons_self)⟩
        · exact ih (read ▸ List.mem_cons_of_mem _ later)

end Text

namespace Path

/-- What can stand between the slashes of a path in normal form. -/
def IsName (name : String) : Prop :=
  name ≠ "" ∧ name ≠ "." ∧ '/' ∉ name.toList

instance (name : String) : Decidable (IsName name) :=
  inferInstanceAs (Decidable (_ ∧ _))

/-- A path in normal form. -/
def Normal (path : Path) : Prop :=
  ∀ name ∈ path.names, IsName name

instance (path : Path) : Decidable path.Normal :=
  inferInstanceAs (Decidable (∀ name ∈ path.names, IsName name))

/-- Whatever is read as a path is in normal form. -/
theorem normal_ofText (text : Text) : (ofText text).Normal := by
  intro name member
  obtain ⟨field, found, rfl⟩ := List.mem_map.mp member
  obtain ⟨found, kept⟩ := List.mem_filter.mp found
  have free := Text.not_mem_of_mem_fields found
  simp only [ne_eq, decide_not, Bool.and_eq_true, Bool.not_eq_true', decide_eq_false_iff_not]
    at kept
  refine ⟨fun empty => kept.1 ?_, fun dot => kept.2 ?_, by rwa [String.toList_ofList]⟩
  · rw [← String.toList_ofList (l := field), empty]
    rfl
  · rw [← String.toList_ofList (l := field), dot]
    rfl

/-- The names of a path, joined by slashes. -/
def nameText (path : Path) : Text :=
  List.intercalate ['/'] (path.names.map String.toList)

/-- What is written for a path that has an anchor or names. -/
theorem toList_render {path : Path} (marked : ¬(path.anchor = .here ∧ path.names = [])) :
    path.render.toList = path.anchor.text.toList ++ path.nameText := by
  rw [render, if_neg marked, String.toList_append, String.toList_intercalate]
  rfl

namespace Normal

variable {path : Path} (normal : path.Normal)

include normal

theorem not_mem_names {name : Text} (member : name ∈ path.names.map String.toList) :
    '/' ∉ name := by
  obtain ⟨_, named, rfl⟩ := List.mem_map.mp member
  exact (normal _ named).2.2

/-- No slash starts the names of a path. -/
theorem head?_nameText : path.nameText.head? ≠ some '/' := by
  rw [nameText]
  cases names : path.names with
  | nil => simp [List.intercalate]
  | cons name rest =>
      obtain ⟨some, _, free⟩ := normal name (names ▸ List.mem_cons_self)
      obtain ⟨c, letters, spelled⟩ : ∃ c letters, name.toList = c :: letters :=
        List.exists_cons_of_ne_nil fun none => some (String.toList_inj.mp none)
      have other : c ≠ '/' := by
        rintro rfl
        exact free (spelled ▸ List.mem_cons_self)
      cases rest <;> simp [List.intercalate_cons_cons, spelled, other]

/-- The names of a path are read from the text that they make up. -/
theorem names_nameText :
    (((path.nameText.fields '/').filter fun name => name ≠ [] && name ≠ ['.']).map String.ofList) =
      path.names := by
  rw [nameText]
  by_cases none : path.names = []
  · rw [none]
    rfl
  · rw [Text.fields_intercalate (fun _ member => normal.not_mem_names member) (by simpa using none),
      List.filter_eq_self.mpr, List.map_map]
    · exact (List.map_congr_left fun name _ => String.ofList_toList).trans (List.map_id _)
    · intro text member
      obtain ⟨name, named, rfl⟩ := List.mem_map.mp member
      obtain ⟨some, noDot, _⟩ := normal name named
      have dotless : name.toList ≠ ['.'] := fun dot => noDot (String.toList_inj.mp dot)
      simpa using ⟨some, dotless⟩

end Normal

/-- The anchor of a path is told from its slashes alone. -/
theorem anchorOf_append {slashes text : Text} (all : ∀ c ∈ slashes, c = '/')
    (behind : text.head? ≠ some '/') : anchorOf (slashes ++ text) = anchorOf slashes := by
  have stop : text.takeWhile (· = '/') = [] := by
    cases text with
    | nil => rfl
    | cons c rest => simpa using behind
  have whole : slashes.takeWhile (· = '/') = slashes := by
    rw [List.takeWhile_eq_self_iff]
    simpa using all
  rw [anchorOf, anchorOf, List.takeWhile_append_of_pos (by simpa using all), stop, whole,
    List.append_nil]

theorem anchorOf_text (anchor : Anchor) : anchorOf anchor.text.toList = anchor := by
  cases anchor <;> simp [anchorOf, Anchor.text]

/-- Slashes in front of the names add no names. -/
theorem names_append {slashes : Text} (all : ∀ c ∈ slashes, c = '/') (text : Text) :
    (ofText (slashes ++ text)).names = (ofText text).names := by
  induction slashes with
  | nil => rfl
  | cons c slashes ih =>
      rw [List.forall_mem_cons] at all
      rw [← ih all.2, all.1]
      simp [ofText, Text.fields_cons_separator]

/-- A path in normal form is read back from what is written for it. -/
theorem ofText_render {path : Path} (normal : path.Normal) :
    ofText path.render.toList = path := by
  by_cases dot : path.anchor = .here ∧ path.names = []
  · obtain ⟨anchor, names⟩ := path
    obtain ⟨rfl, rfl⟩ := dot
    rfl
  · have slashes : ∀ c ∈ path.anchor.text.toList, c = '/' := by
      cases path.anchor <;> simp [Anchor.text]
    have anchor := anchorOf_append slashes normal.head?_nameText
    have names := names_append slashes path.nameText
    rw [toList_render dot]
    obtain ⟨given, listed⟩ := path
    rw [Path.mk.injEq]
    exact ⟨anchor.trans (anchorOf_text given), names.trans normal.names_nameText⟩

theorem ofString_render {path : Path} (normal : path.Normal) : ofString path.render = path :=
  ofText_render normal

end Path

end DeclOrder
