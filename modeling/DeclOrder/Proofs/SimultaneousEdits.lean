import DeclOrder.Proofs.EditorPositions

/-!
# Edits that are applied at once

Edits are applied one after the other, the one that starts last coming first.  An edit leaves
everything before it as it was, so the bounds of the edits still to come keep their meaning.  When
the stretches of the edits lie apart, the outcome is the text with all of these stretches replaced
at once, and it does not depend on the order in which the edits are listed.
-/

namespace DeclOrder

namespace Edit

/-- The stretch that an edit replaces, by the offsets of its ends, and what it puts there. -/
def replaced (edit : Edit) : Nat × Nat × Text :=
  (edit.start.toNat, edit.stop.toNat, edit.replacement)

/-- By how much an edit lengthens a text. -/
def growth (edit : Edit) : Int :=
  edit.replacement.length - (edit.stop - edit.start)

end Edit

/-- Edits in the order in which they start. -/
def leftToRight (edits : List Edit) : List Edit :=
  edits.mergeSort fun a b => a.start ≤ b.start

/-- Edits of a text of the given length whose stretches have different starts and no place in
common. -/
structure SeparateEdits (length : Nat) (edits : List Edit) : Prop where
  inside : ∀ edit ∈ edits, 0 ≤ edit.start ∧ edit.start ≤ edit.stop ∧ edit.stop ≤ length
  distinct : (edits.map Edit.start).Nodup
  apart : ∀ a ∈ edits, ∀ b ∈ edits, a.start < b.start → a.stop ≤ b.start

/-- Edits of a text of the given length, one behind the other from a place on. -/
inductive EditRow (length : Nat) : Nat → List Edit → Prop where
  | nil {place : Nat} (inside : place ≤ length) : EditRow length place []
  | cons {place : Nat} {edit : Edit} {rest : List Edit} (behind : place ≤ edit.start)
      (forward : edit.start ≤ edit.stop) (later : EditRow length edit.stop.toNat rest) :
      EditRow length place (edit :: rest)

/-! ## Edits in a row -/

theorem Text.drop_take_append_drop {text : Text} {start stop : Nat} (forward : start ≤ stop)
    (inside : stop ≤ text.length) :
    (text.take stop).drop start ++ text.drop stop = text.drop start := by
  conv_rhs => rw [← List.take_append_drop stop text]
  rw [List.drop_append_of_le_length (by rw [List.length_take]; omega)]

/-- An edit leaves what stands before it, whatever has become of the text behind it. -/
theorem Edit.apply_take_append {text : Text} {edit : Edit} (nonneg : 0 ≤ edit.start)
    (forward : edit.start ≤ edit.stop) (inside : edit.stop ≤ text.length) (behind : Text) :
    edit.apply (text.take edit.stop.toNat ++ behind) =
      text.take edit.start.toNat ++ (edit.replacement ++ behind) := by
  have length : (text.take edit.stop.toNat).length = edit.stop.toNat := by
    rw [List.length_take]
    omega
  have before : Text.upTo (text.take edit.stop.toNat ++ behind) edit.start =
      text.take edit.start.toNat := by
    rw [Text.upTo_of_nonneg _ nonneg, List.take_append_of_le_length (by omega), List.take_take,
      Nat.min_eq_left (by omega)]
  have onward : Text.onward (text.take edit.stop.toNat ++ behind) edit.stop = behind := by
    rw [Text.onward_of_le _ (by omega) (by rw [List.length_append]; omega),
      List.drop_left' length]
  rw [apply, before, onward, List.append_assoc]

namespace EditRow

theorem inside {length place : Nat} {edits : List Edit} (row : EditRow length place edits) :
    place ≤ length := by
  induction row with
  | nil inside => exact inside
  | cons behind forward later ih => omega

variable {text : Text} {place : Nat} {edits : List Edit}

/-- Applying edits from the last one on leaves the text before the first of them, and behind it the
text with all stretches replaced. -/
theorem foldr_apply (row : EditRow text.length place edits) :
    edits.foldr (fun edit result => edit.apply result) text =
      text.take place ++ text.splice place (edits.map Edit.replaced) := by
  induction row with
  | nil inside => exact (List.take_append_drop _ _).symm
  | @cons place edit rest behind forward later ih =>
      have inside := later.inside
      have cut : text.take edit.start.toNat =
          text.take place ++ (text.take edit.start.toNat).drop place := by
        conv_lhs => rw [← List.take_append_drop place (text.take edit.start.toNat)]
        rw [List.take_take, Nat.min_eq_left (by omega)]
      rw [List.foldr_cons, ih, Edit.apply_take_append (by omega) forward (by omega), cut,
        List.append_assoc]
      rfl

/-- Replacing stretches lengthens a text by what each replacement is longer than its stretch. -/
theorem length_splice (row : EditRow text.length place edits) :
    ((text.splice place (edits.map Edit.replaced)).length : Int) =
      text.length - place + (edits.map Edit.growth).sum := by
  induction row with
  | @nil place inside =>
      show ((text.drop place).length : Int) = text.length - place + 0
      rw [List.length_drop]
      omega
  | @cons place edit rest behind forward later ih =>
      have inside := later.inside
      have between : (((text.take edit.start.toNat).drop place).length : Int) =
          edit.start - place := by
        rw [List.length_drop, List.length_take]
        omega
      rw [List.map_cons, List.map_cons, List.sum_cons, Edit.growth]
      show (((text.take edit.start.toNat).drop place ++ (edit.replacement ++
        text.splice edit.stop.toNat (rest.map Edit.replaced))).length : Int) = _
      rw [List.length_append, List.length_append]
      push_cast
      rw [between, ih]
      omega

/-- Stretches that are replaced by themselves leave the text as it is. -/
theorem splice_of_unchanged (row : EditRow text.length place edits)
    (same : ∀ edit ∈ edits, edit.replacement = text.slice edit.start edit.stop) :
    text.splice place (edits.map Edit.replaced) = text.drop place := by
  induction row with
  | nil inside => rfl
  | @cons place edit rest behind forward later ih =>
      have inside := later.inside
      have here := same edit List.mem_cons_self
      rw [Text.slice_of_nonneg text (by omega) (by omega)] at here
      have ih := ih fun other member => same other (List.mem_cons_of_mem _ member)
      show (text.take edit.start.toNat).drop place ++ (edit.replacement ++
        text.splice edit.stop.toNat (rest.map Edit.replaced)) = text.drop place
      rw [ih, here, Text.drop_take_append_drop (by omega) (by omega),
        Text.drop_take_append_drop (by omega) (by omega)]

end EditRow

/-! ## Separate edits -/

theorem pairwise_leftToRight (edits : List Edit) :
    (leftToRight edits).Pairwise fun a b => a.start ≤ b.start :=
  List.pairwise_mergeSort' (Order.Preimage Edit.start (· ≤ ·)) edits

theorem leftToRight_perm (edits : List Edit) : (leftToRight edits).Perm edits :=
  List.mergeSort_perm ..

namespace SeparateEdits

variable {length : Nat} {edits : List Edit} (separate : SeparateEdits length edits)

include separate

theorem of_perm {given : List Edit} (moved : given.Perm edits) : SeparateEdits length given where
  inside edit member := separate.inside edit (moved.mem_iff.mp member)
  distinct := (moved.map Edit.start).nodup_iff.mpr separate.distinct
  apart a aMember b bMember :=
    separate.apart a (moved.mem_iff.mp aMember) b (moved.mem_iff.mp bMember)

/-- Separate edits in the order of their starts stand in a row. -/
theorem editRow (ascends : edits.Pairwise fun a b => a.start ≤ b.start) {place : Nat}
    (placed : place ≤ length) (behind : ∀ edit ∈ edits, place ≤ edit.start) :
    EditRow length place edits := by
  induction edits generalizing place with
  | nil => exact .nil placed
  | cons edit rest ih =>
      obtain ⟨nonneg, forward, inside⟩ := separate.inside edit List.mem_cons_self
      obtain ⟨least, ascends⟩ := List.pairwise_cons.mp ascends
      obtain ⟨new, distinct⟩ := List.nodup_cons.mp separate.distinct
      have later : SeparateEdits length rest :=
        ⟨fun other member => separate.inside other (List.mem_cons_of_mem _ member), distinct,
          fun a aMember b bMember => separate.apart a (List.mem_cons_of_mem _ aMember) b
            (List.mem_cons_of_mem _ bMember)⟩
      refine .cons (behind edit List.mem_cons_self) forward (ih later ascends (by omega) ?_)
      intro other member
      have different : edit.start ≠ other.start := fun same =>
        new (same ▸ List.mem_map_of_mem member)
      have := least other member
      have := separate.apart edit List.mem_cons_self other (List.mem_cons_of_mem _ member)
      omega

theorem editRow_leftToRight : EditRow length 0 (leftToRight edits) := by
  have moved := separate.of_perm (leftToRight_perm edits)
  exact moved.editRow (pairwise_leftToRight edits) (Nat.zero_le _) fun edit member =>
    (moved.inside edit member).1

/-- Only one order of separate edits ascends. -/
theorem eq_leftToRight {ordered : List Edit} (moved : ordered.Perm edits)
    (ascends : ordered.Pairwise fun a b => a.start ≤ b.start) : ordered = leftToRight edits := by
  refine List.Perm.eq_of_pairwise ?_ ascends (pairwise_leftToRight edits)
    (moved.trans (leftToRight_perm edits).symm)
  intro a b aMember bMember forth back
  exact List.inj_on_of_nodup_map separate.distinct (moved.mem_iff.mp aMember)
    ((leftToRight_perm edits).mem_iff.mp bMember) (Int.le_antisymm forth back)

theorem leftToRight_of_perm {given : List Edit} (moved : given.Perm edits) :
    leftToRight given = leftToRight edits :=
  separate.eq_leftToRight ((leftToRight_perm given).trans moved) (pairwise_leftToRight given)

/-- The order in which edits are applied is the order of their starts, backwards. -/
theorem mergeSort_eq_reverse :
    (edits.mergeSort fun a b => a.start ≥ b.start) = (leftToRight edits).reverse := by
  have descends : (edits.mergeSort fun a b => a.start ≥ b.start).Pairwise fun a b =>
      a.start ≥ b.start :=
    List.pairwise_mergeSort' (Order.Preimage Edit.start (· ≥ ·)) edits
  rw [← List.reverse_eq_iff]
  apply separate.eq_leftToRight ((List.reverse_perm _).trans (List.mergeSort_perm _ _))
  exact List.pairwise_reverse.mpr descends

end SeparateEdits

/-- Separate edits replace their stretches at once. -/
theorem applyEdits_eq_splice {text : Text} {edits : List Edit}
    (separate : SeparateEdits text.length edits) :
    applyEdits text edits = text.splice 0 ((leftToRight edits).map Edit.replaced) := by
  rw [applyEdits, separate.mergeSort_eq_reverse, List.foldl_reverse,
    separate.editRow_leftToRight.foldr_apply, List.take_zero, List.nil_append]

/-- Applying edits is replacing their stretches at once.  The stretches of the edits, read from left
to right, are exchanged for the replacements and the text between them stays.  So the outcome does
not depend on the order of the edits, each edit lengthens the text by what its replacement is longer
than its stretch, and edits that replace stretches by themselves change nothing. -/
theorem applyEdits_replaces_at_once {text : Text} {edits : List Edit}
    (separate : SeparateEdits text.length edits) :
    applyEdits text edits = text.splice 0 ((leftToRight edits).map Edit.replaced) ∧
      (∀ given : List Edit, given.Perm edits → applyEdits text given = applyEdits text edits) ∧
      ((applyEdits text edits).length : Int) = text.length + (edits.map Edit.growth).sum ∧
      ((∀ edit ∈ edits, edit.replacement = text.slice edit.start edit.stop) →
        applyEdits text edits = text) := by
  have spliced := applyEdits_eq_splice separate
  have row := separate.editRow_leftToRight
  refine ⟨spliced, ?_, ?_, ?_⟩
  · intro given moved
    rw [spliced, applyEdits_eq_splice (separate.of_perm moved), separate.leftToRight_of_perm moved]
  · have total := ((leftToRight_perm edits).map Edit.growth).sum_eq
    rw [spliced, row.length_splice, total]
    omega
  · intro same
    rw [spliced, row.splice_of_unchanged fun edit member =>
      same edit ((leftToRight_perm edits).mem_iff.mp member), List.drop_zero]

/-- Edits that are listed out of order: one of them inserts a character where another one ends. -/
def scatteredEdits : List Edit :=
  [⟨"a.ts", 6, 7, "total".toList⟩, ⟨"a.ts", 0, 5, "let".toList⟩, ⟨"a.ts", 5, 5, "!".toList⟩]

theorem applyEdits_scatteredEdits :
    SeparateEdits "const n = 1".toList.length scatteredEdits ∧
      applyEdits "const n = 1".toList scatteredEdits = "let! total = 1".toList ∧
      applyEdits "const n = 1".toList scatteredEdits.reverse = "let! total = 1".toList := by
  have separate : SeparateEdits "const n = 1".toList.length scatteredEdits :=
    ⟨by decide, by decide, by decide⟩
  obtain ⟨spliced, moved, _⟩ := applyEdits_replaces_at_once separate
  have outcome : applyEdits "const n = 1".toList scatteredEdits = "let! total = 1".toList := by
    rw [spliced]
    cbv
  exact ⟨separate, outcome, (moved _ (List.reverse_perm _)).trans outcome⟩

end DeclOrder
