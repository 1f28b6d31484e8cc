import DeclOrder.Proofs.Stretches

/-!
# Laid pieces

Pieces of a document between two places, with nothing but blanks between them.  Such a row of pieces
is built from its start to its stop, one piece or one run of blanks at a time, and can be moved to
any place where the same text stands.
-/

namespace DeclOrder

namespace Stretch

/-- A stretch that has been moved by a distance. -/
def shift (distance : Int) (stretch : Stretch) : Stretch :=
  ⟨stretch.start + distance, stretch.stop + distance⟩

/-- From one place to another stand the given pieces, with the given texts, and else only blanks. -/
inductive Laid (source : Text) : Int → Int → List Stretch → List Text → Prop where
  | done (place : Int) : Laid source place place [] []
  | blank {place stop : Int} {text : Text} {pieces : List Stretch} {texts : List Text}
      (stands : source.Stands place text) (blank : text.Blank)
      (rest : Laid source (place + text.length) stop pieces texts) :
      Laid source place stop pieces texts
  | piece {place stop : Int} {text : Text} {pieces : List Stretch} {texts : List Text}
      (stands : source.Stands place text) (some : text ≠ [])
      (rest : Laid source (place + text.length) stop pieces texts) :
      Laid source place stop (⟨place, place + text.length⟩ :: pieces) (text :: texts)

/-- Pieces one behind the other between two places. -/
structure Stacked (start stop : Int) (pieces : List Stretch) : Prop where
  inside : ∀ piece ∈ pieces, start ≤ piece.start ∧ piece.start < piece.stop ∧ piece.stop ≤ stop
  apart : pieces.Pairwise fun a b => a.stop ≤ b.start

theorem Stacked.append {start middle next stop : Int} {first second : List Stretch}
    (stackedFirst : Stacked start middle first) (behind : middle ≤ next)
    (stackedSecond : Stacked next stop second) (forward : start ≤ middle) (onward : next ≤ stop) :
    Stacked start stop (first ++ second) := by
  constructor
  · intro piece member
    rcases List.mem_append.mp member with earlier | later
    · have bounds := stackedFirst.inside piece earlier
      omega
    · have bounds := stackedSecond.inside piece later
      omega
  · refine List.pairwise_append.mpr ⟨stackedFirst.apart, stackedSecond.apart, ?_⟩
    intro a aMember b bMember
    have aBounds := stackedFirst.inside a aMember
    have bBounds := stackedSecond.inside b bMember
    omega

theorem Stacked.shift {start stop : Int} {pieces : List Stretch}
    (stacked : Stacked start stop pieces) (distance : Int) :
    Stacked (start + distance) (stop + distance) (pieces.map (Stretch.shift distance)) := by
  constructor
  · intro moved member
    obtain ⟨piece, found, rfl⟩ := List.mem_map.mp member
    have bounds := stacked.inside piece found
    dsimp only [Stretch.shift]
    omega
  · rw [List.pairwise_map]
    apply stacked.apart.imp
    intro a b behind
    dsimp only [Stretch.shift]
    omega

namespace Laid

variable {source : Text} {start stop : Int} {pieces : List Stretch} {texts : List Text}

theorem le (laid : Laid source start stop pieces texts) : start ≤ stop := by
  induction laid with
  | done place => exact Int.le_refl _
  | blank stands blank rest ih => omega
  | piece stands some rest ih => omega

theorem append {next : Int} {others : List Stretch} {otherTexts : List Text}
    (laid : Laid source start stop pieces texts)
    (behind : Laid source stop next others otherTexts) :
    Laid source start next (pieces ++ others) (texts ++ otherTexts) := by
  induction laid with
  | done place => exact behind
  | blank stands blank rest ih => exact .blank stands blank (ih behind)
  | piece stands some rest ih => exact .piece stands some (ih behind)

/-- Each piece has its text. -/
theorem map_text (laid : Laid source start stop pieces texts) :
    pieces.map (text source) = texts := by
  induction laid with
  | done place => rfl
  | blank stands blank rest ih => exact ih
  | piece stands some rest ih =>
      rw [List.map_cons, ih, text, stands.slice_eq]

theorem stacked (laid : Laid source start stop pieces texts) : Stacked start stop pieces := by
  induction laid with
  | done place => exact ⟨fun piece member => absurd member List.not_mem_nil, .nil⟩
  | blank stands blank rest ih =>
      refine ⟨fun piece member => ?_, ih.apart⟩
      have bounds := ih.inside piece member
      omega
  | @piece place stop text pieces texts stands some rest ih =>
      have positive := List.length_pos_iff.mpr some
      have forward := rest.le
      constructor
      · intro piece member
        rcases List.mem_cons.mp member with rfl | later
        · dsimp only
          omega
        · have bounds := ih.inside piece later
          omega
      · refine List.pairwise_cons.mpr ⟨fun piece member => ?_, ih.apart⟩
        exact (ih.inside piece member).1

/-- All else between the two places is blank. -/
theorem blankOutside (laid : Laid source start stop pieces texts) :
    BlankOutside source ⟨start, stop⟩ pieces := by
  induction laid with
  | done place =>
      intro spot above below
      dsimp only at above below
      omega
  | @blank place stop text pieces texts stands blank rest ih =>
      intro spot above below outside c found
      by_cases early : (spot : Int) < place + text.length
      · exact blank c (stands.mem above early found)
      · exact ih spot (Int.not_lt.mp early) below outside c found
  | @piece place stop text pieces texts stands some rest ih =>
      intro spot above below outside c found
      have missed := outside _ List.mem_cons_self
      dsimp only at above below missed
      refine ih spot (by dsimp only; omega) below (fun part member => ?_) c found
      exact outside part (List.mem_cons_of_mem _ member)

/-- The visible characters between the two places are those of the pieces. -/
theorem visible_slice (laid : Laid source start stop pieces texts) (nonneg : 0 ≤ start) :
    (source.slice start stop).visible =
      pieces.flatMap fun piece => (piece.text source).visible := by
  induction laid with
  | done place =>
      rw [Text.slice_of_nonneg source nonneg nonneg,
        List.drop_eq_nil_of_le (List.length_take_le ..)]
      rfl
  | @blank place stop text pieces texts stands blank rest ih =>
      rw [← Text.slice_append_slice source nonneg (by omega) rest.le, stands.slice_eq,
        Text.visible_append, blank.visible_eq, ih (by omega), List.nil_append]
  | @piece place stop text pieces texts stands some rest ih =>
      rw [← Text.slice_append_slice source nonneg (by omega) rest.le, Text.visible_append,
        ih (by omega), List.flatMap_cons]
      rfl

/-- Laid pieces can be moved to where the same text stands. -/
theorem shift {target : Text} {distance : Int} (laid : Laid source start stop pieces texts)
    (nonneg : 0 ≤ start)
    (stands : target.Stands (start + distance) (source.slice start stop)) :
    Laid target (start + distance) (stop + distance) (pieces.map (Stretch.shift distance))
      texts := by
  induction laid with
  | done place => exact .done _
  | @blank place stop text pieces texts here blank rest ih =>
      have forward := rest.le
      rw [← Text.slice_append_slice source nonneg (by omega) forward, here.slice_eq] at stands
      have behind := stands.right
      rw [Int.add_right_comm] at behind
      have moved := ih (by omega) behind
      rw [Int.add_right_comm] at moved
      exact .blank stands.left blank moved
  | @piece place stop text pieces texts here some rest ih =>
      have forward := rest.le
      rw [← Text.slice_append_slice source nonneg (by omega) forward, here.slice_eq] at stands
      have behind := stands.right
      rw [Int.add_right_comm] at behind
      have moved := ih (by omega) behind
      rw [Int.add_right_comm] at moved
      rw [List.map_cons, Stretch.shift]
      dsimp only
      rw [Int.add_right_comm]
      exact .piece stands.left some moved

end Laid

theorem Laid.blank_slice {source : Text} {start middle stop : Int} {pieces : List Stretch}
    {texts : List Text} (nonneg : 0 ≤ start) (forward : start ≤ middle)
    (within : middle ≤ source.length) (blank : (source.slice start middle).Blank)
    (rest : Laid source middle stop pieces texts) : Laid source start stop pieces texts := by
  have stands := Text.stands_slice source nonneg forward within
  have length : start + ((source.slice start middle).length : Int) = middle := by
    rw [Text.length_slice source nonneg forward within]
    omega
  refine .blank stands blank ?_
  rwa [length]

theorem Laid.piece_slice {source : Text} {piece : Stretch} {stop : Int} {pieces : List Stretch}
    {texts : List Text} (nonneg : 0 ≤ piece.start) (forward : piece.start < piece.stop)
    (within : piece.stop ≤ source.length) (rest : Laid source piece.stop stop pieces texts) :
    Laid source piece.start stop (piece :: pieces) (piece.text source :: texts) := by
  have stands : source.Stands piece.start (piece.text source) :=
    Text.stands_slice source nonneg (Int.le_of_lt forward) within
  have length := Text.length_slice source nonneg (Int.le_of_lt forward) within
  have some : piece.text source ≠ [] := by
    intro none
    rw [text] at none
    rw [none] at length
    simp only [List.length_nil, Int.natCast_zero] at length
    omega
  have stops : piece.start + ((piece.text source).length : Int) = piece.stop := by
    rw [text, length]
    omega
  rw [← stops] at rest
  have laid := Laid.piece stands some rest
  rw [stops] at laid
  exact laid

/-- Pieces one behind the other with only blanks between them are laid. -/
theorem laid_of_blankOutside {source : Text} {start stop : Int} {parts : List Stretch}
    (nonneg : 0 ≤ start) (forward : start ≤ stop) (within : stop ≤ source.length)
    (stacked : Stacked start stop parts) (blank : BlankOutside source ⟨start, stop⟩ parts) :
    Laid source start stop parts (parts.map (text source)) := by
  induction parts generalizing start with
  | nil =>
      refine Laid.blank_slice nonneg forward within ?_ (.done stop)
      apply Text.blank_slice nonneg forward
      intro place above below
      exact blank place above below fun part member => absurd member List.not_mem_nil
  | cons part rest ih =>
      obtain ⟨startInside, partForward, stopInside⟩ := stacked.inside part List.mem_cons_self
      obtain ⟨later, apartRest⟩ := List.pairwise_cons.mp stacked.apart
      have behind : Laid source part.stop stop rest (rest.map (text source)) := by
        apply ih (by omega) stopInside
        · exact ⟨fun other member => ⟨later other member,
            (stacked.inside other (List.mem_cons_of_mem _ member)).2⟩, apartRest⟩
        · intro place above below outside
          dsimp only at above below
          apply blank place (by dsimp only; omega) below
          intro other member
          rcases List.mem_cons.mp member with rfl | inRest
          · exact Or.inr above
          · exact outside other inRest
      refine Laid.blank_slice nonneg startInside (by omega) ?_
        (Laid.piece_slice (by omega) partForward (by omega) behind)
      apply Text.blank_slice nonneg startInside
      intro place above below
      apply blank place above (by dsimp only; omega)
      intro other member
      rcases List.mem_cons.mp member with rfl | inRest
      · exact Or.inl below
      · have := later other inRest
        exact Or.inl (by omega)

end Stretch

end DeclOrder
