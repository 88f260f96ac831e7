import Mathlib.Data.List.Forall2
import TigerTree.Proofs.Text.Lines
import TigerTree.Text.Fill

set_option autoImplicit false

/-!
Filled lines.

Lines fill a width with a text if the text comes back once the blanks that were dropped at their
ends are put there again, if none of them is too wide, and if none ends where the first word of the
next one would have had room. A character takes at most two columns, so every text has such lines
as soon as there are two.
-/

namespace TigerTree

@[simp]
theorem columns_nil : columns [] = 0 := rfl

@[simp]
theorem columns_cons (char : Char) (text : List Char) :
    columns (char :: text) = charColumns char + columns text := by
  rw [columns, List.foldl_cons, Nat.zero_add, ← Nat.add_zero (charColumns char)]
  apply List.foldl_hom (charColumns char + ·)
  exact fun total next => Nat.add_assoc _ total _

@[simp]
theorem columns_append (front back : List Char) :
    columns (front ++ back) = columns front + columns back := by
  induction front with
  | nil => simp
  | cons char front inductionHypothesis => simp [inductionHypothesis, Nat.add_assoc]

@[simp]
theorem columns_blanks (count : Nat) : columns (List.replicate count ' ') = count := by
  induction count with
  | zero => rfl
  | succ count inductionHypothesis =>
      rw [List.replicate_succ, columns_cons, inductionHypothesis, Nat.add_comm]
      rfl

theorem columns_reverse (text : List Char) : columns text.reverse = columns text := by
  induction text with
  | nil => rfl
  | cons char text inductionHypothesis =>
      rw [List.reverse_cons, columns_append, inductionHypothesis, columns_cons, columns_cons,
        columns_nil]
      omega

theorem columns_le_of_prefix {front text : List Char} (isPrefix : front <+: text) :
    columns front ≤ columns text := by
  obtain ⟨back, rfl⟩ := isPrefix
  rw [columns_append]
  exact Nat.le_add_right _ _

theorem charColumns_le (char : Char) : charColumns char ≤ 2 := by
  unfold charColumns
  dsimp only
  split
  · decide
  split
  · decide
  split
  · decide
  · decide

namespace Piece

/-- The text that pieces are made of. -/
def textOf (pieces : List Piece) : List Char :=
  pieces.flatMap fun piece => piece.word ++ List.replicate piece.gap ' '

@[simp]
theorem textOf_nil : textOf [] = [] := rfl

@[simp]
theorem textOf_cons (piece : Piece) (pieces : List Piece) :
    textOf (piece :: pieces) =
      piece.word ++ List.replicate piece.gap ' ' ++ textOf pieces := rfl

theorem textOf_prepend (char : Char) (pieces : List Piece) :
    textOf (prepend char pieces) = char :: textOf pieces := by
  cases pieces with
  | nil =>
      rw [prepend]
      split
      next blank => simp [blank]
      next => simp
  | cons piece pieces =>
      rw [prepend]
      split
      next => simp
      next blank =>
        rw [Decidable.not_not] at blank
        split
        next empty =>
          rw [List.isEmpty_iff] at empty
          simp [blank, empty, List.replicate_succ]
        next => simp [blank]

theorem textOf_split (text : List Char) : textOf (split text) = text := by
  induction text with
  | nil => rfl
  | cons char text inductionHypothesis =>
      rw [split, List.foldr_cons, textOf_prepend, ← split, inductionHypothesis]

theorem textOf_cutWord (width gap : Nat) (part word : List Char) :
    textOf (cutWord width gap part word) =
      part.reverse ++ word ++ List.replicate gap ' ' := by
  induction word generalizing part with
  | nil => simp [cutWord]
  | cons char word inductionHypothesis =>
      rw [cutWord]
      split
      next => simp [inductionHypothesis]
      next => simp [inductionHypothesis]

theorem textOf_cut (width : Nat) (piece : Piece) :
    textOf (cut width piece) = piece.word ++ List.replicate piece.gap ' ' := by
  rw [cut]
  split
  next => simp
  next => simp [textOf_cutWord]

theorem textOf_flatMap_cut (width : Nat) (pieces : List Piece) :
    textOf (pieces.flatMap (cut width)) = textOf pieces := by
  induction pieces with
  | nil => rfl
  | cons piece pieces inductionHypothesis =>
      have appended : textOf (cut width piece ++ pieces.flatMap (cut width)) =
          textOf (cut width piece) ++ textOf (pieces.flatMap (cut width)) := List.flatMap_append
      rw [List.flatMap_cons, appended, textOf_cut, inductionHypothesis, textOf_cons]

/-- A piece with a word in it that is no wider than a line. -/
structure Fits (width : Nat) (piece : Piece) : Prop where
  within : columns piece.word ≤ width
  solid : ' ' ∉ piece.word

theorem solid_prepend {char : Char} {pieces : List Piece}
    (solid : ∀ piece ∈ pieces, ' ' ∉ piece.word) :
    ∀ piece ∈ prepend char pieces, ' ' ∉ piece.word := by
  cases pieces with
  | nil =>
      rw [prepend]
      split
      next => simp
      next notBlank => simpa using Ne.symm notBlank
  | cons piece pieces =>
      obtain ⟨here, others⟩ := List.forall_mem_cons.mp solid
      rw [prepend]
      split
      next notBlank =>
        exact List.forall_mem_cons.mpr
          ⟨List.not_mem_cons_of_ne_of_not_mem (Ne.symm notBlank) here, others⟩
      next =>
        split
        next => exact List.forall_mem_cons.mpr ⟨List.not_mem_nil, others⟩
        next => exact List.forall_mem_cons.mpr ⟨List.not_mem_nil, solid⟩

theorem solid_split (text : List Char) : ∀ piece ∈ split text, ' ' ∉ piece.word := by
  induction text with
  | nil => exact fun _ mem => absurd mem List.not_mem_nil
  | cons char text inductionHypothesis => exact solid_prepend inductionHypothesis

variable {width : Nat}

theorem fits_reverse {part : List Char} (within : columns part ≤ width) (solid : ' ' ∉ part)
    (gap : Nat) : Fits width ⟨part.reverse, gap⟩ where
  within := by rwa [columns_reverse]
  solid := by rwa [List.mem_reverse]

/-- Two columns are enough for the character after a cut. -/
theorem fits_cutWord (room : 2 ≤ width) {gap : Nat} {part word : List Char}
    (within : columns part ≤ width) (partSolid : ' ' ∉ part) (wordSolid : ' ' ∉ word) :
    ∀ piece ∈ cutWord width gap part word, piece.Fits width := by
  induction word generalizing part with
  | nil => exact List.forall_mem_singleton.mpr (fits_reverse within partSolid gap)
  | cons char word inductionHypothesis =>
      rw [List.mem_cons, not_or] at wordSolid
      have narrow := charColumns_le char
      rw [cutWord]
      split
      next more =>
        have wider : columns (char :: part) ≤ width := by
          rw [columns_cons]
          rcases more with empty | more
          · rw [List.isEmpty_iff.mp empty, columns_nil]
            omega
          · omega
        have solid := List.not_mem_cons_of_ne_of_not_mem wordSolid.1 partSolid
        exact inductionHypothesis wider solid wordSolid.2
      next =>
        have first : columns [char] ≤ width := by
          rw [columns_cons, columns_nil]
          omega
        refine List.forall_mem_cons.mpr ⟨fits_reverse within partSolid 0, ?_⟩
        have solid := List.not_mem_cons_of_ne_of_not_mem wordSolid.1 List.not_mem_nil
        exact inductionHypothesis first solid wordSolid.2

theorem fits_cut (room : 2 ≤ width) {piece : Piece} (solid : ' ' ∉ piece.word) :
    ∀ part ∈ cut width piece, part.Fits width := by
  rw [cut]
  split
  next within => exact List.forall_mem_singleton.mpr ⟨within, solid⟩
  next => exact fits_cutWord room (Nat.zero_le _) List.not_mem_nil solid

end Piece

/-- The blanks between two lines are those that were dropped there. The first word of a line is
what stands in front of its first blank. -/
inductive Fills (width : Nat) : List (List Char) → List Char → Prop where
  | last {line gap} :
      columns line ≤ width → Fills width [line] (line ++ List.replicate gap ' ')
  | more {line gap next lines text} :
      columns line ≤ width →
      width < columns line + gap + columns (next.takeWhile (· ≠ ' ')) →
      Fills width (next :: lines) text →
      Fills width (line :: next :: lines) (line ++ List.replicate gap ' ' ++ text)

theorem Fills.columns_le {width : Nat} {lines : List (List Char)} {text : List Char}
    (fills : Fills width lines text) : ∀ line ∈ lines, columns line ≤ width := by
  induction fills with
  | last within => exact List.forall_mem_singleton.mpr within
  | more within _ _ inductionHypothesis =>
      exact List.forall_mem_cons.mpr ⟨within, inductionHypothesis⟩

theorem Fills.subset {width : Nat} {lines : List (List Char)} {text : List Char}
    (fills : Fills width lines text) : ∀ line ∈ lines, line ⊆ text := by
  induction fills with
  | last => exact List.forall_mem_singleton.mpr (List.subset_append_left _ _)
  | more _ _ _ inductionHypothesis =>
      refine List.forall_mem_cons.mpr ⟨?_, ?_⟩
      · rw [List.append_assoc]
        exact List.subset_append_left _ _
      · exact fun line mem char charMem =>
          List.mem_append_right _ (inductionHypothesis line mem charMem)

/-- The line that is being filled becomes the first line, with more behind it. -/
theorem Piece.fills_place {width : Nat} {pieces : List Piece}
    (fit : ∀ piece ∈ pieces, piece.Fits width) {line : List Char} (gap : Nat)
    (within : columns line ≤ width) :
    ∃ first others, place width line gap pieces = first :: others ∧ line <+: first ∧
      Fills width (first :: others) (line ++ List.replicate gap ' ' ++ textOf pieces) := by
  induction pieces generalizing line gap with
  | nil =>
      refine ⟨line, [], rfl, List.prefix_refl line, ?_⟩
      rw [textOf_nil, List.append_nil]
      exact .last within
  | cons piece pieces inductionHypothesis =>
      obtain ⟨fits, fit⟩ := List.forall_mem_cons.mp fit
      rw [place]
      split
      next room =>
        have within : columns (line ++ List.replicate gap ' ' ++ piece.word) ≤ width := by
          rwa [columns_append, columns_append, columns_blanks]
        obtain ⟨first, others, placed, isPrefix, fills⟩ :=
          inductionHypothesis fit piece.gap within
        refine ⟨first, others, placed, ?_, ?_⟩
        · rw [List.append_assoc] at isPrefix
          exact (List.prefix_append _ _).trans isPrefix
        · simpa only [textOf_cons, List.append_assoc] using fills
      next noRoom =>
        obtain ⟨first, others, placed, isPrefix, fills⟩ :=
          inductionHypothesis fit piece.gap fits.within
        refine ⟨line, first :: others, by rw [placed], List.prefix_refl line, ?_⟩
        -- More pieces may follow on that line before a blank does, so the word is only a part of
        -- the first word there.
        have wordIn : piece.word <+: first.takeWhile (· ≠ ' ') := by
          obtain ⟨behind, rfl⟩ := isPrefix
          rw [List.takeWhile_append_of_pos]
          · exact List.prefix_append _ _
          · intro char mem
            exact decide_eq_true fun blank => fits.solid (blank ▸ mem)
        have wide := columns_le_of_prefix wordIn
        rw [textOf_cons]
        exact .more within (by omega) fills

theorem fills_fill {width : Nat} (room : 2 ≤ width) (text : List Char) :
    Fills width (fill width text) text := by
  have fit : ∀ piece ∈ (Piece.split text).flatMap (Piece.cut width), piece.Fits width := by
    intro part mem
    obtain ⟨piece, pieceMem, partMem⟩ := List.mem_flatMap.mp mem
    exact Piece.fits_cut room (Piece.solid_split text piece pieceMem) part partMem
  have empty : columns [] ≤ width := Nat.zero_le width
  obtain ⟨first, others, placed, -, fills⟩ := Piece.fills_place fit 0 empty
  rw [fill, placed]
  simpa [Piece.textOf_flatMap_cut, Piece.textOf_split] using fills

/-- Lines of a text, each paragraph on lines of its own. -/
def FillsText (width : Nat) (lines : List String) (text : String) : Prop :=
  ∃ paragraphs, List.Forall₂ (Fills width) paragraphs (linesOf text.toList) ∧
    lines = paragraphs.flatten.map String.ofList

theorem exists_fills_of_mem {width : Nat} {paragraphs : List (List (List Char))}
    {texts : List (List Char)} (fills : List.Forall₂ (Fills width) paragraphs texts) :
    ∀ paragraph ∈ paragraphs, ∃ text ∈ texts, Fills width paragraph text := by
  induction fills with
  | nil => exact fun _ mem => absurd mem List.not_mem_nil
  | cons fills _ inductionHypothesis =>
      refine List.forall_mem_cons.mpr ⟨⟨_, List.mem_cons_self, fills⟩, ?_⟩
      intro paragraph mem
      obtain ⟨text, textMem, fills⟩ := inductionHypothesis paragraph mem
      exact ⟨text, List.mem_cons_of_mem _ textMem, fills⟩

theorem FillsText.within {width : Nat} {lines : List String} {text : String}
    (fills : FillsText width lines text) :
    ∀ line ∈ lines, '\n' ∉ line.toList ∧ columns line.toList ≤ width := by
  obtain ⟨paragraphs, fills, rfl⟩ := fills
  intro line lineMem
  obtain ⟨chars, charsMem, rfl⟩ := List.mem_map.mp lineMem
  obtain ⟨paragraph, paragraphMem, mem⟩ := List.mem_flatten.mp charsMem
  obtain ⟨source, sourceMem, fills⟩ := exists_fills_of_mem fills paragraph paragraphMem
  rw [String.toList_ofList]
  exact ⟨fun lineFeed => notMem_of_mem_splitAtEach source sourceMem (fills.subset _ mem lineFeed),
    fills.columns_le chars mem⟩

theorem fillsText_fillParagraphs {width : Nat} (room : 2 ≤ width) (text : String) :
    FillsText width (fillParagraphs width text) text := by
  refine ⟨(linesOf text.toList).map (fill width), ?_, ?_⟩
  · rw [List.forall₂_map_left_iff, List.forall₂_same]
    exact fun paragraph _ => fills_fill room paragraph
  · rw [fillParagraphs, List.flatMap_def, linesOf]

end TigerTree
