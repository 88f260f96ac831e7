import TigerTree.Proofs.Decode.RoundTrip

set_option autoImplicit false

/-!
What follows a tree.

A phrase of the grammar says nothing about the text behind it, so it stays a phrase in front of
any other text. A source that is decoded may therefore be followed by blanks, which change
nothing, and by nothing else.
-/

namespace TigerTree

namespace Json

section Append

variable {source rest : List Char}

theorem Blanks.append (blanks : Blanks source rest) (more : List Char) :
    Blanks (source ++ more) (rest ++ more) := by
  induction blanks with
  | done => exact .done
  | blank member _ inductionHypothesis => exact .blank member inductionHypothesis

theorem CodeUnit.append {number : Nat} (unit : CodeUnit source number rest) (more : List Char) :
    CodeUnit (source ++ more) number (rest ++ more) := by
  obtain ⟨first, second, third, fourth⟩ := unit
  exact .digits first second third fourth

theorem Pieces.append {pieces : List Piece} (spelled : Pieces source pieces rest)
    (more : List Char) : Pieces (source ++ more) pieces (rest ++ more) := by
  induction spelled with
  | close => exact .close
  | plain quote backslash control _ inductionHypothesis =>
      exact .plain quote backslash control inductionHypothesis
  | letter named _ inductionHypothesis => exact .letter named inductionHypothesis
  | unit unit _ inductionHypothesis => exact .unit (unit.append more) inductionHypothesis

theorem Digits.append (digits : Digits source rest) (more : List Char) :
    Digits (source ++ more) (rest ++ more) := by
  obtain ⟨present, isDigits⟩ := digits
  rw [List.append_assoc]
  exact .digits present isDigits

theorem Whole.append {magnitude : Nat} (whole : Whole source magnitude rest) (more : List Char) :
    Whole (source ++ more) magnitude (rest ++ more) := by
  cases whole with
  | zero => exact .zero
  | digits digit nonzero isDigits =>
      rw [List.cons_append, List.append_assoc]
      exact .digits digit nonzero isDigits

theorem Sign.append (sign : Sign source rest) (more : List Char) :
    Sign (source ++ more) (rest ++ more) := by
  cases sign with
  | absent => exact .absent
  | plus => exact .plus
  | minus => exact .minus

theorem Exponent.append (exponent : Exponent source rest) (more : List Char) :
    Exponent (source ++ more) (rest ++ more) := by
  obtain ⟨isLetter, sign, digits⟩ := exponent
  exact .exponent isLetter (sign.append more) (digits.append more)

theorem Refinement.append (refinement : Refinement source rest) (more : List Char) :
    Refinement (source ++ more) (rest ++ more) := by
  cases refinement with
  | fraction digits => exact .fraction (digits.append more)
  | exponent exponent => exact .exponent (exponent.append more)
  | both digits exponent => exact .both (digits.append more) (exponent.append more)

theorem Number.append {negative : Bool} {value : Written}
    (number : Number negative source value rest) (more : List Char) :
    Number negative (source ++ more) value (rest ++ more) := by
  cases number with
  | integer whole => exact .integer (whole.append more)
  | real whole refinement => exact .real (whole.append more) (refinement.append more)

theorem Separator.append {first : Bool} (separator : Separator first source rest)
    (more : List Char) : Separator first (source ++ more) (rest ++ more) := by
  cases separator with
  | opening => exact .opening
  | comma blanks => exact .comma (blanks.append more)

end Append

mutual

theorem Value.append {source rest : List Char} {value : Written} (more : List Char) :
    Value source value rest → Value (source ++ more) value (rest ++ more)
  | .null => .null
  | .true => .true
  | .false => .false
  | .number unsigned => .number (unsigned.append more)
  | .negative unsigned => .negative (unsigned.append more)
  | .text spelled => .text (spelled.append more)
  | .array items => .array (items.append more)
  | .object members => .object (members.append more)

theorem Items.append {first : Bool} {source rest : List Char} {items : List Written}
    (more : List Char) :
    Items first source items rest → Items first (source ++ more) items (rest ++ more)
  | .close blanks => .close (blanks.append more)
  | .item separator blanks value items =>
      .item (separator.append more) (blanks.append more) (value.append more) (items.append more)

theorem Members.append {first : Bool} {source rest : List Char}
    {members : List (List Piece × Written)} (more : List Char) :
    Members first source members rest → Members first (source ++ more) members (rest ++ more)
  | .close blanks => .close (blanks.append more)
  | .member separator blanks member members =>
      .member (separator.append more) (blanks.append more) (member.append more)
        (members.append more)

theorem Member.append {source rest : List Char} {member : List Piece × Written}
    (more : List Char) : Member source member rest → Member (source ++ more) member (rest ++ more)
  | .pair key colon blanks value =>
      .pair (key.append more) (colon.append more) (blanks.append more) (value.append more)

end

theorem blanks_nil_iff {source : List Char} :
    Blanks source [] ↔ ∀ char ∈ source, char ∈ blankChars := by
  constructor
  · intro blanks
    generalize empty : ([] : List Char) = rest at blanks
    induction blanks with
    | done =>
        subst empty
        simp
    | blank member _ inductionHypothesis =>
        exact List.forall_mem_cons.mpr ⟨member, inductionHypothesis empty⟩
  · intro blank
    induction source with
    | nil => exact .done
    | cons char source inductionHypothesis =>
        rw [List.forall_mem_cons] at blank
        exact .blank blank.1 (inductionHypothesis blank.2)

/-- Behind blanks that end a source, only blanks leave it ended. -/
theorem Blanks.append_nil_iff {source more : List Char} (blanks : Blanks source []) :
    Blanks (source ++ more) [] ↔ ∀ char ∈ more, char ∈ blankChars := by
  rw [blanks_nil_iff, List.forall_mem_append]
  exact and_iff_right (blanks_nil_iff.mp blanks)

end Json

namespace Decode

theorem whole_of_trailing {α : Type} {read : Reader α} {source rest : List Char} {value : α}
    (accepted : read source = .ok value rest) (trailing : ¬ Json.Blanks rest []) :
    ∃ position, whole read source = .error ⟨.trailingCharacters, some position⟩ := by
  rw [← skipBlanks_eq_nil_iff] at trailing
  obtain ⟨char, others, skipped⟩ := List.exists_cons_of_ne_nil trailing
  simp only [whole, accepted, Outcome.andThen, skipped]
  exact ⟨_, rfl⟩

end Decode

variable {source : String} {expr : Expr}

/-- The tree of a source is read in the same way from any longer source. -/
theorem exists_tree_append (decoded : decode source = .ok expr) :
    ∃ after, Json.Blanks after [] ∧ ∀ more bound, (source.toList ++ more).length < bound →
      Decode.tree bound bound (source.toList ++ more) = .ok expr (after ++ more) := by
  obtain ⟨front, written, after, opened, spelled, closed, rule⟩ := decode_sound decoded
  refine ⟨after, closed, fun more bound short => ?_⟩
  have notNumber : Decode.EndsAt written (after ++ more) := by
    obtain ⟨content, equality⟩ := NodeKind.exists_assemble expr
    rw [← equality, NodeKind.ofExpr_assemble] at rule
    obtain ⟨key, value, rfl, -⟩ := Decode.exists_of_node rule
    trivial
  refine Decode.tree_complete (Nat.le_refl _) short ?_ notNumber rule
  rw [Decode.skipBlanks_eq_of_value (opened.append more) (spelled.append more)]
  exact spelled.append more

/-- A source that is decoded may be followed by blanks, and then has the same tree. Followed by
anything else it is malformed, so no longer source has another tree. -/
theorem decode_append (decoded : decode source = .ok expr) (more : String) :
    ((∀ char ∈ more.toList, char ∈ Json.blankChars) → decode (source ++ more) = .ok expr) ∧
      ((¬ ∀ char ∈ more.toList, char ∈ Json.blankChars) →
        ∃ error, decode (source ++ more) = .error error ∧ error.cause.category = .malformed) ∧
      ∀ other, decode (source ++ more) = .ok other → other = expr := by
  obtain ⟨after, closed, read⟩ := exists_tree_append decoded
  have accepted := read more.toList _ (Nat.lt_succ_self _)
  rw [← String.toList_append] at accepted
  have blank : (∀ char ∈ more.toList, char ∈ Json.blankChars) →
      decode (source ++ more) = .ok expr := by
    intro blanks
    rw [decode, Decode.whole_eq_ok_iff]
    exact ⟨_, accepted, closed.append_nil_iff.mpr blanks⟩
  have trailing : (¬ ∀ char ∈ more.toList, char ∈ Json.blankChars) →
      ∃ error, decode (source ++ more) = .error error ∧ error.cause.category = .malformed := by
    intro solid
    obtain ⟨position, failed⟩ :=
      Decode.whole_of_trailing accepted (mt closed.append_nil_iff.mp solid)
    exact ⟨_, failed, rfl⟩
  refine ⟨blank, trailing, fun other decoded' => ?_⟩
  by_cases blanks : ∀ char ∈ more.toList, char ∈ Json.blankChars
  · rw [blank blanks, Except.ok.injEq] at decoded'
    exact decoded'.symm
  · obtain ⟨error, failed, -⟩ := trailing blanks
    rw [failed] at decoded'
    cases decoded'

/-- A `break` on a line of its own is a tree, and no more so with a brace on the next line. -/
theorem decode_append_breakOut :
    decode Expr.breakOut.encode = .ok .breakOut ∧
      decode (Expr.breakOut.encode ++ " \r\n") = .ok .breakOut ∧
      ∃ error, decode (Expr.breakOut.encode ++ " \r\n" ++ "\t\x7d") = .error error ∧
        error.cause.category = .malformed := by
  have decoded : decode Expr.breakOut.encode = .ok .breakOut := decode_encode_normalized .breakOut
  have followed := (decode_append decoded " \r\n").1 (by simp [Json.blankChars])
  exact ⟨decoded, followed, (decode_append followed "\t\x7d").2.1 (by simp [Json.blankChars])⟩

end TigerTree
