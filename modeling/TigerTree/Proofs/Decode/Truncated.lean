import TigerTree.Proofs.Decode.Cut

set_option autoImplicit false

/-!
Encodings that are cut short.

Every reader takes the encodings it is for, up to the place where one is cut, and there it finds
the end of the source. So a cut encoding is always reported as one, never as broken JSON or as
another tree.
-/

namespace TigerTree

open Decode
open Decode.Outcome (Truncated Starved)
open Json (Gives Rule Value)

section Shapes

variable {limit bound : Nat} {tree : Reader Expr}

theorem Shape.read_nil (ended : (tree []).Starved) (shape : Shape) :
    (shape.read bound tree []).Starved := by
  match shape with
  | .int32 | .text | .operator | .null _ | .list _ | .record _ _ => exact .failed rfl
  | .tree => exact ended
  | .optional content => exact (content.read_nil ended).map some

theorem value_skipBlanks_write (value : Json) (more : List Char) :
    Value (skipBlanks (value.write more)) value.toWritten more := by
  have spelled := Json.value_write more value
  rwa [skipBlanks_eq_of_value .done spelled]

theorem afterKey_write (value : Json) (more : List Char) :
    AfterKey (':' :: value.write more) value.toWritten more :=
  ⟨_, .done, value_skipBlanks_write value more⟩

/-- An encoding is read from its shape in front of any text that does not go on with it. -/
theorem Shape.Encoding.exists_read (le : limit ≤ bound)
    (complete : CompleteBelow limit tree Rule.ofExpr) {shape : Shape} {value : Json}
    (encoding : shape.Encoding value) (distinct : shape.Distinct) {more : List Char}
    (short : (value.write more).length < limit) (stops : continuesNumber more = false) :
    ∃ content, shape.read bound tree (value.write more) = .ok content more := by
  obtain ⟨content, rule⟩ := encoding.exists_rule distinct
  exact ⟨content, shape.read_complete le complete distinct short (value_skipBlanks_write value more)
    (endsAt_of_not_continues stops) rule⟩

theorem Fields.Encoding.key_mem {fields : Fields} {members : List (String × Json)}
    (encoding : fields.Encoding members) {key : String} {value : Json}
    (mem : (key, value) ∈ members) : key ∈ fields.names :=
  encoding.names_eq ▸ List.mem_map_of_mem mem

mutual

theorem Shape.Encoding.takes (le : limit ≤ bound)
    (complete : CompleteBelow limit tree Rule.ofExpr) (ended : (tree []).Starved)
    (trees : ∀ expr, Takes limit tree (.ofExpr expr)) {shape : Shape} {value : Json}
    (encoding : shape.Encoding value) (distinct : shape.Distinct) :
    Takes limit (shape.read bound tree) value where
  whole short stops := encoding.exists_read le complete distinct short stops
  cut short cut := by
    match encoding with
    | .int32 content => exact int32_cut cut
    | .text content => exact (text_cut cut).starved
    | .operator symbol => exact ((text_cut cut).map _).starved
    | .tree expr => exact (trees expr).cut short cut
    | .null => exact (null_cut cut).starved
    | .list encodings =>
        have takes := fun item mem => (encodings item mem).takes le complete ended trees distinct
        exact (list_cut takes short cut).starved
    | .absent => exact optional_cut cut (absurd rfl) (Shape.read_nil ended _)
    | .present encoding =>
        have starved := (encoding.takes le complete ended trees distinct).cut short cut
        exact optional_cut cut (fun _ => starved) (Shape.read_nil ended _)
    | @Shape.Encoding.record _ fields _ encoding =>
        obtain ⟨contents, given⟩ := encoding.exists_gives distinct
        have fresh := encoding.nodup distinct
        refine (record_cut fresh contents ?_ ?_ short cut).starved
        · intro keys key value more mem unread short stops
          refine fields.put_complete le complete distinct ?_ short (afterKey_write value more) stops
          intro field fieldMem named
          exact ⟨unread, rule_of_gives fresh given fieldMem mem named⟩
        · intro keys key value front mem unread
          exact encoding.put_cut le complete ended trees distinct mem unread

theorem Fields.Encoding.put_cut (le : limit ≤ bound)
    (complete : CompleteBelow limit tree Rule.ofExpr) (ended : (tree []).Starved)
    (trees : ∀ expr, Takes limit tree (.ofExpr expr)) {fields : Fields}
    {members : List (String × Json)} (encoding : fields.Encoding members)
    (distinct : fields.Distinct) {contents : fields.Content} {keys : List String} {key : String}
    {value : Json} (mem : (key, value) ∈ members) (unread : key ∉ keys) {front : List Char}
    (short : front.length < limit) (cut : Cut front (':' :: value.write [])) :
    (fields.put bound tree key (fields.slotsAfter contents keys) front).Starved := by
  match encoding, contents with
  | .nil, _ => simp at mem
  | .cons encoding encodings, (content, contents) =>
      obtain ⟨fresh, distinct, othersDistinct⟩ := distinct
      rw [Fields.slotsAfter, Fields.put]
      split
      next isNamed =>
        subst isNamed
        obtain rfl : value = _ := by
          rcases List.mem_cons.mp mem with same | mem
          · exact (Prod.mk.inj same).2
          · exact absurd (encodings.key_mem mem) fresh
        have takes := encoding.takes le complete ended trees distinct
        rw [if_neg unread]
        refine colon_cut cut ?_
        rintro start rfl cut
        exact (takes.cut (Nat.lt_of_succ_lt short) cut).map _
      next other =>
        have mem : (key, value) ∈ _ := (List.mem_cons.mp mem).resolve_left fun same =>
          other (Prod.mk.inj same).1
        exact (encodings.put_cut le complete ended trees othersDistinct mem unread short cut).map _

end

end Shapes

namespace Decode

theorem tree_nil (bound depth : Nat) : (tree bound depth []).Truncated := by
  cases depth with
  | zero => exact .failed rfl
  | succ depth => exact .failed rfl

theorem tree_cut {bound depth : Nat} (le : depth ≤ bound) {expr : Expr} {front : List Char}
    (short : front.length < depth) (cut : Cut front ((Json.ofExpr expr).write [])) :
    (tree bound depth front).Truncated := by
  induction depth generalizing expr front with
  | zero => exact absurd short (Nat.not_lt_zero _)
  | succ depth inductionHypothesis =>
      have le := Nat.le_of_succ_le le
      have complete := tree_complete le
      have trees (expr : Expr) : Takes depth (tree bound depth) (.ofExpr expr) := by
        refine ⟨fun short stops => ?_, fun short cut => (inductionHypothesis le short cut).starved⟩
        exact ⟨_, complete short (value_skipBlanks_write _ _) (endsAt_of_not_continues stops)
          (Json.ofExpr_written expr)⟩
      obtain ⟨value, equality, encoding⟩ := Json.exists_payload expr
      have takes := encoding.takes le complete (tree_nil bound depth).starved trees
        expr.kind.payload_distinct
      rw [equality] at cut
      exact tagged_cut (takes.map expr.kind.assemble) (Nat.le_of_lt_succ short) cut

theorem whole_of_truncated {α : Type} {read : Reader α} {source : List Char}
    (truncated : (read source).Truncated) :
    ∃ error, whole read source = .error error ∧ error.cause.category = .truncated := by
  unfold whole
  generalize read source = outcome at truncated
  obtain ⟨ended⟩ := truncated
  exact ⟨_, rfl, ended⟩

end Decode

/-- The encoding of a tree that is cut short anywhere is reported as one that ends too early. It is
never taken for another tree, for broken JSON, or for JSON of the wrong shape. -/
theorem decode_cut (expr : Expr) {front : String}
    (isPrefix : front.toList <+: expr.encode.toList) (proper : front ≠ expr.encode) :
    ∃ error, decode front = .error error ∧ error.cause.category = .truncated := by
  have cut : Cut front.toList ((Json.ofExpr expr).write []) := by
    have cut := cut_iff.mpr ⟨isPrefix, fun same => proper (String.toList_injective same)⟩
    rwa [Expr.encode, Json.compact, String.toList_ofList] at cut
  exact Decode.whole_of_truncated (Decode.tree_cut (Nat.le_refl _) (Nat.lt_succ_self _) cut)

/-- Even where what is left of a number is a number. -/
theorem decode_cut_integerLiteral :
    ∃ error, decode "\x7b\"IntegerLiteral\":\x7b\"value\":-1" = .error error ∧
      error.cause.category = .truncated := by
  have written : (Expr.integerLiteral (-12)).encode =
      "\x7b\"IntegerLiteral\":\x7b\"value\":-12\x7d\x7d" := by decide
  exact decode_cut (.integerLiteral (-12)) (by rw [written]; decide) (by rw [written]; decide)

end TigerTree
