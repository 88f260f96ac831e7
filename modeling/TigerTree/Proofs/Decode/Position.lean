import TigerTree.Proofs.Decode.Placed
import TigerTree.Proofs.Decode.Tree

set_option autoImplicit false

/-!
Positions of decoding errors.

Brackets give a place to whatever was refused between them, so only a tree that is not between
brackets can be refused without a place, and that is a bare kind. Every other error has the
position of a number of bytes into the source.
-/

namespace TigerTree

open Decode
open Decode.Outcome (Placed Reached)
open Json (Blanks Denotes Piece Pieces)

namespace Decode

variable {α : Type} {limit : Nat} {source rest : List Char}

theorem Outcome.Reached.close {outcome : Outcome α} (reached : outcome.Reached limit)
    {finish : Reader Unit} (places : Places finish) {settle : List Char → List Char}
    (settles : ∀ ⦃rest⦄, byteLength rest ≤ limit → byteLength (settle rest) ≤ limit) :
    (outcome.close finish settle).Placed limit := by
  cases reached with
  | ok le => exact (places le).map _
  | failed le => exact .failed le
  | refused le => exact placed_failAt (settles le)

theorem places_nextElement (first : Bool) : Places (nextElement first) := by
  intro source limit le
  have le := skipBlanks_le le
  unfold nextElement
  generalize skipBlanks source = front at le
  split
  · exact placed_failNext le
  · exact .ok le
  split
  · exact .ok le
  split
  · have le := skipBlanks_le (tail_le le)
    split
    · exact placed_failNext (Nat.zero_le _)
    next skipped => exact placed_failNext (skipped ▸ le)
    · exact .ok le
  · exact placed_failNext le

theorem places_nextKey (first : Bool) : Places (nextKey first) := by
  intro source limit le
  have le := skipBlanks_le le
  unfold nextKey
  generalize skipBlanks source = front at le
  split
  · exact placed_failNext le
  · exact .ok le
  split
  · split
    · exact (places_readText (tail_le le)).map _
    · exact placed_failNext le
  split
  · have le := skipBlanks_le (tail_le le)
    split
    next skipped => exact (places_readText (tail_le (skipped ▸ le))).map _
    next skipped => exact placed_failNext (skipped ▸ le)
    · exact placed_failNext (Nat.zero_le _)
    · exact placed_failNext le
  · exact placed_failNext le

theorem places_endList : Places endList := by
  intro source limit le
  have le := skipBlanks_le le
  unfold endList
  generalize skipBlanks source = front at le
  split
  · exact .ok (tail_le le)
  · have le := skipBlanks_le (tail_le le)
    split
    next skipped => exact placed_failNext (skipped ▸ le)
    · exact placed_failNext le
  · exact placed_failNext le
  · exact placed_failNext le

theorem settleList_le (le : byteLength source ≤ limit) :
    byteLength (settleList source) ≤ limit := by
  have le := skipBlanks_le le
  unfold settleList
  generalize skipBlanks source = front at le
  split
  · exact tail_le le
  · exact skipBlanks_le (tail_le le)
  · exact le

theorem places_endObject : Places endObject := by
  intro source limit le
  have le := skipBlanks_le le
  unfold endObject
  generalize skipBlanks source = front at le
  split
  · exact .ok (tail_le le)
  · exact placed_failNext le
  · exact placed_failNext le
  · exact placed_failNext le

theorem settleObject_le (le : byteLength source ≤ limit) :
    byteLength (settleObject source) ≤ limit := by
  have le := skipBlanks_le le
  unfold settleObject
  generalize skipBlanks source = front at le
  split
  · exact tail_le le
  · exact le

theorem places_inList {contents : Reader α} (reaches : Reaches contents) :
    Places (inList contents) :=
  fun _ _ le => (reaches le).close places_endList fun _ => settleList_le

theorem places_inObject {contents : Reader α} (reaches : Reaches contents) :
    Places (inObject contents) :=
  fun _ _ le => (reaches le).close places_endObject fun _ => settleObject_le

theorem reaches_elements {read : Reader α} (reaches : Reaches read) (bound : Nat)
    (taken : List α) : Reaches (elements read bound taken) := by
  intro source limit le
  induction bound generalizing taken source with
  | zero => exact places_exhausted.reaches le
  | succ bound inductionHypothesis =>
      have separated := places_nextElement taken.isEmpty le
      unfold elements
      generalize nextElement taken.isEmpty source = outcome at separated
      cases separated with
      | failed le => exact .failed le
      | @ok more rest le =>
          cases more with
          | false => exact .ok le
          | true =>
              have element := reaches le
              dsimp only
              generalize read rest = outcome at element
              cases element with
              | ok le => exact inductionHypothesis _ le
              | failed le => exact .failed le
              | refused le => exact .refused le

theorem reaches_members {put : String → α → Reader α}
    (reaches : ∀ key slots, Reaches (put key slots)) (bound : Nat) (first : Bool) (slots : α) :
    Reaches (members put bound first slots) := by
  intro source limit le
  induction bound generalizing first slots source with
  | zero => exact places_exhausted.reaches le
  | succ bound inductionHypothesis =>
      have separated := places_nextKey first le
      unfold members
      generalize nextKey first source = outcome at separated
      cases separated with
      | failed le => exact .failed le
      | @ok key rest le =>
          cases key with
          | none => exact .ok le
          | some key =>
              have member := reaches key slots le
              dsimp only
              generalize put key slots rest = outcome at member
              cases member with
              | ok le => exact inductionHypothesis false _ le
              | failed le => exact .failed le
              | refused le => exact .refused le

theorem places_list {read : Reader α} (reaches : Reaches read) (bound : Nat) :
    Places (list bound read) := by
  intro source limit le
  have le := skipBlanks_le le
  unfold list
  generalize skipBlanks source = front at le
  split
  · exact places_inList (reaches_elements reaches bound []) (tail_le le)
  · exact places_mismatch _ le

theorem places_skippedMember (bound : Nat) : Places (skippedMember bound) :=
  fun _ _ le => (places_colon le).andThen fun _ _ le => places_skipValue bound le

theorem places_record {fields : Fields} {put : String → fields.Slots → Reader fields.Slots}
    {inOrder : Reader fields.Content} (putReaches : ∀ key slots, Reaches (put key slots))
    (inOrderReaches : Reaches inOrder) (bound : Nat) (name : String) :
    Places (record bound name fields put inOrder) := by
  intro source limit le
  have le := skipBlanks_le le
  unfold record
  generalize skipBlanks source = front at le
  split
  · refine places_inObject ?_ (tail_le le)
    intro source limit le
    refine (reaches_members putReaches bound true fields.emptySlots le).andThen ?_
    intro slots rest le
    split
    · exact .ok le
    · exact .refused le
  · exact places_inList inOrderReaches (tail_le le)
  · exact places_mismatch _ le

end Decode

section Shapes

variable {tree : Reader Expr}

mutual

theorem Shape.reaches_read (bound : Nat) (reaches : Reaches tree) :
    (shape : Shape) → Reaches (shape.read bound tree)
  | .int32 => places_int32.reaches
  | .text => places_text.reaches
  | .operator => fun _ _ le => ((places_text le).map _).reached
  | .tree => reaches
  | .null expectation => (places_null expectation).reaches
  | .list element => (places_list (element.reaches_read bound reaches) bound).reaches
  | .optional content => reaches_optional (content.reaches_read bound reaches)
  | .record name fields =>
      (places_record (fields.reaches_put bound reaches)
        (fields.reaches_inOrder bound reaches name fields.length 0) bound name).reaches

theorem Fields.reaches_put (bound : Nat) (reaches : Reaches tree) :
    (fields : Fields) → (key : String) → (slots : fields.Slots) →
      Reaches (fields.put bound tree key slots)
  | .nil, _, _ => (places_skippedMember bound).reaches
  | .cons name shape _ others, key, (slot, slots) => by
      intro source limit le
      rw [Fields.put]
      split
      · split
        · exact .refused le
        · refine (places_colon le).reached.andThen fun _ rest le => ?_
          exact (shape.reaches_read bound reaches le).map _
      · exact (others.reaches_put bound reaches key slots le).map _

theorem Fields.reaches_inOrder (bound : Nat) (reaches : Reaches tree) (name : String)
    (total count : Nat) : (fields : Fields) →
      Reaches (fields.inOrder bound tree name total count)
  | .nil => fun _ _ le => .ok le
  | .cons _ shape presence others => by
      intro source limit le
      have following {rest : List Char} (le : byteLength rest ≤ limit) :=
        others.reaches_inOrder bound reaches name total (count + 1) le
      refine (places_nextElement _ le).reached.andThen fun more rest le => ?_
      split
      · refine (shape.reaches_read bound reaches le).andThen fun content rest le => ?_
        exact (following le).map _
      · split
        · exact (following le).map _
        · exact .refused le

end

end Shapes

namespace Decode

section Trees

variable {α : Type} {source : List Char} {payload bare : NodeKind → Reader α}

end Trees

section Whole

variable {α : Type} {read : Reader α} {source : List Char} {error : DecodeError}

end Whole

end Decode

/-- Whether a result is a given error can be decided, whatever other results there are. -/
instance decidableEqError {Error Value : Type} [DecidableEq Error] (result : Except Error Value)
    (error : Error) : Decidable (result = .error error) :=
  match result with
  | .ok _ => isFalse nofun
  | .error found =>
      decidable_of_iff (found = error) ⟨congrArg Except.error, Except.error.inj⟩

end TigerTree
