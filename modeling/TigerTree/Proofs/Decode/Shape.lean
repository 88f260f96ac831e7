import TigerTree.Decode.Tree
import TigerTree.Proofs.Decode.Bracket

set_option autoImplicit false

/-!
Shapes, read as their rules say.

The reader of a shape is sound and complete for the rule of the shape if the reader of trees is
for trees. Of a record that is given as an object, the slots say at any time which fields have
been read, and what of each is known from the members passed so far.
-/

namespace TigerTree

open Json (Blanks Items Rule Value Written)

mutual

/-- The written values that hold the content of a shape. -/
def Shape.rule : (shape : Shape) → shape.Content → Rule
  | .int32, value => .int32 value
  | .text, value => .text value
  | .operator, op => .operator op
  | .tree, expr => .ofExpr expr
  | .null _, _ => .null
  | .list element, contents => .array (contents.map element.rule)
  | .optional content, value => .optional (value.map content.rule)
  | .record _ fields, contents => .record (fields.rules contents)

/-- The fields of a record with their contents. -/
def Fields.rules : (fields : Fields) → fields.Content → List Json.Field
  | .nil, _ => []
  | .cons name shape presence others, (content, contents) =>
      ⟨name, shape.rule content, presence.default? shape = some content⟩ :: others.rules contents

end

def Fields.names : Fields → List String
  | .nil => []
  | .cons name _ _ others => name :: others.names

mutual

/-- The fields of each record in a shape have different names. -/
def Shape.Distinct : Shape → Prop
  | .list element => element.Distinct
  | .optional content => content.Distinct
  | .record _ fields => fields.Distinct
  | _ => True

def Fields.Distinct : Fields → Prop
  | .nil => True
  | .cons name shape _ others => name ∉ others.names ∧ shape.Distinct ∧ others.Distinct

end

namespace Decode

/-- A slot is empty as long as no member has its name, and is then filled from the only one. -/
def SlotHolds {α : Type} (name : String) (rule : α → Rule) (members : List (String × Written)) :
    Option α → Prop
  | none => ∀ member ∈ members, member.1 ≠ name
  | some content =>
      ∃ written, members.filter (fun member => member.1 = name) = [(name, written)] ∧
        rule content written

theorem SlotHolds.append {α : Type} {name : String} {rule : α → Rule}
    {members : List (String × Written)} {slot : Option α} (holds : SlotHolds name rule members slot)
    {key : String} (other : key ≠ name) (written : Written) :
    SlotHolds name rule (members ++ [(key, written)]) slot := by
  cases slot with
  | none =>
      intro member mem
      rcases (List.mem_append.mp mem).imp_right List.mem_singleton.mp with mem | rfl
      · exact holds member mem
      · exact other
  | some content =>
      obtain ⟨value, only, holds⟩ := holds
      exact ⟨value, by simp [List.filter_append, only, other], holds⟩

end Decode

open Decode

def Fields.Filled : (fields : Fields) → List (String × Written) → fields.Slots → Prop
  | .nil, _, _ => True
  | .cons name shape _ others, members, (slot, slots) =>
      SlotHolds name shape.rule members slot ∧ others.Filled members slots

theorem Fields.filled_emptySlots : (fields : Fields) → fields.Filled [] fields.emptySlots
  | .nil => trivial
  | .cons _ _ _ others => ⟨by simp [SlotHolds], others.filled_emptySlots⟩

/-- A member that no field is named for fills no slot. -/
theorem Fields.Filled.append_of_not_mem {fields : Fields} {members : List (String × Written)}
    {slots : fields.Slots} (filled : fields.Filled members slots) {key : String}
    (notMem : key ∉ fields.names) (written : Written) :
    fields.Filled (members ++ [(key, written)]) slots := by
  match fields, slots with
  | .nil, _ => trivial
  | .cons name shape presence others, (slot, slots) =>
      rw [Fields.names, List.mem_cons, not_or] at notMem
      exact ⟨filled.1.append notMem.1 written, filled.2.append_of_not_mem notMem.2 written⟩

/-- What is complete has each field among the members, or may leave it out. -/
theorem Fields.among_of_complete {fields : Fields} {members : List (String × Written)}
    {slots : fields.Slots} {contents : fields.Content} (filled : fields.Filled members slots)
    (completed : fields.complete slots = .ok contents) :
    ∀ field ∈ fields.rules contents, field.Among members := by
  match fields, slots, contents with
  | .nil, _, _ => simp [Fields.rules]
  | .cons name shape presence others, (slot, slots), (content, contents) =>
      intro field mem
      rw [Fields.complete] at completed
      split at completed
      next content' chosen =>
        cases rest : others.complete slots with
        | error missing => simp [rest, Except.map] at completed
        | ok contents' =>
            rw [rest] at completed
            cases completed
            rw [Fields.rules, List.mem_cons] at mem
            rcases mem with rfl | mem
            · cases slot with
              | none => exact .inr ⟨by simpa using chosen, filled.1⟩
              | some content =>
                  obtain ⟨written, only, holds⟩ := filled.1
                  simp only [Option.some_or, Option.some.injEq] at chosen
                  subst chosen
                  exact .inl ⟨written, only, holds⟩
            · exact Fields.among_of_complete filled.2 rest field mem
      next => simp at completed

namespace Decode

variable {bound : Nat} {fields : Fields}

theorem skippedMember_sound {source rest : List Char} {value : Unit}
    (accepted : skippedMember bound source = .ok value rest) :
    ∃ written, AfterKey source written rest := by
  obtain ⟨_, start, colon, skipped⟩ := Outcome.andThen_eq_ok_iff.mp accepted
  obtain ⟨written, spelled, -⟩ := skipValue_sound bound skipped
  exact ⟨written, start, colon_eq_ok_iff.mp colon, spelled⟩

/-- Where a list ends, it has no items left. -/
theorem items_of_closed {after rest : List Char} {items : List Written}
    (spelled : Items false (']' :: after) items rest) : items = [] ∧ after = rest := by
  cases spelled with
  | close blanks => exact ⟨rfl, eq_of_blanks_cons (by decide) blanks⟩
  | item separator =>
      cases separator with
      | comma comma =>
          have skipped := skipBlanks_eq_cons comma (by decide)
          rw [skipBlanks_cons (by decide)] at skipped
          cases skipped

theorem record_sound {name : String} {put : String → fields.Slots → Reader fields.Slots}
    {inOrder : Reader fields.Content}
    (putSound : ∀ {key slots slots' source rest done}, put key slots source = .ok slots' rest →
      fields.Filled done slots →
      ∃ written, AfterKey source written rest ∧ fields.Filled (done ++ [(key, written)]) slots')
    (inOrderSound : ∀ {source contents middle rest}, inOrder source = .ok contents middle →
      Blanks middle (']' :: rest) →
      ∃ items, Items true source items rest ∧
        Json.Field.InOrder (fields.rules contents) items) :
    Sound (record bound name fields put inOrder) fun contents =>
      Rule.record (fields.rules contents) := by
  intro source contents rest accepted
  unfold record at accepted
  split at accepted
  next skipped =>
    obtain ⟨middle, accepted, closed⟩ := inObject_eq_ok_iff.mp accepted
    obtain ⟨slots, middle', accepted, completed⟩ := Outcome.andThen_eq_ok_iff.mp accepted
    split at completed
    next contents' completed' =>
      cases completed
      obtain ⟨spelled, named, members, names, filled⟩ :=
        members_sound putSound accepted closed fields.filled_emptySlots
      refine ⟨.object spelled, by rw [skipped]; exact .object members, named, names, ?_⟩
      exact Fields.among_of_complete filled completed'
    next => simp at completed
  next skipped =>
    obtain ⟨middle, accepted, closed⟩ := inList_eq_ok_iff.mp accepted
    obtain ⟨items, spelled, inOrder'⟩ := inOrderSound accepted closed
    exact ⟨.array items, by rw [skipped]; exact .array spelled, inOrder'⟩
  next => simp at accepted

end Decode

section Soundness

variable {bound : Nat} {tree : Reader Expr}

mutual

theorem Shape.read_sound (treeSound : Sound tree Rule.ofExpr) (shape : Shape)
    (distinct : shape.Distinct) : Sound (shape.read bound tree) shape.rule := by
  match shape with
  | .int32 => exact int32_sound
  | .text => exact text_sound
  | .operator => exact operator_sound
  | .tree => exact treeSound
  | .null _ => exact null_sound
  | .list element => exact list_sound (element.read_sound treeSound distinct) bound
  | .optional content => exact optional_sound (content.read_sound treeSound distinct)
  | .record name fields =>
      exact record_sound (fields.put_sound treeSound distinct)
        (fields.inOrder_sound treeSound distinct)

theorem Fields.put_sound (treeSound : Sound tree Rule.ofExpr) (fields : Fields)
    (distinct : fields.Distinct) {key : String} {slots slots' : fields.Slots}
    {source rest : List Char} {done : List (String × Written)}
    (accepted : fields.put bound tree key slots source = .ok slots' rest)
    (filled : fields.Filled done slots) :
    ∃ written, AfterKey source written rest ∧
      fields.Filled (done ++ [(key, written)]) slots' := by
  match fields, slots, slots' with
  | .nil, _, _ =>
      obtain ⟨written, spelled⟩ := skippedMember_sound accepted
      exact ⟨written, spelled, trivial⟩
  | .cons name shape _ others, (slot, slots), slots' =>
      obtain ⟨fresh, distinct, othersDistinct⟩ := distinct
      obtain ⟨holds, filled⟩ := filled
      rw [Fields.put] at accepted
      split at accepted
      next isNamed =>
        subst isNamed
        split at accepted
        next => simp at accepted
        next empty =>
          rw [Bool.not_eq_true, Option.isSome_eq_false_iff, Option.isNone_iff_eq_none] at empty
          subst empty
          obtain ⟨_, start, colon, accepted⟩ := Outcome.andThen_eq_ok_iff.mp accepted
          obtain ⟨content, read, rfl⟩ := Outcome.map_eq_ok_iff.mp accepted
          obtain ⟨written, spelled, rule⟩ := shape.read_sound treeSound distinct read
          have noneBefore : done.filter (fun member => member.1 = key) = [] := by
            simpa only [SlotHolds, List.filter_eq_nil_iff, decide_eq_true_eq] using holds
          refine ⟨written, ⟨start, colon_eq_ok_iff.mp colon, spelled⟩, ⟨written, ?_, rule⟩,
            filled.append_of_not_mem fresh written⟩
          simp [List.filter_append, noneBefore]
      next other =>
        obtain ⟨slots'', put, rfl⟩ := Outcome.map_eq_ok_iff.mp accepted
        obtain ⟨written, spelled, filled'⟩ := others.put_sound treeSound othersDistinct put filled
        exact ⟨written, spelled, holds.append other written, filled'⟩

theorem Fields.inOrder_sound (treeSound : Sound tree Rule.ofExpr) (fields : Fields)
    (distinct : fields.Distinct) {name : String} {total count : Nat}
    {source middle rest : List Char} {contents : fields.Content}
    (accepted : fields.inOrder bound tree name total count source = .ok contents middle)
    (closed : Blanks middle (']' :: rest)) :
    ∃ items, Items (count == 0) source items rest ∧
      Json.Field.InOrder (fields.rules contents) items := by
  match fields, contents with
  | .nil, _ =>
      cases accepted
      exact ⟨[], .close closed, by simp [Fields.rules, Json.Field.InOrder]⟩
  | .cons _ shape presence others, contents =>
      obtain ⟨_, distinct, othersDistinct⟩ := distinct
      rw [Fields.inOrder] at accepted
      obtain ⟨more, next, separated, accepted⟩ := Outcome.andThen_eq_ok_iff.mp accepted
      split at accepted
      next isMore =>
        subst isMore
        obtain ⟨start, separator, rfl⟩ := nextElement_eq_true separated
        obtain ⟨content, after, read, accepted⟩ := Outcome.andThen_eq_ok_iff.mp accepted
        obtain ⟨contents, readOthers, rfl⟩ := Outcome.map_eq_ok_iff.mp accepted
        obtain ⟨written, spelled, rule⟩ := shape.read_sound treeSound distinct read
        obtain ⟨items, following, inOrder⟩ :=
          others.inOrder_sound treeSound othersDistinct readOthers closed
        rw [skipBlanks_skipBlanks] at spelled
        exact ⟨written :: items, .item separator (blanks_skipBlanks start) spelled following,
          rule, inOrder⟩
      next isLast =>
        rw [Bool.not_eq_true] at isLast
        subst isLast
        obtain ⟨after, rfl, blanks⟩ := nextElement_eq_false_iff.mp separated
        split at accepted
        next content implied =>
          obtain ⟨contents, readOthers, rfl⟩ := Outcome.map_eq_ok_iff.mp accepted
          obtain ⟨items, following, inOrder⟩ :=
            others.inOrder_sound treeSound othersDistinct readOthers closed
          obtain ⟨rfl, rfl⟩ := items_of_closed following
          refine ⟨[], .close blanks, ?_⟩
          rw [Json.Field.inOrder_nil_iff] at inOrder ⊢
          exact List.forall_mem_cons.mpr ⟨implied, inOrder⟩
        next => simp at accepted

end

end Soundness

/-- The slots after the members of some keys, if the whole record has these contents. -/
def Fields.slotsAfter : (fields : Fields) → fields.Content → List String → fields.Slots
  | .nil, _, _ => ()
  | .cons name _ _ others, (content, contents), keys =>
      (if name ∈ keys then some content else none, others.slotsAfter contents keys)

theorem Fields.slotsAfter_nil (fields : Fields) (contents : fields.Content) :
    fields.slotsAfter contents [] = fields.emptySlots := by
  match fields, contents with
  | .nil, _ => rfl
  | .cons _ _ _ others, (content, contents) =>
      simp only [Fields.slotsAfter, List.not_mem_nil, if_false, others.slotsAfter_nil contents]
      rfl

theorem Fields.slotsAfter_append {fields : Fields} (contents : fields.Content)
    (keys : List String) {key : String} (notMem : key ∉ fields.names) :
    fields.slotsAfter contents (keys ++ [key]) = fields.slotsAfter contents keys := by
  match fields, contents with
  | .nil, _ => rfl
  | .cons name _ _ others, (content, contents) =>
      rw [Fields.names, List.mem_cons, not_or] at notMem
      have same : (if name ∈ keys ++ [key] then some content else none) =
          if name ∈ keys then some content else none := by
        simp [Ne.symm notMem.1]
      rw [Fields.slotsAfter, Fields.slotsAfter, same,
        Fields.slotsAfter_append contents keys notMem.2]

/-- A record is complete once each field has been among its members or may be left out. -/
theorem Fields.complete_slotsAfter {fields : Fields} {contents : fields.Content}
    {keys : List String}
    (known : ∀ field ∈ fields.rules contents, field.name ∈ keys ∨ field.implied) :
    fields.complete (fields.slotsAfter contents keys) = .ok contents := by
  match fields, contents with
  | .nil, _ => rfl
  | .cons name shape presence others, (content, contents) =>
      rw [Fields.rules, List.forall_mem_cons] at known
      have chosen : (if name ∈ keys then some content else none).or (presence.default? shape) =
          some content := by
        by_cases mem : name ∈ keys
        · rw [if_pos mem, Option.some_or]
        · rw [if_neg mem, Option.none_or]
          exact known.1.resolve_left mem
      simp only [Fields.complete, Fields.slotsAfter, chosen, others.complete_slotsAfter known.2]
      rfl

theorem Fields.complete_of_among (fields : Fields) {contents : fields.Content}
    {members : List (String × Written)}
    (among : ∀ field ∈ fields.rules contents, field.Among members) :
    fields.complete (fields.slotsAfter contents (members.map Prod.fst)) = .ok contents := by
  apply Fields.complete_slotsAfter
  intro field mem
  rcases among field mem with ⟨value, only, -⟩ | ⟨implied, -⟩
  · have member : (field.name, value) ∈ members :=
      List.mem_of_mem_filter (only ▸ List.mem_singleton_self _)
    exact .inl (List.mem_map_of_mem member)
  · exact .inr implied

namespace Decode

variable {limit bound : Nat} {fields : Fields}

theorem skippedMember_complete (le : limit ≤ bound) {source rest : List Char} {written : Written}
    (short : source.length < limit) (spelled : AfterKey source written rest)
    (stops : continuesNumber rest = false) : skippedMember bound source = .ok () rest := by
  obtain ⟨start, colon, spelled⟩ := spelled
  have shorter := colon.length_le
  rw [List.length_cons] at shorter
  have skipped : skipValue bound start = .ok () rest :=
    skipValue_complete bound (by omega) spelled (endsAt_of_not_continues stops) trivial
  apply Outcome.andThen_eq_ok_iff.mpr
  exact ⟨(), start, colon_eq_ok_iff.mpr colon, skipped⟩

/-- The members that give a field are one, which has not been read before it stands there. -/
theorem among_at {field : Json.Field} {done todo : List (String × Written)} {written : Written}
    (among : field.Among (done ++ (field.name, written) :: todo)) :
    field.name ∉ done.map Prod.fst ∧ field.rule written := by
  rcases among with ⟨value, only, rule⟩ | ⟨-, absent⟩
  · rw [List.filter_append, List.filter_cons_of_pos (by simp),
      List.append_eq_singleton_iff] at only
    rcases only with ⟨noneBefore, only⟩ | ⟨-, only⟩
    · rw [List.filter_eq_nil_iff] at noneBefore
      obtain ⟨equality, -⟩ := List.cons.inj only
      cases equality
      refine ⟨?_, rule⟩
      intro mem
      obtain ⟨member, mem, equality⟩ := List.mem_map.mp mem
      exact noneBefore member mem (decide_eq_true equality)
    · exact absurd only (List.cons_ne_nil _ _)
  · exact absurd rfl (absent (field.name, written) (by simp))

theorem record_complete (le : limit ≤ bound) {name : String}
    {put : String → fields.Slots → Reader fields.Slots} {inOrder : Reader fields.Content}
    (putComplete : ∀ {contents keys key written source rest},
      (∀ field ∈ fields.rules contents, field.name = key → key ∉ keys ∧ field.rule written) →
      source.length < limit → AfterKey source written rest → continuesNumber rest = false →
      put key (fields.slotsAfter contents keys) source =
        .ok (fields.slotsAfter contents (keys ++ [key])) rest)
    (inOrderComplete : ∀ {contents source items rest}, source.length < limit →
      Items true source items rest → Json.Field.InOrder (fields.rules contents) items →
      ∃ middle, inOrder source = .ok contents middle ∧ Blanks middle (']' :: rest)) :
    CompleteBelow limit (record bound name fields put inOrder) fun contents =>
      Rule.record (fields.rules contents) := by
  intro source contents rest written short spelled _ rule
  have shorter := length_skipBlanks_le source
  generalize skipped : skipBlanks source = front at spelled shorter
  cases written with
  | object members =>
      obtain ⟨named, names, among⟩ := rule
      cases spelled with
      | @object start _ _ spelled =>
          have within : start.length < limit :=
            Nat.lt_of_lt_of_le shorter (Nat.le_of_lt short)
          have accepted : Decode.members put bound true fields.emptySlots start =
              .ok (fields.slotsAfter contents (named.map Prod.fst)) ('\x7d' :: rest) := by
            rw [← fields.slotsAfter_nil contents]
            refine members_complete (fun done => fields.slotsAfter contents (done.map Prod.fst)) ?_
              (Nat.lt_of_lt_of_le within le) within spelled names (List.nil_append named).symm
            intro done key written todo source rest split short spelled stops
            rw [List.map_append]
            refine putComplete ?_ short spelled stops
            rintro field mem rfl
            exact among_at (split ▸ among field mem)
          simp only [record, skipped]
          have completed := fields.complete_of_among among
          apply inObject_eq_ok_iff.mpr
          refine ⟨_, ?_, .done⟩
          apply Outcome.andThen_eq_ok_iff.mpr
          exact ⟨_, _, accepted, by rw [completed]⟩
      | number number => cases number
      | negative number => cases number
  | array items =>
      cases spelled with
      | array spelled =>
          rw [List.length_cons] at shorter
          obtain ⟨middle, accepted, closed⟩ := inOrderComplete (by omega) spelled rule
          simp only [record, skipped]
          apply inList_eq_ok_iff.mpr
          exact ⟨middle, accepted, closed⟩
      | number number => cases number
      | negative number => cases number
  | _ => exact rule.elim

end Decode

section Completeness

variable {limit bound : Nat} {tree : Reader Expr}

mutual

theorem Shape.read_complete (le : limit ≤ bound)
    (treeComplete : CompleteBelow limit tree Rule.ofExpr) (shape : Shape)
    (distinct : shape.Distinct) :
    CompleteBelow limit (shape.read bound tree) shape.rule := by
  match shape with
  | .int32 => exact int32_complete limit
  | .text => exact text_complete limit
  | .operator => exact operator_complete limit
  | .tree => exact treeComplete
  | .null _ => exact null_complete limit
  | .list element => exact list_complete (element.read_complete le treeComplete distinct) le
  | .optional content => exact optional_complete (content.read_complete le treeComplete distinct)
  | .record name fields =>
      exact record_complete le (fields.put_complete le treeComplete distinct)
        (fields.inOrder_complete le treeComplete distinct name fields.length 0)

theorem Fields.put_complete (le : limit ≤ bound)
    (treeComplete : CompleteBelow limit tree Rule.ofExpr) (fields : Fields)
    (distinct : fields.Distinct) {contents : fields.Content}
    {keys : List String} {key : String} {written : Written} {source rest : List Char}
    (fits : ∀ field ∈ fields.rules contents,
      field.name = key → key ∉ keys ∧ field.rule written)
    (short : source.length < limit) (spelled : AfterKey source written rest)
    (stops : continuesNumber rest = false) :
    fields.put bound tree key (fields.slotsAfter contents keys) source =
      .ok (fields.slotsAfter contents (keys ++ [key])) rest := by
  match fields, contents with
  | .nil, _ => exact skippedMember_complete le short spelled stops
  | .cons name shape presence others, (content, contents) =>
      obtain ⟨fresh, distinct, othersDistinct⟩ := distinct
      rw [Fields.rules, List.forall_mem_cons] at fits
      rw [Fields.slotsAfter, Fields.slotsAfter, Fields.put]
      split
      next isNamed =>
        subst isNamed
        obtain ⟨unread, rule⟩ := fits.1 rfl
        obtain ⟨start, colon, spelled⟩ := spelled
        have shorter := colon.length_le
        rw [List.length_cons] at shorter
        have accepted := shape.read_complete le treeComplete distinct (by omega) spelled
          (endsAt_of_not_continues stops) rule
        rw [if_neg unread, if_pos (by simp), others.slotsAfter_append contents keys fresh]
        apply Outcome.andThen_eq_ok_iff.mpr
        refine ⟨(), start, colon_eq_ok_iff.mpr colon, ?_⟩
        apply Outcome.map_eq_ok_iff.mpr
        exact ⟨content, accepted, rfl⟩
      next other =>
        have accepted :=
          others.put_complete le treeComplete othersDistinct fits.2 short spelled stops
        have same : name ∈ keys ++ [key] ↔ name ∈ keys := by simp [Ne.symm other]
        simp only [same]
        apply Outcome.map_eq_ok_iff.mpr
        exact ⟨_, accepted, rfl⟩

theorem Fields.inOrder_complete (le : limit ≤ bound)
    (treeComplete : CompleteBelow limit tree Rule.ofExpr) (fields : Fields)
    (distinct : fields.Distinct) (name : String) (total count : Nat) {contents : fields.Content}
    {source rest : List Char} {items : List Written} (short : source.length < limit)
    (spelled : Items (count == 0) source items rest)
    (inOrder : Json.Field.InOrder (fields.rules contents) items) :
    ∃ middle, fields.inOrder bound tree name total count source = .ok contents middle ∧
      Blanks middle (']' :: rest) := by
  match fields, contents with
  | .nil, _ =>
      cases spelled with
      | close blanks => exact ⟨source, rfl, blanks⟩
      | item => exact inOrder.elim
  | .cons _ shape presence others, (content, contents) =>
      obtain ⟨_, distinct, othersDistinct⟩ := distinct
      rw [Fields.rules] at inOrder
      cases spelled with
      | close blanks =>
          rw [Json.Field.inOrder_nil_iff, List.forall_mem_cons] at inOrder
          obtain ⟨implied, inOrder⟩ := inOrder
          have isDefault : presence.default? shape = some content := implied
          obtain ⟨middle, accepted, closed⟩ :=
            others.inOrder_complete le treeComplete othersDistinct name total (count + 1)
              (Nat.lt_of_le_of_lt blanks.length_le short) (.close .done)
              (Json.Field.inOrder_nil_iff.mpr inOrder)
          refine ⟨middle, ?_, closed⟩
          simp only [Fields.inOrder, nextElement_eq_false_iff.mpr ⟨rest, rfl, blanks⟩,
            Outcome.andThen, Bool.false_eq_true, if_false, isDefault]
          apply Outcome.map_eq_ok_iff.mpr
          exact ⟨contents, accepted, rfl⟩
      | @item _ _ start front value following items _ separator blanks spelled more =>
          obtain ⟨rule, inOrder⟩ := inOrder
          have opened := separator.length_le
          have covered := blanks.length_le
          have taken := spelled.length_lt
          obtain ⟨middle, readOthers, closed⟩ :=
            others.inOrder_complete le treeComplete othersDistinct name total (count + 1)
              (by omega) more inOrder
          have read : shape.read bound tree front = .ok content following := by
            refine shape.read_complete le treeComplete distinct (by omega) ?_
              (endsAt_of_not_continues (items_stop more)) rule
            rwa [skipBlanks_eq_of_value .done spelled]
          refine ⟨middle, ?_, closed⟩
          simp only [Fields.inOrder, nextElement_complete separator blanks spelled,
            Outcome.andThen, if_true, read]
          apply Outcome.map_eq_ok_iff.mpr
          exact ⟨contents, readOthers, rfl⟩

end

end Completeness

end TigerTree
