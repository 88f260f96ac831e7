import TigerTree.Outline
import TigerTree.Proofs.Text.Quoted

set_option autoImplicit false

/-!
Outlines on one line determine what they show.

Names and words end where a character follows that they cannot have, and that character tells what
the outline is. Text in quotes may hold any characters, but it is known where it ends.
-/

namespace TigerTree.Outline

def isNameChar (char : Char) : Bool := char.isAlphanum || char == '_' || char == '-'

def isName (text : String) : Bool := !text.toList.isEmpty && text.toList.all isNameChar

mutual

/-- Words and names are not empty and have none of the characters that an outline is laid out
with, and no record is empty. -/
inductive Regular : Outline → Prop where
  | word {text : String} : isName text = true → Regular (.word text)
  | quoted {text : String} : Regular (.quoted text)
  | apply {name : String} {argument : Outline} :
      isName name = true → Regular argument → Regular (.apply name argument)
  | record {name : String} {field : String × Outline} {fields : List (String × Outline)} :
      isName name = true → RegularFields (field :: fields) →
      Regular (.record name (field :: fields))
  | list {items : List Outline} : RegularItems items → Regular (.list items)

inductive RegularFields : List (String × Outline) → Prop where
  | nil : RegularFields []
  | cons {name : String} {value : Outline} {fields : List (String × Outline)} :
      isName name = true → Regular value → RegularFields fields →
      RegularFields ((name, value) :: fields)

inductive RegularItems : List Outline → Prop where
  | nil : RegularItems []
  | cons {item : Outline} {items : List Outline} :
      Regular item → RegularItems items → RegularItems (item :: items)

end

theorem isNameChar_of_isName {text : String} (named : isName text = true) :
    ∀ char ∈ text.toList, isNameChar char = true := by
  rw [isName, Bool.and_eq_true] at named
  exact List.all_eq_true.mp named.2

theorem isNameChar_ne {char : Char} (among : isNameChar char = true) (other : Char)
    (notAmong : isNameChar other = false) : char ≠ other := by
  rintro rfl
  simp [notAmong] at among

theorem exists_cons_of_isName {text : String} (named : isName text = true) :
    ∃ char chars, text.toList = char :: chars ∧ isNameChar char = true := by
  have among := isNameChar_of_isName named
  cases written : text.toList with
  | nil => simp [isName, written] at named
  | cons char chars => exact ⟨char, chars, rfl, among char (written ▸ List.mem_cons_self)⟩

theorem name_append_inj {name name' : String} {rest rest' : List Char}
    (named : isName name = true) (named' : isName name' = true)
    (stops : ∀ char ∈ rest.head?, isNameChar char = false)
    (stops' : ∀ char ∈ rest'.head?, isNameChar char = false)
    (same : name.toList ++ rest = name'.toList ++ rest') : name = name' ∧ rest = rest' := by
  obtain ⟨names, rests⟩ := append_inj_of_all (isNameChar_of_isName named)
    (isNameChar_of_isName named') stops stops' same
  exact ⟨String.toList_injective names, rests⟩

/-- What can follow an outline: what closes or goes on with the outline around it. -/
inductive Closes : List Char → Prop where
  | nothing : Closes []
  | parenthesis {rest : List Char} : Closes (')' :: rest)
  | bracket {rest : List Char} : Closes (']' :: rest)
  | brace {rest : List Char} : Closes (' ' :: '\x7d' :: rest)
  | comma {rest : List Char} : Closes (',' :: rest)

/-- The name in front of an outline, if it has one. -/
def leadingName : Outline → List Char
  | word text => text.toList
  | apply name _ | record name _ => name.toList
  | quoted _ | list _ => []

/-- An outline without the name in front of it. -/
def writeBody : Outline → List Char → List Char
  | word _, rest => rest
  | quoted text, rest => writeQuoted text rest
  | apply _ argument, rest => '(' :: writeInline argument (')' :: rest)
  | record _ fields, rest =>
      ' ' :: '\x7b' :: ' ' :: writeInlineFields true fields (' ' :: '\x7d' :: rest)
  | list items, rest => '[' :: writeInlineItems true items (']' :: rest)

inductive Form where
  | word | quoted | apply | record | list

def form : Outline → Form
  | word _ => .word
  | quoted _ => .quoted
  | apply .. => .apply
  | record .. => .record
  | list _ => .list

/-- The form of an outline, told from what follows its name. -/
def formOf : List Char → Form
  | '"' :: _ => .quoted
  | '(' :: _ => .apply
  | ' ' :: '\x7b' :: _ => .record
  | '[' :: _ => .list
  | _ => .word

theorem writeInline_eq (outline : Outline) (rest : List Char) :
    outline.writeInline rest = outline.leadingName ++ outline.writeBody rest := by
  cases outline with
  | word | quoted | apply | list => rfl
  | record name fields =>
      rw [writeInline, List.append_assoc]
      rfl

theorem formOf_writeBody (outline : Outline) {rest : List Char} (closes : Closes rest) :
    formOf (outline.writeBody rest) = outline.form := by
  cases outline with
  | word => cases closes <;> rfl
  | quoted | apply | record | list => rfl

theorem isNameChar_writeBody (outline : Outline) {rest : List Char} (closes : Closes rest) :
    ∀ char ∈ (outline.writeBody rest).head?, isNameChar char = false := by
  cases outline with
  | word =>
      cases closes with
      | nothing => exact nofun
      | _ =>
          rintro char ⟨⟩
          rfl
  | _ =>
      rintro char ⟨⟩
      rfl

theorem Regular.isNameChar_leadingName {outline : Outline} (regular : outline.Regular) :
    ∀ char ∈ outline.leadingName, isNameChar char = true := by
  cases regular with
  | word named | apply named | record named => exact isNameChar_of_isName named
  | quoted | list => simp [leadingName]

/-- Outlines that are shown alike have the same name and the same form. -/
theorem Regular.writeBody_eq {outline outline' : Outline} (regular : outline.Regular)
    (regular' : outline'.Regular) {rest rest' : List Char} (closes : Closes rest)
    (closes' : Closes rest') (same : outline.writeInline rest = outline'.writeInline rest') :
    outline.leadingName = outline'.leadingName ∧ outline.form = outline'.form ∧
      outline.writeBody rest = outline'.writeBody rest' := by
  rw [writeInline_eq, writeInline_eq] at same
  obtain ⟨names, bodies⟩ := append_inj_of_all regular.isNameChar_leadingName
    regular'.isNameChar_leadingName (isNameChar_writeBody outline closes)
    (isNameChar_writeBody outline' closes') same
  have forms := congrArg formOf bodies
  rw [formOf_writeBody outline closes, formOf_writeBody outline' closes'] at forms
  exact ⟨names, forms, bodies⟩

theorem isNameChar_colon (rest : List Char) :
    ∀ char ∈ (": ".toList ++ rest).head?, isNameChar char = false := by
  rintro char ⟨⟩
  rfl

theorem closes_writeInlineFields (fields : List (String × Outline)) (rest : List Char) :
    Closes (writeInlineFields false fields (' ' :: '\x7d' :: rest)) := by
  cases fields with
  | nil => exact .brace
  | cons => exact .comma

theorem closes_writeInlineItems (items : List Outline) (rest : List Char) :
    Closes (writeInlineItems false items (']' :: rest)) := by
  cases items with
  | nil => exact .bracket
  | cons => exact .comma

/-- The characters that an outline can start with. -/
def opensOutline (char : Char) : Bool := isNameChar char || char == '"' || char == '['

theorem opensOutline_ne {char : Char} (opens : opensOutline char = true) (other : Char)
    (closed : opensOutline other = false) : char ≠ other := by
  rintro rfl
  simp [closed] at opens

def Opens (text : List Char) : Prop := ∃ char rest, text = char :: rest ∧ opensOutline char = true

theorem opens_of_isName {name : String} (named : isName name = true) (rest : List Char) :
    Opens (name.toList ++ rest) := by
  obtain ⟨char, chars, written, among⟩ := exists_cons_of_isName named
  exact ⟨char, chars ++ rest, by rw [written]; rfl, by simp [opensOutline, among]⟩

theorem Regular.opens_writeInline {outline : Outline} (regular : outline.Regular)
    (rest : List Char) : Opens (outline.writeInline rest) := by
  cases regular with
  | word named | apply named => exact opens_of_isName named _
  | record named =>
      rw [writeInline, List.append_assoc]
      exact opens_of_isName named _
  | quoted | list => exact ⟨_, _, rfl, by decide⟩

theorem Regular.opens_writeIndented {outline : Outline} (regular : outline.Regular) (depth : Nat)
    (rest : List Char) : Opens (outline.writeIndented depth rest) := by
  cases regular with
  | word named | apply named => exact opens_of_isName named _
  | record named =>
      rw [writeIndented, List.append_assoc]
      exact opens_of_isName named _
  | quoted => exact ⟨_, _, rfl, by decide⟩
  | list items => cases items <;> exact ⟨_, _, rfl, by decide⟩

theorem opens_label {name : String} (named : isName name = true) (text : List Char) :
    Opens (name.toList ++ ": ".toList ++ text) := by
  rw [List.append_assoc]
  exact opens_of_isName named _

theorem head?_ne_of_opens {text : List Char} (opens : Opens text) {char : Char}
    (closed : opensOutline char = false) : text.head? ≠ some char := by
  obtain ⟨first, rest, rfl, opens⟩ := opens
  simpa using opensOutline_ne opens char closed

theorem head?_writeInlineFields_ne_blank {first : Bool} {name : String} {value : Outline}
    {fields : List (String × Outline)} {rest : List Char} (named : isName name = true) :
    (writeInlineFields first ((name, value) :: fields) rest).head? ≠ some ' ' := by
  cases first with
  | false => simp [writeInlineFields]
  | true =>
      rw [writeInlineFields, if_pos rfl, List.nil_append, List.append_assoc]
      exact head?_ne_of_opens (opens_of_isName named _) (by decide)

theorem head?_writeInlineItems_ne_bracket {first : Bool} {item : Outline} {items : List Outline}
    {rest : List Char} (regular : item.Regular) :
    (writeInlineItems first (item :: items) rest).head? ≠ some ']' := by
  cases first with
  | false => simp [writeInlineItems]
  | true =>
      rw [writeInlineItems, if_pos rfl, List.nil_append]
      exact head?_ne_of_opens (regular.opens_writeInline _) (by decide)

mutual

/-- Outlines that are shown alike are the same, and so is what follows them. -/
theorem Regular.writeInline_inj {outline outline' : Outline} (regular : outline.Regular)
    (regular' : outline'.Regular) {rest rest' : List Char} (closes : Closes rest)
    (closes' : Closes rest') (same : outline.writeInline rest = outline'.writeInline rest') :
    outline = outline' ∧ rest = rest' := by
  obtain ⟨names, forms, bodies⟩ := regular.writeBody_eq regular' closes closes' same
  match regular with
  | .word _ =>
      cases regular' with
      | word _ => exact ⟨congrArg word (String.toList_injective names), bodies⟩
      | _ => cases forms
  | .quoted =>
      cases regular' with
      | quoted =>
          obtain ⟨rfl, rfl⟩ := writeQuoted_inj bodies
          exact ⟨rfl, rfl⟩
      | _ => cases forms
  | .apply _ regular =>
      cases regular' with
      | apply _ regular' =>
          obtain ⟨rfl, rests⟩ := regular.writeInline_inj regular' .parenthesis .parenthesis
            (List.cons.inj bodies).2
          obtain rfl := String.toList_injective names
          exact ⟨rfl, (List.cons.inj rests).2⟩
      | _ => cases forms
  | .record _ regular =>
      cases regular' with
      | record _ regular' =>
          simp only [writeBody, List.cons.injEq, true_and] at bodies
          obtain ⟨fields, rests⟩ := regular.writeInlineFields_inj regular' true bodies
          obtain rfl := String.toList_injective names
          exact ⟨congrArg (record _) fields, rests⟩
      | _ => cases forms
  | .list regular =>
      cases regular' with
      | list regular' =>
          obtain ⟨rfl, rests⟩ := regular.writeInlineItems_inj regular' true
            (List.cons.inj bodies).2
          exact ⟨rfl, rests⟩
      | _ => cases forms

theorem RegularFields.writeInlineFields_inj {fields fields' : List (String × Outline)}
    (regular : RegularFields fields) (regular' : RegularFields fields') (first : Bool)
    {rest rest' : List Char}
    (same : writeInlineFields first fields (' ' :: '\x7d' :: rest) =
      writeInlineFields first fields' (' ' :: '\x7d' :: rest')) :
    fields = fields' ∧ rest = rest' := by
  match regular with
  | .nil =>
      cases regular' with
      | nil => simpa [writeInlineFields] using same
      | cons named =>
          exact absurd (congrArg List.head? same.symm) (head?_writeInlineFields_ne_blank named)
  | .cons named regular others =>
      cases regular' with
      | nil => exact absurd (congrArg List.head? same) (head?_writeInlineFields_ne_blank named)
      | cons named' regular' others' =>
          simp only [writeInlineFields, List.append_cancel_left_eq, List.append_assoc] at same
          obtain ⟨rfl, values⟩ := name_append_inj named named' (isNameChar_colon _)
            (isNameChar_colon _) same
          obtain ⟨rfl, following⟩ := regular.writeInline_inj regular'
            (closes_writeInlineFields _ rest) (closes_writeInlineFields _ rest')
            (List.append_cancel_left values)
          obtain ⟨rfl, rests⟩ := others.writeInlineFields_inj others' false following
          exact ⟨rfl, rests⟩

theorem RegularItems.writeInlineItems_inj {items items' : List Outline}
    (regular : RegularItems items) (regular' : RegularItems items') (first : Bool)
    {rest rest' : List Char}
    (same : writeInlineItems first items (']' :: rest) =
      writeInlineItems first items' (']' :: rest')) :
    items = items' ∧ rest = rest' := by
  match regular with
  | .nil =>
      cases regular' with
      | nil => simpa [writeInlineItems] using same
      | cons regular' =>
          exact absurd (congrArg List.head? same.symm) (head?_writeInlineItems_ne_bracket regular')
  | .cons regular others =>
      cases regular' with
      | nil => exact absurd (congrArg List.head? same) (head?_writeInlineItems_ne_bracket regular)
      | cons regular' others' =>
          obtain ⟨rfl, following⟩ := regular.writeInline_inj regular'
            (closes_writeInlineItems _ rest) (closes_writeInlineItems _ rest')
            (List.append_cancel_left same)
          obtain ⟨rfl, rests⟩ := others.writeInlineItems_inj others' false following
          exact ⟨rfl, rests⟩

end

theorem Regular.inline_inj {outline outline' : Outline} (regular : outline.Regular)
    (regular' : outline'.Regular) (same : outline.inline = outline'.inline) :
    outline = outline' :=
  (regular.writeInline_inj regular' .nothing .nothing (String.ofList_injective same)).1

end TigerTree.Outline
