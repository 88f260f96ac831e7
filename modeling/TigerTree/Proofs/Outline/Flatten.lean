import TigerTree.Proofs.Outline.Inline

set_option autoImplicit false

/-!
Indented outlines, put on one line.

What the indented form has more than the form on one line are line breaks, each followed by the
indentation of the next line, and a comma after the last part in brackets. They are told apart from
quoted text by the quotes alone, so the form on one line can be worked out from the indented form.
-/

namespace TigerTree.Outline

def unindent (text : List Char) : List Char := text.dropWhile (· == ' ')

theorem length_unindent_le (text : List Char) : (unindent text).length ≤ text.length :=
  (List.dropWhile_sublist _).length_le

/-- What stands between two parts on one line. No comma is left in front of a closing bracket. -/
def separator : List Char → List Char
  | '\x7d' :: _ => [' ']
  | ')' :: _ | ']' :: _ => []
  | _ => [',', ' ']

/-- A text with the line breaks taken out that follow brackets and commas, those in quoted text
apart. The first argument says whether the text starts inside quotes. -/
def flatten : Bool → List Char → List Char
  | _, [] => []
  | true, '\\' :: char :: rest => '\\' :: char :: flatten true rest
  | true, char :: rest => char :: flatten (char != '"') rest
  | false, char :: '\n' :: rest =>
      if char = '\x7b' then '\x7b' :: ' ' :: flatten false (unindent rest)
      else if char = '(' ∨ char = '[' then char :: flatten false (unindent rest)
      else if char = ',' then separator (unindent rest) ++ flatten false (unindent rest)
      else char :: flatten (char == '"') ('\n' :: rest)
  | false, char :: rest => char :: flatten (char == '"') rest
  termination_by _ text => text.length
  decreasing_by
    all_goals
      simp only [List.length_cons]
      grind [length_unindent_le]

theorem flatten_quoting {char : Char} (notBackslash : char ≠ '\\') (rest : List Char) :
    flatten true (char :: rest) = char :: flatten (char != '"') rest := by
  rw [flatten]
  exact fun _ _ same => absurd same notBackslash

theorem flatten_escape (char : Char) (rest : List Char) :
    flatten true ('\\' :: char :: rest) = '\\' :: char :: flatten true rest := by
  rw [flatten]

/-- The characters that a line break can follow. -/
def breaks (char : Char) : Bool := char ∈ ['\x7b', '(', '[', ',']

theorem flatten_plain {char : Char} (unbroken : breaks char = false) (rest : List Char) :
    flatten false (char :: rest) = char :: flatten (char == '"') rest := by
  simp only [breaks, List.mem_cons, List.not_mem_nil, or_false, decide_eq_false_iff_not, not_or]
    at unbroken
  by_cases lineBreak : ∃ more, rest = '\n' :: more
  · obtain ⟨more, rfl⟩ := lineBreak
    simp [flatten, unbroken]
  · rw [flatten]
    exact fun more same => lineBreak ⟨more, same⟩

theorem flatten_append {chars : List Char}
    (plain : ∀ char ∈ chars, breaks char = false ∧ char ≠ '"') (rest : List Char) :
    flatten false (chars ++ rest) = chars ++ flatten false rest := by
  induction chars with
  | nil => rfl
  | cons char chars inductionHypothesis =>
      rw [List.forall_mem_cons] at plain
      obtain ⟨⟨unbroken, notQuote⟩, plain⟩ := plain
      rw [List.cons_append, flatten_plain unbroken, beq_false_of_ne notQuote,
        inductionHypothesis plain, List.cons_append]

theorem flatten_name {name : String} (named : isName name = true) (rest : List Char) :
    flatten false (name.toList ++ rest) = name.toList ++ flatten false rest := by
  refine flatten_append (fun char mem => ?_) rest
  have among := isNameChar_of_isName named char mem
  have noBrace := isNameChar_ne among '\x7b' (by decide)
  have noParenthesis := isNameChar_ne among '(' (by decide)
  have noBracket := isNameChar_ne among '[' (by decide)
  have noComma := isNameChar_ne among ',' (by decide)
  exact ⟨by simp [breaks, noBrace, noParenthesis, noBracket, noComma],
    isNameChar_ne among '"' (by decide)⟩

theorem flatten_quoting_append {chars : List Char}
    (plain : ∀ char ∈ chars, char ≠ '\\' ∧ char ≠ '"') (rest : List Char) :
    flatten true (chars ++ rest) = chars ++ flatten true rest := by
  induction chars with
  | nil => rfl
  | cons char chars inductionHypothesis =>
      rw [List.forall_mem_cons] at plain
      obtain ⟨⟨notBackslash, notQuote⟩, plain⟩ := plain
      rw [List.cons_append, flatten_quoting notBackslash, bne_iff_ne.mpr notQuote,
        inductionHypothesis plain, List.cons_append]

theorem flatten_shown (char : Char) (rest : List Char) :
    flatten true (shown char ++ rest) = shown char ++ flatten true rest := by
  rcases shown_cases char with ⟨letter, named, written⟩ | written |
    ⟨notQuote, notBackslash, -, written⟩
  all_goals rw [written]
  · exact flatten_escape letter rest
  · have plain : ∀ char' ∈ '\x7b' :: (Nat.toDigits 16 char.toNat ++ ['\x7d']),
        char' ≠ '\\' ∧ char' ≠ '"' := by
      intro char' mem
      obtain ⟨notQuote, notBackslash, -⟩ := plain_of_mem_codePoint mem
      exact ⟨notBackslash, notQuote⟩
    rw [List.cons_append, List.cons_append, flatten_escape, flatten_quoting_append plain]
    rfl
  · exact flatten_quoting_append (by simp [notBackslash, notQuote]) rest

theorem flatten_writeQuoted (text : String) (rest : List Char) :
    flatten false (writeQuoted text rest) = writeQuoted text (flatten false rest) := by
  have quoting (chars : List Char) :
      flatten true (chars.foldr (fun char rest => shown char ++ rest) ('"' :: rest)) =
        chars.foldr (fun char rest => shown char ++ rest) ('"' :: flatten false rest) := by
    induction chars with
    | nil => exact flatten_quoting (by decide) rest
    | cons char chars inductionHypothesis =>
        rw [List.foldr_cons, flatten_shown, inductionHypothesis, List.foldr_cons]
  rw [writeQuoted, flatten_plain (by decide)]
  exact congrArg ('"' :: ·) (quoting text.toList)

theorem unindent_replicate (count : Nat) {char : Char} (solid : char ≠ ' ') (rest : List Char) :
    unindent (List.replicate count ' ' ++ char :: rest) = char :: rest := by
  rw [unindent, List.dropWhile_append_of_pos (by simp)]
  exact List.dropWhile_cons_of_neg (by simpa using solid)

theorem unindent_of_opens (count : Nat) {text : List Char} (opens : Opens text) :
    unindent (List.replicate count ' ' ++ text) = text := by
  obtain ⟨char, rest, rfl, opens⟩ := opens
  exact unindent_replicate count (opensOutline_ne opens ' ' (by decide)) rest

section Newline

variable {text : List Char} (depth : Nat)

theorem flatten_brace_newline (opens : Opens text) :
    flatten false ('\x7b' :: newline depth text) = '\x7b' :: ' ' :: flatten false text := by
  rw [newline, flatten, if_pos rfl, unindent_of_opens _ opens]

theorem flatten_opening (opens : Opens text) :
    flatten false (" \x7b".toList ++ newline depth text) =
      " \x7b ".toList ++ flatten false text := by
  have blank : flatten false (" \x7b".toList ++ newline depth text) =
      ' ' :: flatten false ('\x7b' :: newline depth text) := flatten_plain (by decide) _
  rw [blank, flatten_brace_newline depth opens]
  rfl

theorem flatten_parenthesis_newline (opens : Opens text) :
    flatten false ('(' :: newline depth text) = '(' :: flatten false text := by
  rw [newline, flatten, if_neg (by decide), if_pos (.inl rfl), unindent_of_opens _ opens]

theorem flatten_bracket_newline (opens : Opens text) :
    flatten false ('[' :: newline depth text) = '[' :: flatten false text := by
  rw [newline, flatten, if_neg (by decide), if_pos (.inr rfl), unindent_of_opens _ opens]

theorem flatten_comma_newline (opens : Opens text) :
    flatten false (',' :: newline depth text) = ',' :: ' ' :: flatten false text := by
  rw [newline, flatten, if_neg (by decide), if_neg (by decide), if_pos rfl,
    unindent_of_opens _ opens]
  obtain ⟨char, rest, rfl, opens⟩ := opens
  have noBrace := opensOutline_ne opens '\x7d' (by decide)
  have noParenthesis := opensOutline_ne opens ')' (by decide)
  have noBracket := opensOutline_ne opens ']' (by decide)
  simp [separator, noBrace, noParenthesis, noBracket]

/-- A closing bracket on a line of its own, after the comma that ends the part before it. -/
theorem flatten_comma_closing {bracket : Char} (closing : bracket ∈ ['\x7d', ')', ']'])
    (rest : List Char) :
    flatten false (',' :: newline depth (bracket :: rest)) =
      separator [bracket] ++ bracket :: flatten false rest := by
  simp only [List.mem_cons, List.not_mem_nil, or_false] at closing
  rw [newline, flatten, if_neg (by decide), if_neg (by decide), if_pos rfl]
  rcases closing with rfl | rfl | rfl
  all_goals
    rw [unindent_replicate _ (by decide), flatten_plain (by decide)]
    rfl

end Newline

theorem flatten_label {name : String} (named : isName name = true) (text : List Char) :
    flatten false (name.toList ++ ": ".toList ++ text) =
      name.toList ++ ": ".toList ++ flatten false text := by
  have plain : ∀ char ∈ ": ".toList, breaks char = false ∧ char ≠ '"' := by simp [breaks]
  rw [List.append_assoc, flatten_name named, flatten_append plain, List.append_assoc]

mutual

/-- The indented form of a regular outline, put on one line. -/
theorem Regular.flatten_writeIndented {outline : Outline} (regular : outline.Regular)
    (depth : Nat) (rest : List Char) :
    flatten false (outline.writeIndented depth rest) =
      outline.writeInline (flatten false rest) := by
  match regular with
  | .word named => exact flatten_name named rest
  | .quoted => exact flatten_writeQuoted _ rest
  | .apply named regular =>
      rw [writeIndented, flatten_name named,
        flatten_parenthesis_newline _ (regular.opens_writeIndented _ _),
        regular.flatten_writeIndented, flatten_comma_closing depth (by decide)]
      rfl
  | .record named (.cons named' regular others) =>
      rw [writeIndented, List.append_assoc, flatten_name named, writeIndentedFields,
        flatten_opening _ (opens_label named' _), flatten_label named',
        regular.flatten_writeIndented, others.flatten_writeIndentedFields]
      simp only [writeInline, writeInlineFields, if_true, List.nil_append, List.append_assoc]
      rfl
  | .list .nil =>
      have opened : flatten false ('[' :: ']' :: rest) = '[' :: flatten false (']' :: rest) := by
        rw [flatten]
        · rfl
        · exact nofun
      rw [writeIndented, opened, flatten_plain (by decide)]
      rfl
  | .list (.cons regular others) =>
      rw [writeIndented, flatten_bracket_newline _ (regular.opens_writeIndented _ _),
        regular.flatten_writeIndented, others.flatten_writeIndentedItems]
      rfl

theorem RegularFields.flatten_writeIndentedFields {fields : List (String × Outline)}
    (regular : RegularFields fields) (depth closing : Nat) (rest : List Char) :
    flatten false (',' :: writeIndentedFields depth fields (newline closing ('\x7d' :: rest))) =
      writeInlineFields false fields (' ' :: '\x7d' :: flatten false rest) := by
  match regular with
  | .nil => exact flatten_comma_closing closing (by decide) rest
  | .cons named regular others =>
      rw [writeIndentedFields, flatten_comma_newline _ (opens_label named _), flatten_label named,
        regular.flatten_writeIndented, others.flatten_writeIndentedFields]
      rfl

theorem RegularItems.flatten_writeIndentedItems {items : List Outline}
    (regular : RegularItems items) (depth closing : Nat) (rest : List Char) :
    flatten false (',' :: writeIndentedItems depth items (newline closing (']' :: rest))) =
      writeInlineItems false items (']' :: flatten false rest) := by
  match regular with
  | .nil => exact flatten_comma_closing closing (by decide) rest
  | .cons regular others =>
      rw [writeIndentedItems, flatten_comma_newline _ (regular.opens_writeIndented _ _),
        regular.flatten_writeIndented, others.flatten_writeIndentedItems]
      rfl

end

theorem Regular.indented_inj {outline outline' : Outline} (regular : outline.Regular)
    (regular' : outline'.Regular) (same : outline.indented = outline'.indented) :
    outline = outline' := by
  have flat := congrArg (flatten false) (String.ofList_injective same)
  rw [regular.flatten_writeIndented, regular'.flatten_writeIndented] at flat
  exact (regular.writeInline_inj regular' (by rw [flatten]; exact .nothing)
    (by rw [flatten]; exact .nothing) flat).1

end TigerTree.Outline
