set_option autoImplicit false

/-!
The grammar of JSON text.

Each relation takes a phrase from the front of a source and leaves the rest: `Value source value
rest` says that `source` starts with a spelling of `value` and goes on with `rest`. A phrase does
not cover the blanks before it. Strings are taken piece by piece, and `Denotes` says which text
the pieces stand for, if any.
-/

namespace TigerTree.Json

/-- A part of a string: a character that is written plainly or by a letter, or a code unit. -/
inductive Piece where
  | char (char : Char)
  | unit (number : Nat)

/-- A value as it is written. Of a number that has a fraction or an exponent nothing is kept. -/
inductive Written where
  | null
  | boolean (value : Bool)
  | integer (negative : Bool) (magnitude : Nat)
  | real
  | text (pieces : List Piece)
  | array (items : List Written)
  | object (members : List (List Piece × Written))

def blankChars : List Char := [' ', '\n', '\t', '\r']

inductive Blanks : List Char → List Char → Prop where
  | done {source} : Blanks source source
  | blank {char source rest} :
      char ∈ blankChars → Blanks source rest → Blanks (char :: source) rest

/-- The letters that stand for a character after a backslash. -/
inductive Escapes : Char → Char → Prop where
  | quote : Escapes '"' '"'
  | backslash : Escapes '\\' '\\'
  | slash : Escapes '/' '/'
  | backspace : Escapes 'b' '\x08'
  | formFeed : Escapes 'f' '\x0c'
  | lineFeed : Escapes 'n' '\n'
  | carriageReturn : Escapes 'r' '\r'
  | tab : Escapes 't' '\t'

inductive HexDigit : Char → Nat → Prop where
  | lower {value : Nat} : value < 16 → HexDigit (Nat.digitChar value) value
  | upper {value : Nat} : value < 16 → HexDigit (Nat.digitChar value).toUpper value

inductive CodeUnit : List Char → Nat → List Char → Prop where
  | digits {a b c d i j k l rest} :
      HexDigit a i → HexDigit b j → HexDigit c k → HexDigit d l →
      CodeUnit (a :: b :: c :: d :: rest) (((i * 16 + j) * 16 + k) * 16 + l) rest

/-- The parts of a string from after its opening quote, the closing quote included. -/
inductive Pieces : List Char → List Piece → List Char → Prop where
  | close {rest} : Pieces ('"' :: rest) [] rest
  | plain {char source pieces rest} :
      char ≠ '"' → char ≠ '\\' → 32 ≤ char.toNat →
      Pieces source pieces rest → Pieces (char :: source) (.char char :: pieces) rest
  | letter {letter char source pieces rest} :
      Escapes letter char →
      Pieces source pieces rest → Pieces ('\\' :: letter :: source) (.char char :: pieces) rest
  | unit {source number middle pieces rest} :
      CodeUnit source number middle →
      Pieces middle pieces rest → Pieces ('\\' :: 'u' :: source) (.unit number :: pieces) rest

/-- The characters that a string stands for. A code unit between `0xD800` and `0xDFFF` has to be
one of a pair, and a string in which one stands alone is no text. -/
inductive Denotes : List Piece → List Char → Prop where
  | nil : Denotes [] []
  | char {char pieces chars} :
      Denotes pieces chars → Denotes (.char char :: pieces) (char :: chars)
  | unit {number pieces chars} :
      ¬ (0xD800 ≤ number ∧ number ≤ 0xDFFF) →
      Denotes pieces chars → Denotes (.unit number :: pieces) (Char.ofNat number :: chars)
  | pair {leading trailing pieces chars} :
      0xD800 ≤ leading → leading ≤ 0xDBFF → 0xDC00 ≤ trailing → trailing ≤ 0xDFFF →
      Denotes pieces chars →
      Denotes (.unit leading :: .unit trailing :: pieces)
        (Char.ofNat (0x10000 + (leading - 0xD800) * 0x400 + (trailing - 0xDC00)) :: chars)

/-- At least one digit. -/
inductive Digits : List Char → List Char → Prop where
  | digits {digits rest : List Char} :
      digits ≠ [] → (∀ digit ∈ digits, digit.isDigit) → Digits (digits ++ rest) rest

/-- The digits before a point, without leading zeros. -/
inductive Whole : List Char → Nat → List Char → Prop where
  | zero {rest} : Whole ('0' :: rest) 0 rest
  | digits {first : Char} {others rest : List Char} :
      first.isDigit → first ≠ '0' → (∀ digit ∈ others, digit.isDigit) →
      Whole (first :: (others ++ rest)) (Nat.ofDigitChars 10 (first :: others) 0) rest

inductive Sign : List Char → List Char → Prop where
  | absent {source} : Sign source source
  | plus {rest} : Sign ('+' :: rest) rest
  | minus {rest} : Sign ('-' :: rest) rest

inductive Exponent : List Char → List Char → Prop where
  | exponent {letter source middle rest} :
      letter = 'e' ∨ letter = 'E' → Sign source middle → Digits middle rest →
      Exponent (letter :: source) rest

/-- What makes a number more than an integer. -/
inductive Refinement : List Char → List Char → Prop where
  | fraction {source rest} : Digits source rest → Refinement ('.' :: source) rest
  | exponent {source rest} : Exponent source rest → Refinement source rest
  | both {source middle rest} :
      Digits source middle → Exponent middle rest → Refinement ('.' :: source) rest

/-- A number from after its sign. -/
inductive Number (negative : Bool) : List Char → Written → List Char → Prop where
  | integer {source magnitude rest} :
      Whole source magnitude rest → Number negative source (.integer negative magnitude) rest
  | real {source magnitude middle rest} :
      Whole source magnitude middle → Refinement middle rest → Number negative source .real rest

/-- What stands before an item: a comma, unless the item is the first. -/
inductive Separator : Bool → List Char → List Char → Prop where
  | opening {source} : Separator true source source
  | comma {source rest} : Blanks source (',' :: rest) → Separator false source rest

mutual

inductive Value : List Char → Written → List Char → Prop where
  | null {rest} : Value ('n' :: 'u' :: 'l' :: 'l' :: rest) .null rest
  | true {rest} : Value ('t' :: 'r' :: 'u' :: 'e' :: rest) (.boolean true) rest
  | false {rest} : Value ('f' :: 'a' :: 'l' :: 's' :: 'e' :: rest) (.boolean false) rest
  | number {source value rest} : Number false source value rest → Value source value rest
  | negative {source value rest} : Number true source value rest → Value ('-' :: source) value rest
  | text {source pieces rest} :
      Pieces source pieces rest → Value ('"' :: source) (.text pieces) rest
  | array {source items rest} :
      Items true source items rest → Value ('[' :: source) (.array items) rest
  | object {source members rest} :
      Members true source members rest → Value ('\x7b' :: source) (.object members) rest

/-- The items of an array from after its opening bracket, or from after one of them. -/
inductive Items : Bool → List Char → List Written → List Char → Prop where
  | close {first source rest} : Blanks source (']' :: rest) → Items first source [] rest
  | item {first source start front value middle items rest} :
      Separator first source start → Blanks start front → Value front value middle →
      Items false middle items rest → Items first source (value :: items) rest

inductive Members : Bool → List Char → List (List Piece × Written) → List Char → Prop where
  | close {first source rest} : Blanks source ('\x7d' :: rest) → Members first source [] rest
  | member {first source start front member middle members rest} :
      Separator first source start → Blanks start front → Member front member middle →
      Members false middle members rest → Members first source (member :: members) rest

/-- A key and its value. -/
inductive Member : List Char → List Piece × Written → List Char → Prop where
  | pair {source key afterKey start front value rest} :
      Pieces source key afterKey → Blanks afterKey (':' :: start) → Blanks start front →
      Value front value rest → Member ('"' :: source) (key, value) rest

end

theorem Blanks.length_le {source rest : List Char} (blanks : Blanks source rest) :
    rest.length ≤ source.length := by
  induction blanks with
  | done => exact Nat.le_refl _
  | blank _ _ inductionHypothesis => exact Nat.le_succ_of_le inductionHypothesis

theorem CodeUnit.length_lt {source rest : List Char} {number : Nat}
    (unit : CodeUnit source number rest) : rest.length < source.length := by
  cases unit
  simp only [List.length_cons]
  omega

theorem Pieces.length_lt {source rest : List Char} {pieces : List Piece}
    (spelled : Pieces source pieces rest) : rest.length < source.length := by
  induction spelled with
  | close => simp
  | plain _ _ _ _ inductionHypothesis => exact Nat.lt_succ_of_lt inductionHypothesis
  | letter _ _ inductionHypothesis =>
      simp only [List.length_cons]
      omega
  | unit unit _ inductionHypothesis =>
      have shorter := unit.length_lt
      simp only [List.length_cons]
      omega

theorem Whole.length_lt {source rest : List Char} {magnitude : Nat}
    (whole : Whole source magnitude rest) : rest.length < source.length := by
  cases whole with
  | zero => simp
  | digits =>
      simp only [List.length_cons, List.length_append]
      omega

theorem Digits.length_lt {source rest : List Char} (digits : Digits source rest) :
    rest.length < source.length := by
  obtain ⟨present, -⟩ := digits
  simpa [List.length_pos_iff] using present

theorem Sign.length_le {source rest : List Char} (sign : Sign source rest) :
    rest.length ≤ source.length := by
  cases sign <;> simp

theorem Exponent.length_lt {source rest : List Char} (exponent : Exponent source rest) :
    rest.length < source.length := by
  obtain ⟨-, sign, digits⟩ := exponent
  exact Nat.lt_succ_of_lt (Nat.lt_of_lt_of_le digits.length_lt sign.length_le)

theorem Refinement.length_lt {source rest : List Char} (refinement : Refinement source rest) :
    rest.length < source.length := by
  cases refinement with
  | fraction digits => exact Nat.lt_succ_of_lt digits.length_lt
  | exponent exponent => exact exponent.length_lt
  | both digits exponent =>
      exact Nat.lt_succ_of_lt (Nat.lt_trans exponent.length_lt digits.length_lt)

theorem Number.length_lt {negative : Bool} {source rest : List Char} {value : Written}
    (number : Number negative source value rest) : rest.length < source.length := by
  cases number with
  | integer whole => exact whole.length_lt
  | real whole refinement => exact Nat.lt_trans refinement.length_lt whole.length_lt

theorem Separator.length_le {first : Bool} {source rest : List Char}
    (separator : Separator first source rest) : rest.length ≤ source.length := by
  cases separator with
  | opening => exact Nat.le_refl _
  | comma blanks => exact Nat.le_of_succ_le blanks.length_le

mutual

theorem Value.length_lt {source rest : List Char} {value : Written} :
    Value source value rest → rest.length < source.length
  | .null => by simp only [List.length_cons]; omega
  | .true => by simp only [List.length_cons]; omega
  | .false => by simp only [List.length_cons]; omega
  | .number number => number.length_lt
  | .negative number => Nat.lt_succ_of_lt number.length_lt
  | .text spelled => Nat.lt_succ_of_lt spelled.length_lt
  | .array items => Nat.lt_succ_of_lt items.length_lt
  | .object members => Nat.lt_succ_of_lt members.length_lt

theorem Items.length_lt {first : Bool} {source rest : List Char} {items : List Written} :
    Items first source items rest → rest.length < source.length
  | .close blanks => blanks.length_le
  | .item separator blanks value items => by
      have := separator.length_le
      have := blanks.length_le
      have := value.length_lt
      have := items.length_lt
      omega

theorem Members.length_lt {first : Bool} {source rest : List Char}
    {members : List (List Piece × Written)} :
    Members first source members rest → rest.length < source.length
  | .close blanks => blanks.length_le
  | .member separator blanks member members => by
      have := separator.length_le
      have := blanks.length_le
      have := member.length_lt
      have := members.length_lt
      omega

theorem Member.length_lt {source rest : List Char} {member : List Piece × Written} :
    Member source member rest → rest.length < source.length
  | .pair key colon blanks value => by
      have := key.length_lt
      have := Nat.le_of_succ_le colon.length_le
      have := blanks.length_le
      have := value.length_lt
      simp only [List.length_cons]
      omega

end

end TigerTree.Json
