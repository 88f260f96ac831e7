import TigerTree.Text.Quoted

set_option autoImplicit false

/-!
Outlines: the shape in which values are shown to a reader.

An outline is a word, quoted text, a name applied to one outline, a record of named fields or a
list. It can be shown on one line, or indented, with each part on a line of its own.
-/

namespace TigerTree

inductive Outline where
  | word (text : String)
  | quoted (text : String)
  | apply (name : String) (argument : Outline)
  | record (name : String) (fields : List (String × Outline))
  | list (items : List Outline)

namespace Outline

mutual

/-- The outline on one line, in front of the rest of the text. -/
def writeInline : Outline → List Char → List Char
  | word text, rest => text.toList ++ rest
  | quoted text, rest => writeQuoted text rest
  | apply name argument, rest => name.toList ++ '(' :: writeInline argument (')' :: rest)
  | record name fields, rest =>
      name.toList ++ " \x7b ".toList ++ writeInlineFields true fields (" \x7d".toList ++ rest)
  | list items, rest => '[' :: writeInlineItems true items (']' :: rest)

def writeInlineFields : Bool → List (String × Outline) → List Char → List Char
  | _, [], rest => rest
  | first, (name, value) :: fields, rest =>
      (if first then [] else ", ".toList) ++
        (name.toList ++ ": ".toList ++ writeInline value (writeInlineFields false fields rest))

def writeInlineItems : Bool → List Outline → List Char → List Char
  | _, [], rest => rest
  | first, item :: items, rest =>
      (if first then [] else ", ".toList) ++ writeInline item (writeInlineItems false items rest)

end

/-- A line break followed by the indentation of a nesting depth. -/
def newline (depth : Nat) (rest : List Char) : List Char :=
  '\n' :: (List.replicate (4 * depth) ' ' ++ rest)

mutual

/-- The outline at a nesting depth, every part on a line of its own with a comma after it. -/
def writeIndented (depth : Nat) : Outline → List Char → List Char
  | word text, rest => text.toList ++ rest
  | quoted text, rest => writeQuoted text rest
  | apply name argument, rest =>
      name.toList ++ '(' :: newline (depth + 1)
        (writeIndented (depth + 1) argument (',' :: newline depth (')' :: rest)))
  | record name fields, rest =>
      name.toList ++ " \x7b".toList ++
        writeIndentedFields (depth + 1) fields (newline depth ('\x7d' :: rest))
  | list [], rest => '[' :: ']' :: rest
  | list (item :: items), rest =>
      '[' :: newline (depth + 1) (writeIndented (depth + 1) item
        (',' :: writeIndentedItems (depth + 1) items (newline depth (']' :: rest))))

def writeIndentedFields (depth : Nat) : List (String × Outline) → List Char → List Char
  | [], rest => rest
  | (name, value) :: fields, rest =>
      newline depth (name.toList ++ ": ".toList ++
        writeIndented depth value (',' :: writeIndentedFields depth fields rest))

def writeIndentedItems (depth : Nat) : List Outline → List Char → List Char
  | [], rest => rest
  | item :: items, rest =>
      newline depth (writeIndented depth item (',' :: writeIndentedItems depth items rest))

end

def inline (outline : Outline) : String := String.ofList (outline.writeInline [])

def indented (outline : Outline) : String := String.ofList (outline.writeIndented 0 [])

end Outline

end TigerTree
