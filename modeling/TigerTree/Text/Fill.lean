import TigerTree.Text.Columns
import TigerTree.Text.Split

set_option autoImplicit false

/-!
Filling lines with the words of a text.

A word goes on the line as long as there is room for it, together with the spaces before it. The
spaces at the end of a line are dropped. A word that is wider than a line is cut.
-/

namespace TigerTree

/-- A word and the number of spaces after it. -/
structure Piece where
  word : List Char
  gap : Nat

namespace Piece

def prepend (char : Char) : List Piece → List Piece
  | [] => if char = ' ' then [⟨[], 1⟩] else [⟨[char], 0⟩]
  | piece :: pieces =>
      if char ≠ ' ' then ⟨char :: piece.word, piece.gap⟩ :: pieces
      else if piece.word.isEmpty then ⟨[], piece.gap + 1⟩ :: pieces
      else ⟨[], 1⟩ :: piece :: pieces

/-- The words of a text; one that starts with spaces has an empty word in front. -/
def split (text : List Char) : List Piece := text.foldr prepend []

/-- Cuts a word where it would leave the line; `part` holds the characters since the last cut,
the last one first. -/
def cutWord (width : Nat) (gap : Nat) (part : List Char) : List Char → List Piece
  | [] => [⟨part.reverse, gap⟩]
  | char :: rest =>
      if part.isEmpty ∨ columns part + charColumns char ≤ width then
        cutWord width gap (char :: part) rest
      else ⟨part.reverse, 0⟩ :: cutWord width gap [char] rest

def cut (width : Nat) (piece : Piece) : List Piece :=
  if columns piece.word ≤ width then [piece] else cutWord width piece.gap [] piece.word

/-- Puts words on lines; `line` holds the words of the current line and `gap` the spaces after
them. -/
def place (width : Nat) (line : List Char) (gap : Nat) : List Piece → List (List Char)
  | [] => [line]
  | piece :: pieces =>
      if columns line + gap + columns piece.word ≤ width then
        place width (line ++ List.replicate gap ' ' ++ piece.word) piece.gap pieces
      else line :: place width piece.word piece.gap pieces

end Piece

/-- The lines of a text when each has a number of columns. -/
def fill (width : Nat) (text : List Char) : List (List Char) :=
  Piece.place width [] 0 ((Piece.split text).flatMap (Piece.cut width))

/-- The lines of a text that may have several paragraphs. -/
def fillParagraphs (width : Nat) (text : String) : List String :=
  ((splitAtEach '\n' text.toList).flatMap (fill width)).map String.ofList

end TigerTree
