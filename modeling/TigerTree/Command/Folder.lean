import TigerTree.Text.Split

set_option autoImplicit false

/-!
Folders in which paths are looked up.

A path is a sequence of steps from the folder it is looked up in. Every step but the last has to
lead to a folder, and so has the last one if a separator follows it. What lies outside the folder
is not known: nothing is found there.
-/

namespace TigerTree

/-- Why no text could be read. -/
inductive ReadFailure where
  | missing
  | notFolder
  | isFolder
  | notText
  deriving DecidableEq

def ReadFailure.message : ReadFailure → String
  | missing => "No such file or directory (os error 2)"
  | notFolder => "Not a directory (os error 20)"
  | isFolder => "Is a directory (os error 21)"
  | notText => "stream did not contain valid UTF-8"

inductive Entry where
  | file (bytes : ByteArray)
  | folder

namespace Path

/-- The steps of a path, one between any two separators. -/
def steps (path : String) : List String := (splitAtEach '/' path.toList).map String.ofList

/-- Whether a step leads nowhere else. -/
def stays (step : String) : Bool := step = "" || step = "."

def isAbsolute (path : String) : Bool := path.toList.head? = some '/'

end Path

/-- The entries of a folder and of the folders in it, each under the names that lead to it. -/
structure Folder where
  entries : List (List String × Entry)

namespace Folder

def ofList (entries : List (String × Entry)) : Folder :=
  ⟨entries.map fun (path, entry) => ((Path.steps path).filter fun step => !Path.stays step, entry)⟩

/-- What stands at a place. A folder is also there if only something in it is. -/
def entry? (folder : Folder) (place : List String) : Option Entry :=
  match folder.entries.find? fun (names, _) => names = place with
  | some (_, entry) => some entry
  | none =>
      if place.isEmpty ∨ folder.entries.any fun (names, _) => place.isPrefixOf names then
        some .folder
      else none

/-- Follows the steps of a path from a place; `none` is a place outside the folder. -/
def follow (folder : Folder) : Option (List String) → List String → Except ReadFailure ByteArray
  | place, [] =>
      match place.elim (some .folder) folder.entry? with
      | some (.file bytes) => .ok bytes
      | some .folder => .error .isFolder
      | none => .error .missing
  | place, step :: steps =>
      match place.elim (some .folder) folder.entry? with
      | some (.file _) => .error .notFolder
      | none => .error .missing
      | some .folder =>
          if Path.stays step then follow folder place steps
          else
            match place with
            | none => if step = ".." then follow folder none steps else .error .missing
            | some names =>
                if step = ".." then
                  follow folder (if names.isEmpty then none else some names.dropLast) steps
                else follow folder (some (names ++ [step])) steps

/-- The bytes of the file at a path. -/
def read (folder : Folder) (path : String) : Except ReadFailure ByteArray :=
  follow folder (if Path.isAbsolute path then none else some []) (Path.steps path)

end Folder

end TigerTree
