import Sprig.CommandLine.Path

/-!
Trees of files, and where a path leads in them.

A path is followed part by part, from the root or from the working directory. Every part is
looked up in a directory, so a file on the way ends the walk, also where the next part leads
back.
-/

namespace Sprig.CommandLine

/-- The names on the way from the root. -/
abbrev Place := List String

inductive Entry where
  | missing
  | directory
  | file (content : ByteArray)

/-- A tree, given by its files and its directories. The directories around them count as given. -/
structure FileTree where
  files : List (Place × ByteArray)
  directories : List Place
  /-- The working directory. -/
  home : Place

namespace FileTree

/-- Whether something in the tree stands at a place or below it. -/
def reaches (tree : FileTree) (place : Place) : Bool :=
  (tree.home :: tree.directories).any place.isPrefixOf ||
    (tree.files.map Prod.fst).any place.isPrefixOf

/-- What stands at a place. -/
def entry (tree : FileTree) (place : Place) : Entry :=
  match tree.files.lookup place with
  | some content => .file content
  | none => if tree.reaches place then .directory else .missing

/-- Makes sure that names can be looked up at a place. -/
def enter (tree : FileTree) (place : Place) : Except PathFault Unit :=
  match tree.entry place with
  | .missing => .error .missing
  | .directory => .ok ()
  | .file _ => .error .notDirectory

/-- Where one part of a path leads. The root is its own parent. -/
def step (tree : FileTree) (place : Place) (part : String) : Except PathFault Place := do
  tree.enter place
  if part == "." then
    return place
  else if part == ".." then
    return place.dropLast
  else if nameLimit < part.utf8ByteSize then
    throw .nameTooLong
  else
    return place ++ [part]

/-- The place from which a path is followed, and the parts to follow. -/
def start (tree : FileTree) (path : String) : Except PathFault (Place × List String) :=
  let chars := path.toList
  if chars.contains '\x00' then
    .error .nullCharacter
  else if path.isEmpty then
    .error .missing
  else if pathLimit < path.utf8ByteSize then
    .error .nameTooLong
  else
    let parts := (pathParts chars).filter (!·.isEmpty)
    .ok (if chars.head? = some '/' then [] else tree.home, parts.map String.ofList)

def endsWithSlash (path : String) : Bool :=
  path.toList.getLast? == some '/'

/-- The content of the file at a path. -/
def read (tree : FileTree) (path : String) : Except PathFault ByteArray := do
  let (place, parts) ← tree.start path
  match tree.entry (← parts.foldlM tree.step place) with
  | .missing => throw .missing
  | .directory => throw .isDirectory
  | .file content => if endsWithSlash path then throw .notDirectory else return content

/-- The place of the file that is written at a path, a new one or one that stands there. A name
with a slash after it asks for a directory, however long it is. -/
def target (tree : FileTree) (path : String) : Except PathFault Place := do
  let (place, parts) ← tree.start path
  let directory ← parts.dropLast.foldlM tree.step place
  match parts.getLast? with
  | none => throw .isDirectory
  | some name =>
    if endsWithSlash path then
      tree.enter directory
      throw .isDirectory
    else
      let place ← tree.step directory name
      match tree.entry place with
      | .directory => throw .isDirectory
      | _ => return place

/-- The path from the working directory to a place below it. -/
def fromHome? (tree : FileTree) (place : Place) : Option String :=
  if tree.home.isPrefixOf place then
    some ("/".intercalate (place.drop tree.home.length))
  else
    none

end FileTree

end Sprig.CommandLine
