/-!
File paths: how they are shown in messages, and what can be wrong with them.
-/

namespace Sprig.CommandLine

/-- Splits a path at every slash. -/
def pathParts (path : List Char) : List (List Char) :=
  match path with
  | [] => [[]]
  | c :: rest =>
    match pathParts rest with
    | [] => [[c]]
    | part :: later => if c = '/' then [] :: part :: later else (c :: part) :: later

/-- What an absolute path starts with. Two slashes, and not more, are kept apart from one. -/
def pathRoot (path : List Char) : List Char :=
  match (path.takeWhile (· == '/')).length with
  | 0 => []
  | 2 => ['/', '/']
  | _ => ['/']

/-- A path without empty parts and parts that lead nowhere. -/
def normalPath (path : String) : String :=
  let chars := path.toList
  let parts := (pathParts chars).filter fun part => !part.isEmpty && part != ['.']
  let shown := pathRoot chars ++ ['/'].intercalate parts
  if shown.isEmpty then "." else String.ofList shown

/-- Why a path leads to no file. -/
inductive PathFault where
  | missing
  | notDirectory
  | isDirectory
  | nameTooLong
  | nullCharacter
deriving DecidableEq, Repr

/-- Whether there is nothing at the path, as far as its parts can be told. -/
def PathFault.leadsNowhere : PathFault → Bool
  | missing | notDirectory | nullCharacter => true
  | isDirectory | nameTooLong => false

/-- The most bytes that a name may have. -/
def nameLimit : Nat :=
  255

/-- The most bytes that a path may have. -/
def pathLimit : Nat :=
  4095

end Sprig.CommandLine
