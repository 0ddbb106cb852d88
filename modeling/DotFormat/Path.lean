import DotFormat.Text.Pieces

/-!
This module contains paths as they are written, and the places that they name. Empty parts and single
dots are left out when a path is read; double dots stay, since what they mean depends on the folders
that are there.
-/

namespace DotFormat

/--
A path, relative unless it has a root.
-/
structure Path where
  /-- The slashes at the beginning: none, one, or exactly two. -/
  root : String := ""
  parts : List String := []
  deriving DecidableEq, Repr

/--
A place in a file tree: the names on the way from its root.
-/
abbrev Place := List String

inductive PathError where
  | emptyName
  deriving DecidableEq, Repr

namespace Path

def ofString (written : String) : Path :=
  let text := written.toList
  { root :=
      match (text.takeWhile (· == '/')).length with
      | 0 => ""
      | 2 => "//"
      | _ => "/"
    parts := ((Text.pieces '/' text).map String.ofList).filter fun part => part ≠ "" ∧ part ≠ "." }

/--
How a path is shown. The path without parts is a single dot.
-/
def text (path : Path) : String :=
  if path.root.isEmpty && path.parts.isEmpty then "."
  else path.root ++ String.intercalate "/" path.parts

/--
The last name of a path, empty if there is none.
-/
def name (path : Path) : String :=
  path.parts.getLast?.getD ""

def parent (path : Path) : Path :=
  { path with parts := path.parts.dropLast }

/--
A name without its suffix, which is its last dot and what follows. There is no suffix if the dot is
the first or the last character.
-/
def stem (name : List Char) : List Char :=
  let ending := name.reverse.takeWhile (· != '.')
  let front := name.take (name.length - (ending.length + 1))
  if !name.contains '.' || ending.isEmpty || front.isEmpty then name else front

def withSuffix (path : Path) (suffix : String) : Except PathError Path :=
  if path.name.isEmpty then .error .emptyName
  else
    .ok { path with
      parts := path.parts.dropLast ++ [String.ofList (stem path.name.toList) ++ suffix] }

/--
Whether a path has a character that no file name has.
-/
def hasNul (path : Path) : Bool :=
  path.parts.any fun part => part.toList.contains '\x00'

def start (path : Path) (current : Place) : Place :=
  if path.root.isEmpty then current else []

/--
One part further, or one back at a double dot.
-/
def enter (place : Place) (part : String) : Place :=
  if part = ".." then place.dropLast else place ++ [part]

/--
The place that a path names from the current folder if all folders on the way are there.
-/
def resolve (path : Path) (current : Place) : Place :=
  path.parts.foldl enter (path.start current)

end Path

end DotFormat
