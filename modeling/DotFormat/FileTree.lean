import DotFormat.Path

/-!
This module contains file trees. A tree binds places to entries; the place without names is its root,
which is always a folder.
-/

namespace DotFormat

inductive Entry where
  | file (bytes : ByteArray)
  | folder

instance : DecidableEq Entry
  | .file a, .file b =>
    match ByteArray.instDecidableEq a b with
    | .isTrue h => .isTrue (congrArg Entry.file h)
    | .isFalse h => .isFalse fun e => h (Entry.file.inj e)
  | .folder, .folder => .isTrue rfl
  | .file _, .folder => .isFalse nofun
  | .folder, .file _ => .isFalse nofun

/--
The entries below the root, each place at most once.
-/
structure FileTree where
  entries : List (Place × Entry) := []
  deriving DecidableEq

namespace FileTree

def find? (tree : FileTree) (place : Place) : Option Entry :=
  if place = [] then some .folder else tree.entries.lookup place

def isFolder (tree : FileTree) (place : Place) : Bool :=
  tree.find? place = some .folder

/--
Bind a place. A place that is bound keeps its position.
-/
def put (tree : FileTree) (place : Place) (entry : Entry) : FileTree :=
  { entries := go tree.entries }
where
  go : List (Place × Entry) → List (Place × Entry)
    | [] => [(place, entry)]
    | bound :: entries => if bound.1 = place then (place, entry) :: entries else bound :: go entries

def erase (tree : FileTree) (place : Place) : FileTree :=
  { entries := tree.entries.filter fun bound => bound.1 ≠ place }

/--
Make a folder, and those that it stands in.
-/
def addFolder (tree : FileTree) (place : Place) : FileTree :=
  (List.range place.length).foldl (fun tree n =>
    if (tree.find? (place.take (n + 1))).isSome then tree
    else tree.put (place.take (n + 1)) .folder) tree

/--
Follow the parts of a path. Every part but the last has to lead to a folder.
-/
def walk (tree : FileTree) (place : Place) : List String → Option Place
  | [] => some place
  | part :: parts =>
    if tree.isFolder place then tree.walk (Path.enter place part) parts else none

/--
Entries that were bound beside each other and taken away again leave no trace.
-/
theorem erase_put (tree : FileTree) (place : Place) (entry : Entry)
    (h : ∀ bound ∈ tree.entries, bound.1 ≠ place) : (tree.put place entry).erase place = tree := by
  obtain ⟨entries⟩ := tree
  simp only [put, erase, mk.injEq]
  induction entries with
  | nil => simp [put.go]
  | cons bound entries ih =>
    have hb : bound.1 ≠ place := h bound (by simp)
    have ht : ∀ bound ∈ entries, bound.1 ≠ place := fun bound hm => h bound (by simp [hm])
    simpa [put.go, hb] using ih ht

end FileTree

structure Disk where
  tree : FileTree := {}
  current : Place := []
  deriving DecidableEq

namespace Disk

/--
The greatest number of bytes of a path that can be followed.
-/
def pathLimit : Nat := 4095

/--
The place that a path leads to. There need not be anything at the place itself.
-/
def locate (disk : Disk) (path : Path) : Option Place :=
  if path.text.utf8ByteSize ≤ pathLimit then
    disk.tree.walk (path.start disk.current) path.parts
  else none

def find? (disk : Disk) (path : Path) : Option Entry :=
  (disk.locate path).bind disk.tree.find?

end Disk

end DotFormat
