import DotFormat.Cli.Run

/-!
This module contains the program. It takes a picture of the places that the arguments name, lets
`Cli.run` decide on that picture what the run comes to, and carries out the difference.
-/

namespace DotFormat.Cli

def pathsOf (arguments : List String) : List Path :=
  match Order.ofArguments arguments with
  | .error _ => []
  | .ok order =>
    let source := Path.ofString order.input
    source :: (order.outputPath source).toOption.toList

/--
The places on the way along a path, the first one being where it begins.
-/
def placesOn (current : Place) (path : Path) : List Place :=
  go (path.start current) path.parts
where
  go (place : Place) : List String → List Place
    | [] => [place]
    | part :: parts => place :: go (Path.enter place part) parts

/--
The files that are bound otherwise in a later tree.
-/
def changes (earlier later : FileTree) : List (Place × ByteArray) :=
  later.entries.filterMap fun
    | (place, .file bytes) =>
      if earlier.find? place = some (.file bytes) then none else some (place, bytes)
    | (_, .folder) => none

def placeText (place : Place) : String :=
  "/" ++ String.intercalate "/" place

/--
What stands at a place. A file that cannot be read counts as none.
-/
def entryAt? (place : Place) : IO (Option Entry) := do
  let path := (← IO.currentDir) / placeText place
  if ← path.isDir then return some .folder
  try
    return some (.file (← IO.FS.readBinFile path))
  catch _ =>
    return none

def picture (arguments : List String) : IO Disk := do
  let current := (Path.ofString (← IO.currentDir).toString).parts
  let mut tree : FileTree := {}
  for path in pathsOf arguments do
    unless path.hasNul do
      for place in placesOn current path do
        if let some entry ← entryAt? place then
          tree := tree.put place entry
  return { tree, current }

/--
Write a file through a temporary one beside it.
-/
def store (place : Place) (bytes : ByteArray) : IO Unit := do
  let temporary := placeText (place.dropLast ++ ["." ++ place.getLast?.getD "" ++ ".tmp"])
  try
    IO.FS.writeBinFile temporary bytes
    IO.FS.rename temporary (placeText place)
  catch e =>
    try
      IO.FS.removeFile temporary
    catch _ =>
      pure ()
    throw e

def report (outcome : Outcome) : IO UInt32 := do
  for line in outcome.errors do
    IO.eprintln line
  for line in outcome.output do
    IO.println line
  match outcome.exit with
  | .ok status => return status.code.toUInt32
  | .error escape =>
    IO.eprintln (errorLine escape.reason)
    return 1

def start (arguments : List String) : IO UInt32 := do
  let disk ← picture arguments
  let outcome := run disk arguments
  for (place, bytes) in changes disk.tree outcome.tree do
    try
      store place bytes
    catch _ =>
      let error : FileError := { path := placeText place, problem := .write }
      return ← report
        { exit := .ok .failure, errors := [errorLine error.text], tree := disk.tree }
  report outcome

end DotFormat.Cli

def main (arguments : List String) : IO UInt32 :=
  DotFormat.Cli.start arguments
