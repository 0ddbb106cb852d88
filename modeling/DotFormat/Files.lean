import DotFormat.FileTree
import DotFormat.Renderer
import DotFormat.Text.Encoding
import DotFormat.Text.Line

/-!
This module contains reading input files and writing output files. An output is collected in a
temporary file beside its destination and moved into place at the end, so a failure before that leaves
the tree as it was.
-/

namespace DotFormat

inductive FileProblem where
  | read
  | write
  /-- Any other problem, in words. -/
  | other (words : String)
  deriving DecidableEq, Repr

def FileProblem.text : FileProblem → String
  | read => "cannot read input"
  | write => "cannot write output"
  | other words => words

structure FileError where
  /-- The path of the file, as it is shown. -/
  path : String
  problem : FileProblem
  deriving DecidableEq, Repr

def FileError.text (error : FileError) : String :=
  error.path ++ ": " ++ error.problem.text

/--
Why an operation on a file failed. Failures of kind `ε` come from what the caller does meanwhile.
-/
inductive FileFailure (ε : Type) where
  | file (error : FileError)
  /-- The path has a character that no file name has. -/
  | nul
  /-- The encoding of the output lacks a character. -/
  | unencodable
  | inside (cause : ε)
  deriving DecidableEq, Repr

namespace Disk

def readRecord (path : Path) (text : String) : Log.Record :=
  { level := .debug
    log := Log.qualify "io"
    message := "Read " ++ Nat.repr text.length ++ " characters from " ++ path.text }

def readText (disk : Disk) (path : Path) (encoding : Text.Encoding := .utf8) :
    Except (FileFailure ε) String :=
  if path.hasNul then .error .nul
  else
    match disk.find? path with
    | some (.file bytes) =>
      match encoding.decode? bytes with
      | some text => .ok text
      | none => .error (.file { path := path.text, problem := .read })
    | _ => .error (.file { path := path.text, problem := .read })

def readLines (disk : Disk) (path : Path) (encoding : Text.Encoding := .utf8) :
    Except (FileFailure ε) (List String) :=
  (disk.readText path encoding).map Text.splitLines

/-! ### Output -/

/--
What is done while an output is open.
-/
inductive OutputStep (ε : Type) where
  | write (text : String)
  /-- Take the temporary file away. -/
  | drop
  | fail (cause : ε)

/--
A name that no entry of a tree has: it is longer than each of them.
-/
def unusedName (tree : FileTree) (name : String) : String :=
  let longest := (tree.entries.map fun bound => (bound.1.getLast?.getD "").length).foldl max 0
  "." ++ name ++ "." ++ String.ofList (List.replicate (longest + 1) '0') ++ ".tmp"

/--
The greatest number of bytes in the name of an output. A name has 255 bytes at most, and the temporary
file needs 14 more than the output.
-/
def nameLimit : Nat := 255 - 14

/--
The place of the temporary file for an output. The folder that the path names has to be there.
-/
def temporary? (disk : Disk) (path : Path) : Option Place :=
  let folder := path.parent.resolve disk.current
  if disk.tree.isFolder folder && path.name.utf8ByteSize ≤ nameLimit then
    some (folder ++ [unusedName disk.tree path.name])
  else none

/--
Collect what is written while an output is open. The temporary file may be taken away meanwhile.
-/
def collect (encoding : Text.Encoding) (temporary : Place) (tree : FileTree) (written : ByteArray) :
    List (OutputStep ε) → FileTree × Except (FileFailure ε) ByteArray
  | [] => (tree, .ok written)
  | .write text :: steps =>
    match encoding.encode? text with
    | some bytes => collect encoding temporary tree (written ++ bytes) steps
    | none => (tree, .error .unencodable)
  | .drop :: steps => collect encoding temporary (tree.erase temporary) written steps
  | .fail cause :: _ => (tree, .error (.inside cause))

/--
Move the temporary file to the destination, which must not be a folder.
-/
def commit (disk : Disk) (path : Path) (temporary : Place) (bytes : ByteArray) :
    FileTree × Except (FileFailure ε) Unit :=
  let rest := disk.tree.erase temporary
  match disk.locate path with
  | none => (rest, .error (.file { path := path.text, problem := .write }))
  | some place =>
    if disk.tree.isFolder place || (disk.tree.find? temporary).isNone then
      (rest, .error (.file { path := path.text, problem := .write }))
    else (rest.put place (.file bytes), .ok ())

def writeThrough (disk : Disk) (path : Path) (encoding : Text.Encoding) (temporary : Place)
    (steps : List (OutputStep ε)) : FileTree × Except (FileFailure ε) Unit :=
  let opened := disk.tree.put temporary (.file .empty)
  match collect encoding temporary opened .empty steps with
  | (tree, .error e) => (tree.erase temporary, .error e)
  | (tree, .ok bytes) => { disk with tree }.commit path temporary bytes

/--
Open an output, carry out the steps, and move the output into place.
-/
def writeOutput (disk : Disk) (path : Path) (encoding : Text.Encoding) (steps : List (OutputStep ε)) :
    FileTree × Except (FileFailure ε) Unit :=
  if path.hasNul then (disk.tree, .error .nul)
  else
    match disk.temporary? path with
    | none => (disk.tree, .error (.file { path := path.text, problem := .write }))
    | some temporary => disk.writeThrough path encoding temporary steps

/-! ### Documents -/

def wroteRecord (path : Path) : Log.Record :=
  { level := .info, log := Log.qualify "io", message := "Wrote " ++ path.text }

structure Written where
  tree : FileTree
  result : Except (FileFailure RenderError) Unit
  log : List Log.Record := []

def outputSteps : Except RenderError Rendering → List (OutputStep RenderError)
  | .ok rendering => [.write rendering.text]
  | .error e => [.fail e]

/--
A device that fails while a renderer runs counts as a failure to write.
-/
def deviceFailure (path : Path) : FileFailure RenderError → FileFailure RenderError
  | .inside .device => .file { path := path.text, problem := .write }
  | failure => failure

/--
Render a node and write the text. The renderer runs while the output is open.
-/
def writeNode (disk : Disk) (path : Path) (renderer : Renderer) (node : Node) : Written :=
  if path.hasNul then { tree := disk.tree, result := .error .nul }
  else
    match disk.temporary? path with
    | none => { tree := disk.tree, result := .error (.file { path := path.text, problem := .write }) }
    | some temporary =>
      let rendering := renderer node
      let (tree, result) := disk.writeThrough path .utf8 temporary (outputSteps rendering)
      let renderLog := (rendering.toOption.map (·.log)).getD []
      { tree
        result := result.mapError (deviceFailure path)
        log := renderLog ++ (if result.isOk then [wroteRecord path] else []) }

end Disk

end DotFormat
