import DotFormat.Document

/-!
This module contains the collection of sealed paragraphs into a document. A draft takes paragraphs and
diagnostics; an assembly is a draft that can be completed once, and after that takes nothing more.
What paragraphs and diagnostics are does not matter for that.
-/

namespace DotFormat

structure Draft (file : Type := Option String) (paragraph : Type := Paragraph)
    (diagnostic : Type := Diagnostic) where
  sourceFile : file
  paragraphs : List paragraph := []
  diagnostics : List diagnostic := []
  deriving DecidableEq, Repr

namespace Draft

variable {file paragraph diagnostic : Type}

def append (draft : Draft file paragraph diagnostic) (added : paragraph) :
    Draft file paragraph diagnostic :=
  { draft with paragraphs := draft.paragraphs ++ [added] }

def record (draft : Draft file paragraph diagnostic) (added : diagnostic) :
    Draft file paragraph diagnostic :=
  { draft with diagnostics := draft.diagnostics ++ [added] }

def document (draft : Draft) : Document :=
  { paragraphs := draft.paragraphs
    sourceFile := draft.sourceFile
    diagnostics := draft.diagnostics }

end Draft

inductive AssemblyOperation where
  | append
  | record
  | complete
  deriving DecidableEq, Repr

def AssemblyOperation.name : AssemblyOperation → String
  | append => "append"
  | record => "record"
  | complete => "complete"

inductive AssemblyError where
  | alreadyCompleted (operation : AssemblyOperation)
  deriving DecidableEq, Repr

def AssemblyError.message : AssemblyError → String
  | alreadyCompleted operation => "cannot " ++ operation.name ++ ": document already completed"

/--
A draft together with the document that was made of it, if it was completed.
-/
structure Assembly (file : Type := Option String) (paragraph : Type := Paragraph)
    (diagnostic : Type := Diagnostic) where
  draft : Draft file paragraph diagnostic
  completed : Option (Draft file paragraph diagnostic) := none
  deriving DecidableEq, Repr

/--
Work on an assembly. What it changed before it failed stays changed.
-/
abbrev Assembling (file paragraph diagnostic : Type) :=
  ExceptT AssemblyError (StateM (Assembly file paragraph diagnostic))

namespace Assembly

variable {file paragraph diagnostic : Type}

def start (sourceFile : file) : Assembly file paragraph diagnostic :=
  { draft := { sourceFile } }

def size (assembly : Assembly file paragraph diagnostic) : Nat :=
  assembly.draft.paragraphs.length

def isCompleted (assembly : Assembly file paragraph diagnostic) : Bool :=
  assembly.completed.isSome

def checkOpen (operation : AssemblyOperation) : Assembling file paragraph diagnostic Unit := do
  if (← get).isCompleted then throw (.alreadyCompleted operation)

def append (added : paragraph) : Assembling file paragraph diagnostic Unit := do
  checkOpen .append
  modify fun assembly => { assembly with draft := assembly.draft.append added }

def record (added : diagnostic) : Assembling file paragraph diagnostic Unit := do
  checkOpen .record
  modify fun assembly => { assembly with draft := assembly.draft.record added }

/--
Complete the document. What was collected stays as it is from then on.
-/
def complete : Assembling file paragraph diagnostic (Draft file paragraph diagnostic) := do
  checkOpen .complete
  let draft := (← get).draft
  modify fun assembly => { assembly with completed := some draft }
  return draft

end Assembly

end DotFormat
