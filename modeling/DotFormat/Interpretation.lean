import DotFormat.Assembly
import DotFormat.Machine
import DotFormat.Text.Line

/-!
This module contains the reading of a whole input. A strict run stops at the first malformed line; any
other run leaves malformed lines out and records them.
-/

namespace DotFormat

structure Interpretation where
  result : Except (Refusal ParseError) Document
  log : List Log.Record

namespace Interpretation

/--
Put records in front of those of a run.
-/
def after (log : List Log.Record) (run : Interpretation) : Interpretation :=
  { run with log := log ++ run.log }

def skipRecord (error : ParseError) : Log.Record :=
  { level := .warning
    log := Log.qualify "interpreter"
    message := "Skipping line: " ++ error.text }

def diagnostic (error : ParseError) : Diagnostic :=
  { kind := error.fault.kind
    message := error.text
    line := error.line
    sourceFile := error.sourceFile }

def doneRecord (lines : Nat) (document : Document) : Log.Record :=
  { level := .info
    log := Log.qualify "interpreter"
    message := "Interpreted " ++ Nat.repr lines ++ " line(s) into "
      ++ Nat.repr document.paragraphs.length ++ " paragraph(s)"
      ++ (if document.diagnostics.isEmpty then ""
        else ", " ++ Nat.repr document.diagnostics.length ++ " line(s) skipped") }

/--
The run over the lines behind the first `seen` ones, with what those led to.
-/
def go (config : Config) (sourceFile : Option String) (seen : Nat) (machine : Machine)
    (draft : Draft) : List String → Interpretation
  | [] =>
    let document := (draft.append machine.finish).document
    { result := .ok document, log := [doneRecord seen document] }
  | line :: lines =>
    let location : SourceLocation := { line := (seen + 1 : Nat), sourceFile }
    match machine.process config (Text.dropLineEnd line) location with
    | .ok move =>
      (go config sourceFile (seen + 1) move.machine
        (match move.emitted with
          | none => draft
          | some paragraph => draft.append paragraph)
        lines).after move.log
    | .error .tooLong => { result := .error .tooLong, log := [] }
    | .error (.malformed error) =>
      if config.isStrict then { result := .error (.malformed error), log := [] }
      else
        (go config sourceFile (seen + 1) machine (draft.record (diagnostic error)) lines).after
          [skipRecord error]

end Interpretation

/--
Read the lines of an input. Line endings at the end of a line do not belong to it.
-/
def interpret (config : Config) (lines : List String) (sourceFile : Option String := none) :
    Interpretation :=
  Interpretation.go config sourceFile 0 (.start sourceFile) { sourceFile } lines

def interpretText (config : Config) (source : String) (sourceFile : Option String := none) :
    Interpretation :=
  interpret config (Text.splitLines source) sourceFile

end DotFormat
