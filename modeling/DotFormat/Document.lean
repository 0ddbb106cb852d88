import DotFormat.Layout
import DotFormat.Location

/-!
This module contains the document model: runs of text in paragraphs in a document. A paragraph is
sealed, which means that it never changes; the one that still takes runs is an `OpenParagraph`.
-/

namespace DotFormat

/--
Text with the style that was pending when it was read.
-/
structure TextRun where
  content : String
  bold : Bool := false
  italic : Bool := false
  large : Bool := false
  location : SourceLocation := .beforeFirst
  deriving DecidableEq, Repr

namespace TextRun

def styled (content : String) (style : Style) (location : SourceLocation) : TextRun :=
  { content, bold := style.bold, italic := style.italic, large := style.large, location }

def style (run : TextRun) : Style :=
  { bold := run.bold, italic := run.italic, large := run.large }

@[simp]
theorem style_styled (content : String) (style : Style) (location : SourceLocation) :
    (styled content style location).style = style :=
  rfl

end TextRun

/--
A sealed paragraph. Its location is the line of the command that opened it. Paragraphs that were not
made by reading an input may have any padding.
-/
structure Paragraph where
  runs : List TextRun := []
  indent : Amount Int := .number 0
  fill : Bool := false
  location : SourceLocation := .beforeFirst
  deriving DecidableEq, Repr

/--
The record of a line that was skipped.
-/
structure Diagnostic where
  kind : String
  message : String
  line : Option Int := none
  sourceFile : Option String := none
  deriving DecidableEq, Repr

/--
Sealed paragraphs in reading order, with the lines that were skipped.
-/
structure Document where
  paragraphs : List Paragraph := []
  sourceFile : Option String := none
  diagnostics : List Diagnostic := []
  deriving DecidableEq, Repr

def Document.runs (document : Document) : List TextRun :=
  document.paragraphs.flatMap (·.runs)

end DotFormat
