import DotFormat.Document
import DotFormat.Html.Escape
import DotFormat.Log

/-!
This module contains the HTML form of a document: one `p` element for each paragraph, the empty ones
included, with the layout in its `style` attribute, and the style of a run in the elements around it.
What is shown of a document is a list of blocks, and the markup is made of these.
-/

namespace DotFormat.Html

def pointsPerIndentUnit : Int := 10

def normalFontSize : Int := 12

def largeFontSize : Int := 22

structure Span where
  content : String
  bold : Bool := false
  italic : Bool := false
  large : Bool := false
  deriving DecidableEq, Repr

structure Block where
  /-- The padding in points, in words; none is the default. -/
  padding : Option String := none
  justified : Bool := false
  spans : List Span := []
  deriving DecidableEq, Repr

/-! ### The markup -/

/--
A span inside the elements for its style. The outermost one is the font size.
-/
def Span.markup (span : Span) : String :=
  let text := escape span.content
  let text := if span.italic then "<em>" ++ text ++ "</em>" else text
  let text := if span.bold then "<strong>" ++ text ++ "</strong>" else text
  if span.large then
    "<span style=\"font-size: " ++ Text.numeral largeFontSize ++ "pt\">" ++ text ++ "</span>"
  else text

namespace Block

/--
The style declarations of a block. The default layout has none.
-/
def declarations (block : Block) : List String :=
  (match block.padding with
    | none => []
    | some points => ["padding-left: " ++ points ++ "pt"])
  ++ (if block.justified then ["text-align: justify"] else [])

def styleAttribute (block : Block) : String :=
  if block.declarations.isEmpty then ""
  else " style=\"" ++ String.intercalate "; " block.declarations ++ "\""

def markup (block : Block) : String :=
  "<p" ++ block.styleAttribute ++ ">"
    ++ String.intercalate "\n" (block.spans.map Span.markup) ++ "</p>\n"

end Block

def body (blocks : List Block) : String :=
  String.join (blocks.map Block.markup)

def page (title body : String) : String :=
  "<!DOCTYPE html>\n<html lang=\"en\">\n<head>\n  <meta charset=\"utf-8\" />\n  <title>"
    ++ escape title
    ++ "</title>\n  <style>\n    body \x7b font-family: Helvetica, Arial, sans-serif; font-size: "
    ++ Text.numeral normalFontSize
    ++ "pt; \x7d\n  </style>\n</head>\n<body>\n" ++ body ++ "</body>\n</html>\n"

structure Options where
  /-- Make a whole page, rather than its body only. -/
  standalone : Bool := true
  title : String := "dotpress document"
  deriving DecidableEq, Repr

def write (options : Options) (blocks : List Block) : String :=
  if options.standalone then page options.title (body blocks) else body blocks

/-! ### Documents -/

def Span.ofRun (run : TextRun) : Span :=
  { content := run.content, bold := run.bold, italic := run.italic, large := run.large }

def points (paragraph : Paragraph) : Int :=
  paragraph.indent.value * pointsPerIndentUnit

def Block.ofParagraph (paragraph : Paragraph) : Block :=
  { padding :=
      if paragraph.indent.value = 0 then none else some (Text.numeral (points paragraph))
    justified := paragraph.fill
    spans := paragraph.runs.map Span.ofRun }

def blocks (document : Document) : List Block :=
  document.paragraphs.map Block.ofParagraph

/--
Whether the padding of a paragraph can be written.
-/
def hasShortNumeral (paragraph : Paragraph) : Bool :=
  paragraph.indent.value == 0 || Text.fitsNumeral (points paragraph)

def render (options : Options) (document : Document) : Except Text.NumeralError String :=
  if document.paragraphs.all hasShortNumeral then .ok (write options (blocks document))
  else .error .tooLong

def renderRecord (paragraphs : Nat) : Log.Record :=
  { level := .debug
    log := Log.qualify "renderers.html"
    message := "Rendered " ++ Nat.repr paragraphs ++ " paragraph(s) to HTML" }

end DotFormat.Html
