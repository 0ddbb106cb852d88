import DotFormat.Assembly
import DotFormat.OpenParagraph

/-!
This module contains node trees, the form in which documents are handed to other programs. The fields
of a node are not checked, so a field may hold any value; the trees of documents are those in which
every field holds what it should.
-/

namespace DotFormat

/--
A node, or a value in a field of a node.
-/
inductive Node where
  /-- A value that is no node: a scalar, or an object without a type, kept as it is. -/
  | plain (json : Json)
  | tuple (items : List Node)
  | location (line sourceFile : Json)
  | textRun (content bold italic large location : Node)
  | paragraph (runs indent fill location : Node)
  | diagnostic (kind message line sourceFile : Node)
  | document (paragraphs sourceFile diagnostics : Node)
  deriving BEq, Repr, Inhabited

/--
The nodes that can stand on their own.
-/
inductive NodeType where
  | document
  | paragraph
  | textRun
  | diagnostic
  deriving DecidableEq, Repr

namespace NodeType

def name : NodeType → String
  | document => "Document"
  | paragraph => "Paragraph"
  | textRun => "TextRun"
  | diagnostic => "Diagnostic"

def all : List NodeType :=
  [document, paragraph, textRun, diagnostic]

def ofName? (name : String) : Option NodeType :=
  all.find? fun type => type.name = name

end NodeType

namespace Node

def type? : Node → Option NodeType
  | document .. => some .document
  | paragraph .. => some .paragraph
  | textRun .. => some .textRun
  | diagnostic .. => some .diagnostic
  | _ => none

def ofString (s : String) : Node :=
  plain (.str s)

def ofInt (n : Int) : Node :=
  plain (.int n)

def ofBool (b : Bool) : Node :=
  plain (.bool b)

def ofOption (f : α → Json) : Option α → Json
  | none => .null
  | some a => f a

end Node

instance : Flag Node where
  ofBool := Node.ofBool

/-! ### The trees of the document model -/

def SourceLocation.toNode (location : SourceLocation) : Node :=
  .location (.int location.line) (Node.ofOption .str location.sourceFile)

def TextRun.toNode (run : TextRun) : Node :=
  .textRun (.ofString run.content) (.ofBool run.bold) (.ofBool run.italic) (.ofBool run.large)
    run.location.toNode

def Paragraph.toNode (paragraph : Paragraph) : Node :=
  .paragraph (.tuple (paragraph.runs.map TextRun.toNode)) (.plain paragraph.indent.toJson)
    (.ofBool paragraph.fill) paragraph.location.toNode

def Diagnostic.toNode (diagnostic : Diagnostic) : Node :=
  .diagnostic (.ofString diagnostic.kind) (.ofString diagnostic.message)
    (.plain (Node.ofOption .int diagnostic.line))
    (.plain (Node.ofOption .str diagnostic.sourceFile))

def Document.toNode (document : Document) : Node :=
  .document (.tuple (document.paragraphs.map Paragraph.toNode))
    (.plain (Node.ofOption .str document.sourceFile))
    (.tuple (document.diagnostics.map Diagnostic.toNode))

/-! ### Trees from parts that were not checked -/

namespace Node

def styled (content : Node) (style : Style Node) (location : SourceLocation) : Node :=
  .textRun content style.bold style.italic style.large location.toNode

def ofOpen (paragraph : OpenParagraph (Layout Node) Node) : Node :=
  .paragraph (.tuple paragraph.runs) (.plain paragraph.layout.indent.ofNat.toJson)
    paragraph.layout.fill paragraph.location.toNode

def ofDraft (draft : Draft Json Node Node) : Node :=
  .document (.tuple draft.paragraphs) (.plain draft.sourceFile) (.tuple draft.diagnostics)

end Node

end DotFormat
