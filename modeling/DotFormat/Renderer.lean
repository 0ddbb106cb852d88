import DotFormat.Html.Tree

/-!
This module contains the output forms. A renderer makes a text of a node; the ones of the program make
an HTML page of a document and JSON of any node.
-/

namespace DotFormat

inductive RenderError where
  /-- The renderer does not accept the node, for the reason given. -/
  | refused (message : String)
  /-- The renderer failed at a device, such as a disk. -/
  | device
  /-- A value in the node cannot be written. -/
  | value (fault : ValueFault)
  deriving DecidableEq, Repr

structure Rendering where
  text : String
  log : List Log.Record := []
  deriving DecidableEq, Repr

/--
A renderer is known by what it makes of a node.
-/
abbrev Renderer := Node → Except RenderError Rendering

namespace Renderer

def typeName (node : Node) : String :=
  match node.type? with
  | some type => type.name
  | none => ""

def html (options : Html.Options := {}) : Renderer
  | .document paragraphs _ _ =>
    match Html.blocksOf paragraphs with
    | .error fault => .error (.value fault)
    | .ok blocks =>
      .ok { text := Html.write options blocks, log := [Html.renderRecord blocks.length] }
  | node => .error (.refused ("HtmlRenderer expects a Document, got " ++ typeName node))

/--
JSON, with a line feed at its end.
-/
def json (indentation : Json.Indentation := .spaces 2) : Renderer := fun node =>
  match node.toText indentation with
  | .error .tooLong => .error (.value .tooLong)
  | .ok text => .ok { text := text ++ "\n" }

end Renderer

end DotFormat
