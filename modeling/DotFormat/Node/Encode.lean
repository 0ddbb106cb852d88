import DotFormat.Json.Printer
import DotFormat.Node.Basic

/-!
This module contains the JSON form of a node tree. A node is an object whose member `_type` names its
type; a tuple is an array; everything else stands for itself.
-/

namespace DotFormat.Node

def typeKey : String := "_type"

def locationName : String := "SourceLocation"

mutual

def toJson : Node → Json
  | plain json => json
  | tuple items => .arr (toJsons items)
  | location line sourceFile =>
    .obj [(typeKey, .str locationName), ("lineno", line), ("source_file", sourceFile)]
  | textRun content bold italic large place =>
    .obj [(typeKey, .str NodeType.textRun.name), ("content", toJson content),
      ("bold", toJson bold), ("italic", toJson italic), ("large", toJson large),
      ("location", toJson place)]
  | paragraph runs indent fill place =>
    .obj [(typeKey, .str NodeType.paragraph.name), ("runs", toJson runs),
      ("indent_units", toJson indent), ("fill_mode", toJson fill), ("location", toJson place)]
  | diagnostic kind message line sourceFile =>
    .obj [(typeKey, .str NodeType.diagnostic.name), ("kind", toJson kind),
      ("message", toJson message), ("lineno", toJson line), ("source_file", toJson sourceFile)]
  | document paragraphs sourceFile diagnostics =>
    .obj [(typeKey, .str NodeType.document.name), ("children", toJson paragraphs),
      ("source_file", toJson sourceFile), ("diagnostics", toJson diagnostics)]

def toJsons : List Node → List Json
  | [] => []
  | item :: items => toJson item :: toJsons items

end

def toText (indentation : Json.Indentation) (node : Node) : Except Text.NumeralError String :=
  node.toJson.print indentation

end DotFormat.Node
