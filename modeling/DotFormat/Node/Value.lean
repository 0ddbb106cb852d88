import DotFormat.Json.Value
import DotFormat.Node.Encode

/-!
This module contains how a field of a node is used, whatever it holds. Since fields are not checked
when a tree is read, whoever uses one takes its value for what is needed, and a value that cannot be
taken so is a fault. Documents count as the sequence of their paragraphs.
-/

namespace DotFormat.Node

mutual

/--
How a value is shown inside another one: nodes with all their fields, texts quoted.
-/
def quoted : Node → String
  | plain json => json.quoted
  | tuple [item] => "(" ++ quoted item ++ ",)"
  | tuple items => "(" ++ String.intercalate ", " (quotedItems items) ++ ")"
  | location line sourceFile =>
    locationName ++ "(lineno=" ++ line.quoted ++ ", source_file=" ++ sourceFile.quoted ++ ")"
  | textRun content bold italic large place =>
    NodeType.textRun.name ++ "(content=" ++ quoted content ++ ", bold=" ++ quoted bold
      ++ ", italic=" ++ quoted italic ++ ", large=" ++ quoted large ++ ", location="
      ++ quoted place ++ ")"
  | paragraph runs indent fill place =>
    NodeType.paragraph.name ++ "(runs=" ++ quoted runs ++ ", indent_units=" ++ quoted indent
      ++ ", fill_mode=" ++ quoted fill ++ ", location=" ++ quoted place ++ ")"
  | diagnostic kind message line sourceFile =>
    NodeType.diagnostic.name ++ "(kind=" ++ quoted kind ++ ", message=" ++ quoted message
      ++ ", lineno=" ++ quoted line ++ ", source_file=" ++ quoted sourceFile ++ ")"
  | document paragraphs sourceFile diagnostics =>
    NodeType.document.name ++ "(children=" ++ quoted paragraphs ++ ", source_file="
      ++ quoted sourceFile ++ ", diagnostics=" ++ quoted diagnostics ++ ")"

def quotedItems : List Node → List String
  | [] => []
  | item :: items => quoted item :: quotedItems items

end

def placeText (line sourceFile : Json) : String :=
  if sourceFile.holds then sourceFile.shown ++ ":" ++ line.shown else line.shown

/--
How a value is shown in a message: a text stands for itself, a place for its line, and a diagnostic
for its message.
-/
def shown : Node → Except ValueFault String
  | plain json => .ok json.shown
  | location line sourceFile => .ok (placeText line sourceFile)
  | diagnostic _ (plain (.str message)) _ _ => .ok message
  | diagnostic .. => .error .operation
  | node => .ok node.quoted

def size : Node → Except ValueFault Nat
  | plain (.str s) => .ok s.length
  | plain (.arr items) => .ok items.length
  | plain (.obj members) => .ok members.length
  | tuple items => .ok items.length
  | document paragraphs _ _ => size paragraphs
  | _ => .error .operation

/--
The parts of a value that has parts: the characters of a text, the keys of an object.
-/
def elements : Node → Except ValueFault (List Node)
  | plain (.str s) => .ok (s.toList.map fun c => ofString (String.ofList [c]))
  | plain (.arr items) => .ok (items.map plain)
  | plain (.obj members) => .ok (members.map fun member => ofString member.1)
  | tuple items => .ok items
  | document paragraphs _ _ => elements paragraphs
  | _ => .error .operation

/--
Whether a value counts as yes. Nodes do, but for documents without paragraphs.
-/
def holds : Node → Except ValueFault Bool
  | plain json => .ok json.holds
  | tuple items => .ok !items.isEmpty
  | document paragraphs _ _ => (size paragraphs).map (· != 0)
  | _ => .ok true

/--
A number of times a value. Sequences are repeated.
-/
def times (n : Nat) : Node → Except ValueFault Node
  | plain (.int m) => .ok (ofInt (m * n))
  | plain (.bool b) => .ok (ofInt (b.toNat * n))
  | plain (.str s) => .ok (ofString (String.join (List.replicate n s)))
  | plain (.arr items) => .ok (plain (.arr (List.replicate n items).flatten))
  | tuple items => .ok (tuple (List.replicate n items).flatten)
  | _ => .error .operation

end DotFormat.Node
