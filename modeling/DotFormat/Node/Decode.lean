import DotFormat.Json.Reader
import DotFormat.Node.Encode

/-!
This module contains the reading of a node tree from its JSON form. Members that a node does not
declare are not looked at, and the others are read in the order in which they are declared, so of
several errors the first one in that order is reported. That a required member is missing is reported
after all that are there.
-/

namespace DotFormat

inductive NodeError where
  /-- The value is no object. -/
  | notObject
  /-- An object does not name its type. -/
  | missingType
  /-- There is no type with the given name; the name may be any scalar. -/
  | unknownType (name : Json)
  /-- An array or object stands for the name of a type. -/
  | compoundType
  /-- A required member is missing. -/
  | missingField
  /-- A place has no line. -/
  | missingLine
  /-- A node of another type stands for a document. -/
  | notDocument (type : NodeType)
  deriving Repr

def NodeError.message? : NodeError → Option String
  | missingType => some "Missing '_type' field in serialized node"
  | unknownType name => some ("Unknown node type: " ++ name.quoted)
  | notDocument type => some ("Expected Document, got " ++ type.name)
  | _ => none

namespace Node

/--
The members of an object, read.
-/
abbrev Fields := List (String × Except NodeError Node)

namespace Fields

def find? (fields : Fields) (key : String) : Except NodeError (Option Node) :=
  match fields.lookup key with
  | none => .ok none
  | some value => value.map some

def findD (fields : Fields) (key : String) (default : Node) : Except NodeError Node :=
  (fields.find? key).map (·.getD default)

end Fields

def require : Option Node → Except NodeError Node
  | none => .error .missingField
  | some node => .ok node

/--
The place of a node that does not say where it stands.
-/
def noLocation : Node :=
  SourceLocation.beforeFirst.toNode

def ofFields (type : NodeType) (fields : Fields) : Except NodeError Node :=
  match type with
  | .document => do
    let paragraphs ← fields.findD "children" (.tuple [])
    let sourceFile ← fields.findD "source_file" (.plain .null)
    let diagnostics ← fields.findD "diagnostics" (.tuple [])
    return .document paragraphs sourceFile diagnostics
  | .paragraph => do
    let runs ← fields.findD "runs" (.tuple [])
    let indent ← fields.findD "indent_units" (.ofInt 0)
    let fill ← fields.findD "fill_mode" (.ofBool false)
    let place ← fields.findD "location" noLocation
    return .paragraph runs indent fill place
  | .textRun => do
    let content ← fields.find? "content"
    let bold ← fields.findD "bold" (.ofBool false)
    let italic ← fields.findD "italic" (.ofBool false)
    let large ← fields.findD "large" (.ofBool false)
    let place ← fields.findD "location" noLocation
    return .textRun (← require content) bold italic large place
  | .diagnostic => do
    let kind ← fields.find? "kind"
    let message ← fields.find? "message"
    let line ← fields.findD "lineno" (.plain .null)
    let sourceFile ← fields.findD "source_file" (.plain .null)
    return .diagnostic (← require kind) (← require message) line sourceFile

def typeNamed : Json → Except NodeError NodeType
  | .null => .error .missingType
  | .arr _ => .error .compoundType
  | .obj _ => .error .compoundType
  | .str name =>
    match NodeType.ofName? name with
    | some type => .ok type
    | none => .error (.unknownType (.str name))
  | name => .error (.unknownType name)

/--
Whether a member `_type` says that its object is a place.
-/
def namesLocation : Json → Bool
  | .str name => name = locationName
  | _ => false

def locationOf (members : List (String × Json)) : Except NodeError Node :=
  match members.lookup "lineno" with
  | none => .error .missingLine
  | some line => .ok (.location line ((members.lookup "source_file").getD .null))

mutual

/--
The value of a member.
-/
def ofField : Json → Except NodeError Node
  | .arr items => (ofItems items).map .tuple
  | .obj members =>
    match members.lookup typeKey with
    | none | some .null => .ok (.plain (.obj members))
    | some name =>
      if namesLocation name then locationOf members
      else
        match typeNamed name with
        | .error e => .error e
        | .ok type => ofFields type (readMembers members)
  | json => .ok (.plain json)

def ofItems : List Json → Except NodeError (List Node)
  | [] => .ok []
  | item :: items =>
    match ofField item with
    | .error e => .error e
    | .ok node => (ofItems items).map (node :: ·)

def readMembers : List (String × Json) → Fields
  | [] => []
  | (key, value) :: members => (key, ofField value) :: readMembers members

end

/--
The node that a value stands for.
-/
def ofJson : Json → Except NodeError Node
  | .obj members =>
    match typeNamed ((members.lookup typeKey).getD .null) with
    | .error e => .error e
    | .ok type => ofFields type (readMembers members)
  | _ => .error .notObject

inductive TextError where
  | json (error : Json.ReadError)
  | node (error : NodeError)
  deriving Repr

def ofText (text : String) : Except TextError Node :=
  match Json.read text with
  | .error e => .error (.json e)
  | .ok json =>
    match ofJson json with
    | .error e => .error (.node e)
    | .ok node =>
      match node.type? with
      | some .document | none => .ok node
      | some type => .error (.node (.notDocument type))

end Node

end DotFormat
