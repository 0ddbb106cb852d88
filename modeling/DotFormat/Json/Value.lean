import DotFormat.Json.Basic
import DotFormat.Text.Decimal
import DotFormat.Text.Quoted

/-!
This module contains how a JSON value is used where its type was not checked: whether it counts as
yes, and how it is shown in a message.
-/

namespace DotFormat

inductive ValueFault where
  /-- The operation is not there for values of its type. -/
  | operation
  /-- The value has no such part. -/
  | member
  /-- The result has a number with too many digits. -/
  | tooLong
  /-- The result would be longer than any text can be. -/
  | tooWide
  deriving DecidableEq, Repr

namespace Json

/--
Whether a value counts as yes: not `null`, `false`, zero or empty.
-/
def holds : Json → Bool
  | .null => false
  | .bool b => b
  | .int n => n != 0
  | .real _ => true
  | .str s => !s.isEmpty
  | .arr items => !items.isEmpty
  | .obj members => !members.isEmpty

@[simp]
theorem holds_bool (b : Bool) : (Json.bool b).holds = b :=
  rfl

mutual

/--
How a value is shown inside another one or on request: texts are quoted.
-/
def quoted : Json → String
  | .null => "None"
  | .bool b => if b then "True" else "False"
  | .int n => Text.numeral n
  | .real written => written
  | .str s => Text.quote s
  | .arr items => "[" ++ String.intercalate ", " (quotedItems items) ++ "]"
  | .obj members => "\x7b" ++ String.intercalate ", " (quotedMembers members) ++ "\x7d"

def quotedItems : List Json → List String
  | [] => []
  | item :: items => quoted item :: quotedItems items

def quotedMembers : List (String × Json) → List String
  | [] => []
  | (key, value) :: members =>
    (Text.quote key ++ ": " ++ quoted value) :: quotedMembers members

end

/--
How a value is shown in a message: a text stands for itself.
-/
def shown : Json → String
  | .str s => s
  | json => json.quoted

end Json

end DotFormat
