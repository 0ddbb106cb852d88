import DotFormat.Amount

/-!
This module contains the configuration of a run, and how one is read from the members of an object.
-/

namespace DotFormat

/--
How an input is read. A value of any type may stand for one of the two choices.
-/
structure Config where
  /-- Stop at the first malformed line, instead of skipping and recording it. -/
  strict : Json := .bool true
  /-- The padding of paragraphs that `.fill` opens. -/
  fillPadding : Amount Nat := .number 10
  /-- Accept `.italic` for `.italics`. -/
  acceptAlias : Json := .bool true
  deriving Repr

inductive ConfigError where
  | padding (error : AmountError)
  /-- The values do not come in an object. -/
  | notObject
  | unknownOption (name : String)
  deriving DecidableEq, Repr

def ConfigError.message? : ConfigError → Option String
  | padding error => error.message? "fill_padding_units"
  | _ => none

namespace Config

def isStrict (config : Config) : Bool :=
  config.strict.holds

def acceptsAlias (config : Config) : Bool :=
  config.acceptAlias.holds

def keys : List String :=
  ["strict", "fill_padding_units", "accept_italic_alias"]

/--
The configuration that the members of an object make. Members with other names are ignored.
-/
def ofMembers (members : List (String × Json)) : Except ConfigError Config :=
  match Amount.ofJson ((members.lookup "fill_padding_units").getD (.int 10)) with
  | .error e => .error (.padding e)
  | .ok fillPadding =>
    .ok {
      strict := (members.lookup "strict").getD (.bool true)
      fillPadding
      acceptAlias := (members.lookup "accept_italic_alias").getD (.bool true) }

def ofJson : Json → Except ConfigError Config
  | .obj members => ofMembers members
  | _ => .error .notObject

/--
The configuration that the options of a formatter make. Other options are refused, and a padding of
`null` counts as none.
-/
def ofOptions (members : List (String × Json)) : Except ConfigError Config :=
  match members.find? fun member => !keys.contains member.1 with
  | some member => .error (.unknownOption member.1)
  | none =>
    ofMembers (members.filter fun
      | ("fill_padding_units", .null) => false
      | _ => true)

end Config

end DotFormat
