import DotFormat.Json.Value

/-!
This module contains the writing of JSON. The keys of an object are in order, so equal values have
equal texts, and characters outside ASCII stand for themselves.
-/

namespace DotFormat.Json

def writeChar (c : Char) : List Char :=
  if c == '"' || c == '\\' then ['\\', c]
  else if c == '\n' then ['\\', 'n']
  else if c == '\r' then ['\\', 'r']
  else if c == '\t' then ['\\', 't']
  else if c == '\x0c' then ['\\', 'f']
  else if c == '\x08' then ['\\', 'b']
  else if c.toNat < 0x20 then '\\' :: 'u' :: Text.hexDigits 4 c.toNat
  else [c]

def writeString (s : String) : List Char :=
  '"' :: s.toList.flatMap writeChar ++ ['"']

/--
How the parts of an array or object are set apart: on one line, or each on a line of its own that
begins with a text for each level.
-/
abbrev Indentation := Option String

namespace Indentation

/--
Each part on a line of its own, with a number of spaces for each level. A negative number counts as
none.
-/
def spaces (n : Int) : Indentation :=
  some (String.ofList (List.replicate n.toNat ' '))

/--
The least number that is too great for a width.
-/
def widthLimit : Int := 9223372036854775808

/--
The indentation that a value stands for: nothing, a width, or the text for one level.
-/
def ofJson : Json → Except ValueFault Indentation
  | .null => .ok none
  | .bool b => .ok (spaces b.toNat)
  | .int n => if n < -widthLimit || widthLimit ≤ n then .error .tooWide else .ok (spaces n)
  | .str s => .ok (some s)
  | _ => .error .operation

def lineBreak (indentation : Indentation) (level : Nat) : List Char :=
  match indentation with
  | none => []
  | some step => '\n' :: (List.replicate level step.toList).flatten

def separator (indentation : Indentation) (level : Nat) : List Char :=
  match indentation with
  | none => [',', ' ']
  | some _ => ',' :: indentation.lineBreak level

end Indentation

mutual

/--
The text of a value whose parts are at the given level.
-/
def write (indentation : Indentation) (level : Nat) : Json → List Char
  | .null => "null".toList
  | .bool b => if b then "true".toList else "false".toList
  | .int n => (Text.numeral n).toList
  | .real written => written.toList
  | .str s => writeString s
  | .arr [] => ['[', ']']
  | .arr items =>
    '[' :: indentation.lineBreak level ++ writeItems indentation level items
      ++ indentation.lineBreak (level - 1) ++ [']']
  | .obj [] => ['\x7b', '\x7d']
  | .obj members =>
    '\x7b' :: indentation.lineBreak level ++ writeMembers indentation level members
      ++ indentation.lineBreak (level - 1) ++ ['\x7d']

def writeItems (indentation : Indentation) (level : Nat) : List Json → List Char
  | [] => []
  | [item] => write indentation (level + 1) item
  | item :: items =>
    write indentation (level + 1) item ++ indentation.separator level
      ++ writeItems indentation level items

def writeMembers (indentation : Indentation) (level : Nat) : List (String × Json) → List Char
  | [] => []
  | [(key, value)] => writeString key ++ ':' :: ' ' :: write indentation (level + 1) value
  | (key, value) :: members =>
    writeString key ++ ':' :: ' ' :: write indentation (level + 1) value
      ++ indentation.separator level ++ writeMembers indentation level members

end

mutual

/--
The same value, with the members of all objects in the order of their keys.
-/
def sorted : Json → Json
  | .arr items => .arr (sortedItems items)
  | .obj members => .obj (sortByKey (sortedMembers members))
  | json => json

def sortedItems : List Json → List Json
  | [] => []
  | item :: items => sorted item :: sortedItems items

def sortedMembers : List (String × Json) → List (String × Json)
  | [] => []
  | (key, value) :: members => (key, sorted value) :: sortedMembers members

end

mutual

def hasShortNumerals : Json → Bool
  | .int n => Text.fitsNumeral n
  | .arr items => haveShortNumerals items
  | .obj members => membersHaveShortNumerals members
  | _ => true

def haveShortNumerals : List Json → Bool
  | [] => true
  | item :: items => hasShortNumerals item && haveShortNumerals items

def membersHaveShortNumerals : List (String × Json) → Bool
  | [] => true
  | (_, value) :: members => hasShortNumerals value && membersHaveShortNumerals members

end

def print (indentation : Indentation) (json : Json) : Except Text.NumeralError String :=
  if json.hasShortNumerals then .ok (String.ofList (write indentation 1 json.sorted))
  else .error .tooLong

end DotFormat.Json
