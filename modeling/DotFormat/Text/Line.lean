import DotFormat.Text.Pieces

/-!
This module contains the division of a text into lines. Only a line feed ends a line, and a carriage
return before it belongs to the line ending.
-/

namespace DotFormat.Text

/--
A line without the one carriage return that belongs to its ending.
-/
def dropReturn (line : List Char) : List Char :=
  if line.getLast? = some '\r' then line.dropLast else line

/--
The pieces that are lines: an empty piece after the last line feed is none.
-/
def dropFinalEmpty (pieces : List (List Char)) : List (List Char) :=
  if pieces.getLast? = some [] then pieces.dropLast else pieces

/--
The lines of a text, without their endings. The empty text has no lines.
-/
def splitLines (text : String) : List String :=
  (dropFinalEmpty (pieces '\n' text.toList)).map fun piece => String.ofList (dropReturn piece)

def dropLineEnd (line : String) : String :=
  String.ofList (dropEndWhile (fun c => c == '\r' || c == '\n') line.toList)

end DotFormat.Text
