import DotFormat.Text.Decimal

/-!
This module contains places in the input. The input is read line by line, so a place is a line number
and possibly the name of the file.
-/

namespace DotFormat

/--
A line of the input. Lines are counted from 1, and line 0 stands for the place before the first line.
-/
structure SourceLocation where
  line : Int
  sourceFile : Option String := none
  deriving DecidableEq, Repr

namespace SourceLocation

def beforeFirst (sourceFile : Option String := none) : SourceLocation :=
  { line := 0, sourceFile }

/--
How a place is shown in messages: the name of the file, if it has one, and the line.
-/
def text (location : SourceLocation) : String :=
  match location.sourceFile with
  | none | some "" => Text.numeral location.line
  | some file => file ++ ":" ++ Text.numeral location.line

end SourceLocation

end DotFormat
