import DotFormat.Command
import DotFormat.Location
import DotFormat.ParseError
import DotFormat.Text.Blank

/-!
This module contains the reading of one line. A line that begins with a dot is a command, and every
other line is text, kept exactly as it is.
-/

namespace DotFormat

inductive Line where
  | text (content : String) (location : SourceLocation)
  | command (command : Command) (location : SourceLocation)
  deriving DecidableEq, Repr

namespace Command

/--
The padding that an argument stands for: ASCII digits, at most `Text.digitLimit` of them.
-/
def readUnits (directive : String) (argument : List Char) : Except (Refusal LineFault) Nat :=
  let digits := if argument.head? = some '-' then argument.tail else argument
  if digits.isEmpty || !digits.all Char.isDigit then
    .error (.malformed (.invalidArgument directive (String.ofList argument) .notInteger))
  else if argument.head? = some '-' then
    .error (.malformed (.invalidArgument directive (String.ofList argument) .negative))
  else
    match Text.readDigits digits with
    | .ok n => .ok n
    | .error .tooLong => .error .tooLong

/--
The command of a keyword, spelled `directive`, with the words behind it.
-/
def ofWords (keyword : Keyword) (directive : String) (arguments : List (List Char)) :
    Except (Refusal LineFault) Command :=
  let joined := String.ofList (List.intercalate [' '] arguments)
  match keyword.command? with
  | some command =>
    if arguments.isEmpty then .ok command
    else .error (.malformed (.invalidArgument directive joined .takesNone))
  | none =>
    match arguments with
    | [] => .error (.malformed (.missingArgument directive))
    | [argument] => (readUnits directive argument).map .indent
    | _ => .error (.malformed (.invalidArgument directive joined .notSingle))

/--
The command that stands behind the dot of a line. Its name must follow the dot at once.
-/
def read (rest : List Char) (acceptAlias : Bool) : Except (Refusal LineFault) Command :=
  match Text.words rest with
  | [] => .error (.malformed (.unknownDirective ""))
  | name :: arguments =>
    if rest.head?.any Text.isBlank then .error (.malformed (.unknownDirective ""))
    else
      let directive := String.ofList name
      match Keyword.ofName? directive acceptAlias with
      | none => .error (.malformed (.unknownDirective directive))
      | some keyword => ofWords keyword directive arguments

end Command

namespace Line

def isCommand (line : String) : Bool :=
  line.toList.head? = some commandMark

def read (line : String) (location : SourceLocation) (acceptAlias : Bool := true) :
    Except (Refusal ParseError) Line :=
  if isCommand line then
    match Command.read line.toList.tail acceptAlias with
    | .ok found => .ok (.command found location)
    | .error refusal => .error (refusal.map fun fault =>
        { fault, line := some location.line, sourceFile := location.sourceFile,
          lineText := some line })
  else .ok (.text line location)

end Line

end DotFormat
