import DotFormat.Text.Decimal
import DotFormat.Text.Pieces
import DotFormat.Text.Quoted

/-!
This module contains what can be wrong with a line that begins with a dot, and the messages that say
so.
-/

namespace DotFormat

inductive ArgumentFault where
  | takesNone
  | notSingle
  | notInteger
  | negative
  /-- Any other reason, in words. -/
  | other (reason : String)
  deriving DecidableEq, Repr

def ArgumentFault.text : ArgumentFault → String
  | takesNone => "takes no arguments"
  | notSingle => "expected a single integer"
  | notInteger => "not an integer"
  | negative => "must not be negative"
  | other reason => reason

inductive LineFault where
  /-- The name behind the dot is no name of a command; it is empty if a blank or nothing follows. -/
  | unknownDirective (name : String)
  | missingArgument (directive : String)
  | invalidArgument (directive argument : String) (reason : ArgumentFault)
  /-- Any other fault, in words. -/
  | other (message : String)
  deriving DecidableEq, Repr

namespace LineFault

def kind : LineFault → String
  | unknownDirective _ => "UnknownDirectiveError"
  | missingArgument _ => "MissingArgumentError"
  | invalidArgument .. => "InvalidArgumentError"
  | other _ => "ParseError"

/--
The words about an argument, which is given as it is shown.
-/
def argumentMessage (directive shown reason : String) : String :=
  "invalid argument " ++ shown ++ " for '." ++ directive ++ "': " ++ reason

/--
What is wrong, in words. Text that comes from the line itself is quoted.
-/
def message : LineFault → String
  | unknownDirective name => "unknown directive " ++ Text.quote ("." ++ name)
  | missingArgument directive => "directive '." ++ directive ++ "' requires an argument"
  | invalidArgument directive argument reason =>
    argumentMessage directive (Text.quote argument) reason.text
  | other message => message

end LineFault

structure ParseError where
  fault : LineFault
  line : Option Int := none
  sourceFile : Option String := none
  lineText : Option String := none
  deriving DecidableEq, Repr

namespace ParseError

/--
A file and a line as far as they are known, each followed by a colon.
-/
def placeText (sourceFile line : Option String) : String :=
  (sourceFile.elim "" (· ++ ":")) ++ (line.elim "" (· ++ ":"))

/--
A message behind the place that it is about, with exactly one colon between them.
-/
def located (place message : String) : String :=
  if place.isEmpty then message
  else String.ofList (Text.dropEndWhile (· == ':') place.toList) ++ ": " ++ message

/--
The place of an error. A file without a name counts as unknown.
-/
def place (error : ParseError) : String :=
  placeText (error.sourceFile.filter (· ≠ "")) (error.line.map Text.numeral)

def text (error : ParseError) : String :=
  located error.place error.fault.message

end ParseError

/--
Why a line is not accepted: it is malformed, or it has a numeral that is too long to be read.
-/
inductive Refusal (α : Type) where
  | malformed (cause : α)
  | tooLong
  deriving DecidableEq, Repr

def Refusal.map (f : α → β) : Refusal α → Refusal β
  | malformed cause => malformed (f cause)
  | tooLong => tooLong

end DotFormat
