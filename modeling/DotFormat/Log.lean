/-!
This module contains the records that the parts of the program leave of what they do.
-/

namespace DotFormat.Log

/--
How much a record matters, in increasing order.
-/
inductive Level where
  | debug
  | info
  | warning
  | error
  deriving DecidableEq, Repr

def Level.name : Level → String
  | debug => "DEBUG"
  | info => "INFO"
  | warning => "WARNING"
  | error => "ERROR"

def Level.rank : Level → Nat
  | debug => 0
  | info => 1
  | warning => 2
  | error => 3

structure Record where
  level : Level
  log : String
  message : String
  deriving DecidableEq, Repr

def Record.text (record : Record) : String :=
  "[" ++ record.level.name ++ "] " ++ record.log ++ ": " ++ record.message

def family : String := "dotpress"

/--
The full name of a log: a name outside the family is put into it.
-/
def qualify (name : String) : String :=
  if name = family || (family ++ ".").toList.isPrefixOf name.toList then name
  else family ++ "." ++ name

end DotFormat.Log
