import DotFormat.Text.Integer
import DotFormat.Text.Pieces

/-!
This module contains the options of the command line and how an argument is told apart as an option. A
long option may be shortened as long as only one option begins so, and takes a value behind an equals
sign; a short one takes a value that follows at once, and short options without a value may be joined.
-/

namespace DotFormat.Cli

inductive Switch where
  | help
  | output
  | format
  | lenient
  | fillPadding
  | verbose
  | quiet
  | version
  deriving DecidableEq, Repr

namespace Switch

/--
The spellings of an option, a short one first if there is one.
-/
def spellings : Switch → List String
  | help => ["-h", "--help"]
  | output => ["-o", "--output"]
  | format => ["-f", "--format"]
  | lenient => ["--lenient"]
  | fillPadding => ["--fill-padding"]
  | verbose => ["-v", "--verbose"]
  | quiet => ["-q", "--quiet"]
  | version => ["--version"]

def label (switch : Switch) : String :=
  String.intercalate "/" switch.spellings

def takesValue : Switch → Bool
  | output | format | fillPadding => true
  | _ => false

def all : List Switch :=
  [help, output, format, lenient, fillPadding, verbose, quiet, version]

def table : List (String × Switch) :=
  all.flatMap fun switch => switch.spellings.map (·, switch)

def ofSpelling? (spelling : String) : Option Switch :=
  table.lookup spelling

/--
The option of a letter behind a single dash.
-/
def ofLetter? (letter : Char) : Option Switch :=
  ofSpelling? (String.ofList ['-', letter])

end Switch

/--
What an argument is, as far as it can be said without those before it.
-/
inductive Argument where
  /-- Two dashes alone: all that follows is no option. -/
  | separator
  | plain (text : String)
  /-- An argument that looks like an option that there is not. -/
  | unknown (written : String)
  /-- An option on its own. -/
  | option (switch : Switch)
  /-- A long option with a value behind an equals sign. -/
  | long (switch : Switch) (value : String)
  /-- A short option with text behind it. -/
  | short (switch : Switch) (rest : List Char)
  deriving DecidableEq, Repr

/--
A shortened option could be several options.
-/
structure Ambiguity where
  written : String
  candidates : List String
  deriving DecidableEq, Repr

namespace Argument

/--
Whether a text is a negative number without an exponent.
-/
def isNegativeNumber (text : List Char) : Bool :=
  let isDigit (c : Char) : Bool := (Text.decimalDigit? c).isSome
  let line := if text.getLast? = some '\n' then text.dropLast else text
  match line with
  | '-' :: digits =>
    match digits.dropWhile isDigit with
    | [] => !digits.isEmpty
    | '.' :: decimals => !decimals.isEmpty && decimals.all isDigit
    | _ => false
  | _ => false

/--
The parts of a text before and behind its first equals sign, if it has one.
-/
def splitEquals (text : List Char) : List Char × Option (List Char) :=
  let name := text.takeWhile (· != '=')
  match text.drop name.length with
  | [] => (name, none)
  | _ :: value => (name, some value)

/--
An argument that is no spelling of an option but may be a shortened or joined one.
-/
def ofUnfamiliar (text : List Char) : Except Ambiguity (Option Argument) :=
  let (name, value) := splitEquals text
  match text with
  | '-' :: '-' :: _ =>
    match Switch.table.filter fun entry => name.isPrefixOf entry.1.toList with
    | [] => .ok none
    | [(_, switch)] =>
      .ok (some (match value with
        | none => .option switch
        | some value => .long switch (String.ofList value)))
    | candidates =>
      .error { written := String.ofList text, candidates := candidates.map Prod.fst }
  | '-' :: letter :: rest =>
    .ok ((Switch.ofLetter? letter).map fun switch => .short switch rest)
  | _ => .ok none

def classify (written : String) : Except Ambiguity Argument :=
  let text := written.toList
  if written = "--" then .ok .separator
  else if text.head? ≠ some '-' || text.length = 1 then .ok (.plain written)
  else
    match Switch.ofSpelling? written with
    | some switch => .ok (.option switch)
    | none =>
      let (name, value) := splitEquals text
      match Switch.ofSpelling? (String.ofList name), value with
      | some switch, some value =>
        .ok (if name.length = 2 then .short switch value
          else .long switch (String.ofList value))
      | _, _ =>
        match ofUnfamiliar text with
        | .error e => .error e
        | .ok (some argument) => .ok argument
        | .ok none =>
          if isNegativeNumber text || text.contains ' ' then .ok (.plain written)
          else .ok (.unknown written)

/--
Tell what each argument is. Behind a separator there are no options.
-/
def classifyAll : List String → Except Ambiguity (List Argument)
  | [] => .ok []
  | written :: others =>
    match classify written with
    | .error e => .error e
    | .ok .separator => .ok (.separator :: others.map .plain)
    | .ok argument => (classifyAll others).map (argument :: ·)

end Argument

end DotFormat.Cli
