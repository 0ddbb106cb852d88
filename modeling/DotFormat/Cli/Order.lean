import DotFormat.Cli.Option
import DotFormat.Text.Quoted

/-!
This module contains what the arguments of the command line ask for: the values that they set, or the
error that makes them no order at all.
-/

namespace DotFormat.Cli

inductive OutputForm where
  | html
  | json
  deriving DecidableEq, Repr

namespace OutputForm

def name : OutputForm → String
  | html => "html"
  | json => "json"

def suffix : OutputForm → String
  | html => ".html"
  | json => ".json"

def all : List OutputForm :=
  [html, json]

def ofName? (name : String) : Option OutputForm :=
  all.find? fun form => form.name = name

end OutputForm

def defaultInput : String := "input.txt"

structure Order where
  input : String := defaultInput
  output : Option String := none
  form : OutputForm := .html
  lenient : Bool := false
  fillPadding : Option Int := none
  verbose : Bool := false
  quiet : Bool := false
  deriving DecidableEq, Repr

inductive UsageError where
  | ambiguous (ambiguity : Ambiguity)
  | expectedValue (switch : Switch)
  | ignoredValue (switch : Switch) (value : String)
  | invalidChoice (value : String)
  | invalidInteger (value : String)
  | conflict (switch other : Switch)
  | unrecognized (arguments : List String)
  deriving DecidableEq, Repr

def Switch.complaint (switch : Switch) (message : String) : String :=
  "argument " ++ switch.label ++ ": " ++ message

def UsageError.message : UsageError → String
  | ambiguous ambiguity =>
    "ambiguous option: " ++ ambiguity.written ++ " could match "
      ++ String.intercalate ", " ambiguity.candidates
  | expectedValue switch => switch.complaint "expected one argument"
  | ignoredValue switch value =>
    switch.complaint ("ignored explicit argument " ++ Text.quote value)
  | invalidChoice value =>
    Switch.format.complaint ("invalid choice: " ++ Text.quote value ++ " (choose from "
      ++ String.intercalate ", " (OutputForm.all.map fun form => Text.quote form.name) ++ ")")
  | invalidInteger value =>
    Switch.fillPadding.complaint ("invalid int value: " ++ Text.quote value)
  | conflict switch other => switch.complaint ("not allowed with argument " ++ other.label)
  | unrecognized arguments => "unrecognized arguments: " ++ String.intercalate " " arguments

/--
What ends the reading of the arguments early.
-/
inductive Interrupt where
  | usage (error : UsageError)
  | help
  | version
  deriving DecidableEq, Repr

/--
How far the reading of the arguments has come.
-/
structure Progress where
  order : Order := {}
  hasInput : Bool := false
  extras : List String := []
  deriving DecidableEq, Repr

namespace Progress

def turnOn (progress : Progress) (switch : Switch) : Except Interrupt Progress :=
  match switch with
  | .help => .error .help
  | .version => .error .version
  | .lenient => .ok { progress with order := { progress.order with lenient := true } }
  | .verbose =>
    if progress.order.quiet then .error (.usage (.conflict .verbose .quiet))
    else .ok { progress with order := { progress.order with verbose := true } }
  | .quiet =>
    if progress.order.verbose then .error (.usage (.conflict .quiet .verbose))
    else .ok { progress with order := { progress.order with quiet := true } }
  | _ => .error (.usage (.expectedValue switch))

def setValue (progress : Progress) (switch : Switch) (value : String) :
    Except Interrupt Progress :=
  match switch with
  | .output => .ok { progress with order := { progress.order with output := some value } }
  | .format =>
    match OutputForm.ofName? value with
    | some form => .ok { progress with order := { progress.order with form } }
    | none => .error (.usage (.invalidChoice value))
  | .fillPadding =>
    match Text.readInteger? value with
    | some units =>
      .ok { progress with order := { progress.order with fillPadding := some units } }
    | none => .error (.usage (.invalidInteger value))
  | _ => .error (.usage (.ignoredValue switch value))

/--
Take an argument that is no option: the first one is the input.
-/
def addPlain (progress : Progress) (text : String) : Progress :=
  if progress.hasInput then { progress with extras := progress.extras ++ [text] }
  else { progress with order := { progress.order with input := text }, hasInput := true }

def addExtra (progress : Progress) (text : String) : Progress :=
  { progress with extras := progress.extras ++ [text] }

end Progress

/--
What joined short options come to: options without a value, and what ends them.
-/
structure Joined where
  on : List Switch := []
  /-- An option with a value that follows at once. -/
  valued : Option (Switch × String) := none
  /-- An option whose value is the next argument. -/
  waiting : Option Switch := none
  deriving DecidableEq, Repr

/--
Take joined short options apart: an option and the text behind it.
-/
def Joined.ofText (switch : Switch) : List Char → Except UsageError Joined
  | [] =>
    if switch.takesValue then .ok { valued := some (switch, "") }
    else .error (.ignoredValue switch "")
  | letter :: rest =>
    if switch.takesValue then .ok { valued := some (switch, String.ofList (letter :: rest)) }
    else
      match Switch.ofLetter? letter, rest with
      | none, _ => .error (.ignoredValue switch (String.ofList (letter :: rest)))
      | some next, [] =>
        .ok (if next.takesValue then { on := [switch], waiting := some next }
          else { on := [switch, next] })
      | some next, rest =>
        (ofText next rest).map fun joined => { joined with on := switch :: joined.on }

/--
Carry out joined options, but for the value of one that waits for it.
-/
def Progress.addJoined (progress : Progress) (joined : Joined) : Except Interrupt Progress := do
  let progress ← joined.on.foldlM Progress.turnOn progress
  match joined.valued with
  | none => return progress
  | some (switch, value) => progress.setValue switch value

/--
Go through the arguments from left to right. A separator next to the input belongs to it.
-/
def Progress.readAll (progress : Progress) : List Argument → Except Interrupt Progress
  | [] => .ok progress
  | .plain text :: rest =>
    match progress.hasInput, rest with
    | false, .separator :: arguments => (progress.addPlain text).readAll arguments
    | _, arguments => (progress.addPlain text).readAll arguments
  | .separator :: arguments =>
    (if progress.hasInput then progress.addExtra "--" else progress).readAll arguments
  | .unknown written :: arguments => (progress.addExtra written).readAll arguments
  | .long switch value :: arguments =>
    match progress.setValue switch value with
    | .error e => .error e
    | .ok progress => progress.readAll arguments
  | .option switch :: rest =>
    match switch.takesValue, rest with
    | true, .plain value :: arguments =>
      match progress.setValue switch value with
      | .error e => .error e
      | .ok progress => progress.readAll arguments
    | true, _ => .error (.usage (.expectedValue switch))
    | false, arguments =>
      match progress.turnOn switch with
      | .error e => .error e
      | .ok progress => progress.readAll arguments
  | .short switch text :: rest =>
    match Joined.ofText switch text with
    | .error e => .error (.usage e)
    | .ok joined =>
      match joined.waiting, rest with
      | some switch, .plain value :: arguments =>
        match progress.addJoined joined with
        | .error e => .error e
        | .ok progress =>
          match progress.setValue switch value with
          | .error e => .error e
          | .ok progress => progress.readAll arguments
      | some switch, _ => .error (.usage (.expectedValue switch))
      | none, arguments =>
        match progress.addJoined joined with
        | .error e => .error e
        | .ok progress => progress.readAll arguments

def Order.ofArguments (arguments : List String) : Except Interrupt Order :=
  match Argument.classifyAll arguments with
  | .error ambiguity => .error (.usage (.ambiguous ambiguity))
  | .ok arguments =>
    match ({} : Progress).readAll arguments with
    | .error e => .error e
    | .ok progress =>
      if progress.extras.isEmpty then .ok progress.order
      else .error (.usage (.unrecognized progress.extras))

end DotFormat.Cli
