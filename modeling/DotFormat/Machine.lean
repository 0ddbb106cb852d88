import DotFormat.Config
import DotFormat.Line
import DotFormat.Log
import DotFormat.OpenParagraph

/-!
This module contains the state between two lines of the input and what a line does to it. A text line
becomes a run of the open paragraph in the pending style, which it uses up. A command either changes
the pending style, or seals the open paragraph and opens another one with a new layout.
-/

namespace DotFormat

/--
A command that did not come from a line, so that its argument need not fit its keyword.
-/
structure Directive where
  keyword : Keyword
  argument : Json := .null
  location : SourceLocation := .beforeFirst
  deriving Repr

inductive DirectiveError where
  | missingIndent
  | indent (error : AmountError)
  deriving DecidableEq, Repr

def DirectiveError.message? : DirectiveError → Option String
  | missingIndent => some "INDENT directive without an argument"
  | indent error => error.message? Layout.indentField

def Directive.indent (directive : Directive) : Except DirectiveError (Amount Nat) :=
  match directive.argument with
  | .null => .error .missingIndent
  | argument => (Amount.ofJson argument).mapError .indent

structure Machine where
  style : Style := .plain
  layout : Layout := .standard
  paragraph : OpenParagraph := { layout := .standard }
  deriving DecidableEq, Repr

/--
What an accepted line leads to: the next state, and the paragraph that it sealed, if any.
-/
structure Move where
  machine : Machine
  emitted : Option Paragraph := none
  log : List Log.Record := []
  deriving DecidableEq, Repr

namespace Machine

def start (sourceFile : Option String := none) : Machine :=
  { paragraph := { layout := .standard, location := .beforeFirst sourceFile } }

def sealRecord (keyword : Keyword) (location : SourceLocation) (emitted : Paragraph) : Log.Record :=
  { level := .debug
    log := Log.qualify "interpreter"
    message := location.text ++ ": ." ++ keyword.name ++ " sealed paragraph with "
      ++ Nat.repr emitted.runs.length ++ " run(s)" }

/--
Seal the open paragraph and open another one with the given layout. The pending style stays.
-/
def turn (machine : Machine) (layout : Layout) (keyword : Keyword) (location : SourceLocation) :
    Move :=
  let emitted := machine.paragraph.sealed
  { machine := { machine with layout, paragraph := machine.paragraph.reopen layout location }
    emitted := some emitted
    log := [sealRecord keyword location emitted] }

def addText (machine : Machine) (content : String) (location : SourceLocation) : Machine :=
  { machine with
    style := .plain
    paragraph := machine.paragraph.append (.styled content machine.style location) }

def perform (config : Config) (machine : Machine) (command : Command) (location : SourceLocation) :
    Move :=
  match command with
  | .bold => { machine := { machine with style := machine.style.withBold } }
  | .italics => { machine := { machine with style := machine.style.withItalic } }
  | .large => { machine := { machine with style := machine.style.withLarge } }
  | .regular => { machine := { machine with style := .plain } }
  | .normal => { machine := { machine with style := machine.style.normalSize } }
  | .paragraph => machine.turn .standard command.keyword location
  | .fill => machine.turn (.filled config.fillPadding) command.keyword location
  | .nofill => machine.turn machine.layout.withoutFill command.keyword location
  | .indent units => machine.turn (machine.layout.withIndent (.number units)) command.keyword location

/--
Carry out a directive. An argument matters only where the keyword takes one.
-/
def apply (config : Config) (machine : Machine) (directive : Directive) :
    Except DirectiveError Move :=
  match directive.keyword.command? with
  | some command => .ok (machine.perform config command directive.location)
  | none =>
    directive.indent.map fun indent =>
      machine.turn (machine.layout.withIndent indent) directive.keyword directive.location

/--
Take one line, without its line ending. The state stays as it is if the line is refused.
-/
def process (config : Config) (machine : Machine) (line : String) (location : SourceLocation) :
    Except (Refusal ParseError) Move :=
  (Line.read line location config.acceptsAlias).map fun
    | .text content location => { machine := machine.addText content location }
    | .command command location => machine.perform config command location

def finish (machine : Machine) : Paragraph :=
  machine.paragraph.sealed

end Machine

end DotFormat
