import DotFormat.Cli.Order
import DotFormat.Files
import DotFormat.Interpretation

/-!
This module contains the command line as a function: from a disk and arguments to an exit status, the
lines of both outputs, and the file tree that is left. The tree differs from the one at the start only
if the run succeeds, and then only at the output.
-/

namespace DotFormat.Cli

def programVersion : String := "0.1.0"

inductive Status where
  | ok
  /-- The input has a malformed line. -/
  | malformedInput
  /-- The arguments are no order, or a file cannot be read or written. -/
  | failure
  deriving DecidableEq, Repr

def Status.code : Status → UInt8
  | ok => 0
  | malformedInput => 1
  | failure => 2

/--
What ends a run without a status.
-/
inductive Escape where
  /-- The input has no name to put a suffix to. -/
  | emptyName
  /-- A path has a character that no file name has. -/
  | nul
  /-- A line has a number with too many digits. -/
  | tooLong
  /-- A value in the document cannot be written. -/
  | value (fault : ValueFault)
  /-- A character cannot be written. -/
  | unencodable
  | device
  deriving DecidableEq, Repr

def Escape.reason : Escape → String
  | emptyName => "the input has no name"
  | nul => "a path has a character that no file name has"
  | tooLong => "a number has too many digits"
  | value _ => "a value in the document cannot be written"
  | unencodable => "a character cannot be written"
  | device => "a device failed"

structure Outcome where
  exit : Except Escape Status
  output : List String := []
  errors : List String := []
  tree : FileTree

def helpText : String :=
  "usage: dotpress [-h] [-o OUTPUT] [-f \x7bhtml,json\x7d] [--lenient]
                [--fill-padding UNITS] [-v | -q] [--version]
                [input]

Format a text file with dot-command directives.

positional arguments:
  input                 Input text file (default: input.txt)

options:
  -h, --help            show this help message and exit
  -o OUTPUT, --output OUTPUT
                        Output file (default: INPUT with format suffix)
  -f \x7bhtml,json\x7d, --format \x7bhtml,json\x7d
                        Output format (default: html)
  --lenient             Skip malformed directive lines instead of stopping
  --fill-padding UNITS  Indent units used by .fill (default: 10)
  -v, --verbose         Debug logging
  -q, --quiet           Only log errors
  --version             show program's version number and exit"

def errorLine (message : String) : String :=
  Log.family ++ ": error: " ++ message

namespace Order

def config (order : Order) : Except ConfigError Config :=
  match order.fillPadding with
  | none => .ok { strict := .bool !order.lenient }
  | some (.ofNat units) =>
    .ok { strict := .bool !order.lenient, fillPadding := .number units }
  | some (.negSucc units) => .error (.padding (.negative (.negSucc units)))

/--
The least level of the records that are shown.
-/
def level (order : Order) : Log.Level :=
  if order.verbose then .debug else if order.quiet then .error else .warning

def logLines (order : Order) (records : List Log.Record) : List String :=
  (records.filter fun record => order.level.rank ≤ record.level.rank).map Log.Record.text

/--
The path of the output. Without a path of its own it is the input with another suffix.
-/
def outputPath (order : Order) (source : Path) : Except PathError Path :=
  match order.output with
  | none | some "" => source.withSuffix order.form.suffix
  | some written => .ok (Path.ofString written)

def renderer (order : Order) : Renderer :=
  match order.form with
  | .html => .html
  | .json => .json

end Order

def record (message : String) : Log.Record :=
  { level := .debug, log := Log.qualify "cli", message }

/--
The end of a run that could not read or write a file, or make the output.
-/
def failureOutcome (order : Order) (tree : FileTree) (log : List Log.Record) :
    FileFailure RenderError → Outcome
  | .file error =>
    { exit := .ok .failure
      errors := order.logLines (log ++ [record "I/O failed"]) ++ [errorLine error.text]
      tree }
  | .inside (.refused message) =>
    { exit := .ok .malformedInput
      errors := order.logLines (log ++ [record "Formatting failed"]) ++ [errorLine message]
      tree }
  | .nul => escaped .nul
  | .unencodable => escaped .unencodable
  | .inside (.value fault) => escaped (.value fault)
  | .inside .device => escaped .device
where
  escaped (escape : Escape) : Outcome :=
    { exit := .error escape, errors := order.logLines log, tree }

def refusalOutcome (order : Order) (disk : Disk) (log : List Log.Record) :
    Refusal ParseError → Outcome
  | .tooLong => { exit := .error .tooLong, errors := order.logLines log, tree := disk.tree }
  | .malformed error =>
    { exit := .ok .malformedInput
      errors := order.logLines (log ++ [record "Formatting failed"]) ++ [errorLine error.text]
      tree := disk.tree }

def doneOutcome (order : Order) (output : Path) (document : Document) (log : List Log.Record)
    (tree : FileTree) : Outcome :=
  { exit := .ok .ok
    output := ["Document successfully compiled at " ++ output.text]
    errors := order.logLines log
      ++ (if document.diagnostics.isEmpty then []
        else [Log.family ++ ": " ++ Nat.repr document.diagnostics.length ++ " line(s) skipped"])
    tree }

def format (order : Order) (config : Config) (source output : Path) (disk : Disk) : Outcome :=
  match disk.readText source with
  | .error failure => failureOutcome order disk.tree [] failure
  | .ok text =>
    let run := interpret config (Text.splitLines text) (some source.text)
    let log := Disk.readRecord source text :: run.log
    match run.result with
    | .error refusal => refusalOutcome order disk log refusal
    | .ok document =>
      let written := disk.writeNode output order.renderer document.toNode
      let log := log ++ written.log
      match written.result with
      | .error failure => failureOutcome order written.tree log failure
      | .ok () => doneOutcome order output document log written.tree

/--
Carry out an order. An output that would take the place of the input is refused.
-/
def carryOut (order : Order) (config : Config) (disk : Disk) : Outcome :=
  let source := Path.ofString order.input
  match order.outputPath source with
  | .error .emptyName => { exit := .error .emptyName, tree := disk.tree }
  | .ok output =>
    if output.hasNul || source.hasNul then { exit := .error .nul, tree := disk.tree }
    else if output.resolve disk.current = source.resolve disk.current then
      { exit := .ok .failure
        errors := [errorLine
          (output.text ++ ": output would overwrite the input; choose one with -o")]
        tree := disk.tree }
    else format order config source output disk

def usageOutcome (disk : Disk) (message : String) : Outcome :=
  { exit := .ok .failure, errors := [errorLine message], tree := disk.tree }

def run (disk : Disk) (arguments : List String) : Outcome :=
  match Order.ofArguments arguments with
  | .error .help => { exit := .ok .ok, output := [helpText], tree := disk.tree }
  | .error .version =>
    { exit := .ok .ok, output := [Log.family ++ " " ++ programVersion], tree := disk.tree }
  | .error (.usage error) => usageOutcome disk error.message
  | .ok order =>
    match order.config with
    | .error error => usageOutcome disk (error.message?.getD "")
    | .ok config => carryOut order config disk

end DotFormat.Cli
