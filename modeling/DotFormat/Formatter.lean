import DotFormat.Interpretation
import DotFormat.Renderer

/-!
This module contains reading under an ambient configuration, and formatters, which bring a
configuration of their own. A scope puts another configuration in force and restores the earlier one
however it ends.
-/

namespace DotFormat

/--
A computation that runs under an ambient configuration, may replace it, and may fail.
-/
abbrev Ambient (ε : Type) := ExceptT ε (StateM Config)

namespace Ambient

def reset : Ambient ε Unit :=
  set ({} : Config)

/--
Run with a configuration in force, and restore the earlier one at the end.
-/
def within (config : Config) (body : Ambient ε α) : Ambient ε α := do
  let earlier ← get
  set config
  try body
  finally set earlier

end Ambient

/--
A reader of inputs. Without a configuration of its own it goes by the ambient one.
-/
structure Interpreter where
  sourceFile : Option String := none
  config : Option Config := none

/--
Read the lines of an input. The configuration is settled once, before the first line.
-/
def Interpreter.run (interpreter : Interpreter) (lines : List String) :
    Ambient (Refusal ParseError) Document := do
  let config ← match interpreter.config with
    | some config => pure config
    | none => get
  MonadExcept.ofExcept (interpret config lines interpreter.sourceFile).result

namespace Ambient

def readLines (lines : List String) (sourceFile : Option String := none) :
    Ambient (Refusal ParseError) Document :=
  ({ sourceFile } : Interpreter).run lines

def readText (source : String) (sourceFile : Option String := none) :
    Ambient (Refusal ParseError) Document :=
  readLines (Text.splitLines source) sourceFile

end Ambient

structure Formatter where
  config : Config := {}
  renderer : Renderer := .html

namespace Formatter

def readLines (formatter : Formatter) (lines : List String) (sourceFile : Option String := none) :
    Ambient (Refusal ParseError) Document :=
  .within formatter.config (Ambient.readLines lines sourceFile)

def readText (formatter : Formatter) (source : String) (sourceFile : Option String := none) :
    Ambient (Refusal ParseError) Document :=
  .within formatter.config (Ambient.readText source sourceFile)

def render (formatter : Formatter) (document : Document) : Except RenderError Rendering :=
  formatter.renderer document.toNode

end Formatter

end DotFormat
