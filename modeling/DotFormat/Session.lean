import DotFormat.Formatter

/-!
This module contains programs that work under an ambient configuration: they replace it, read texts
under it, fail, and open scopes with a configuration of their own for further programs. A failure ends
the program that it occurs in and every scope around it, up to the next attempt.
-/

namespace DotFormat

namespace Ambient

/--
The result of a computation as a value, also if it failed.
-/
def settle (body : Ambient ε α) : Ambient δ (Except ε α) :=
  ExceptT.lift body.run

/--
Change what a computation leads to, in the same way if it failed.
-/
def mapBoth (f : α → β) (body : Ambient α α) : Ambient β β :=
  ExceptT.adapt f (f <$> body)

end Ambient

namespace Session

inductive Step where
  | get
  | set (config : Json)
  | reset
  | read (source : String)
  /-- Read a text with a formatter of its own. -/
  | format (options : List (String × Json)) (source : String)
  /-- Carry out a step, and fail if it is refused. -/
  | demand (step : Step)
  | fail
  /-- Run steps in the scope of a configuration. -/
  | within (config : Json) (steps : List Step)
  /-- Run steps up to the first failure, and go on after it. -/
  | attempt (steps : List Step)
  deriving Inhabited

inductive Reply where
  | nothing
  | document (document : Document)
  | refused (refusal : Refusal ParseError)
  | badConfig (error : ConfigError)
  | failure
  /-- The replies of the steps inside, each with the configuration that is in force after it. -/
  | block (replies : List (Reply × Config))

namespace Reply

def ofResult : Except (Refusal ParseError) Document → Reply
  | .ok found => .document found
  | .error refusal => .refused refusal

def isRefusal : Reply → Bool
  | refused _ | badConfig _ => true
  | _ => false

end Reply

mutual

/--
Carry out a step. A step that fails has a reply, too.
-/
def Step.perform : Step → Ambient Reply Reply
  | .get => return .nothing
  | .set written =>
    match Config.ofJson written with
    | .error e => return .badConfig e
    | .ok config => do
      set config
      return .nothing
  | .reset => do
    Ambient.reset
    return .nothing
  | .read source => return .ofResult (← Ambient.settle (Ambient.readText source))
  | .format options source =>
    match Config.ofOptions options with
    | .error e => return .badConfig e
    | .ok config =>
      let formatter : Formatter := { config }
      return .ofResult (← Ambient.settle (formatter.readText source))
  | .demand step => do
    let reply ← step.perform
    if reply.isRefusal then throw reply else return reply
  | .fail => throw .failure
  | .within written steps =>
    match Config.ofJson written with
    | .error e => throw (.badConfig e)
    | .ok config => (Ambient.within config (performAll steps)).mapBoth .block
  | .attempt steps => do
    match ← Ambient.settle (performAll steps) with
    | .ok replies | .error replies => return .block replies

/--
Carry out steps one after the other, up to the first failure. The replies up to there are kept.
-/
def performAll : List Step → Ambient (List (Reply × Config)) (List (Reply × Config))
  | [] => return []
  | step :: steps => do
    match ← Ambient.settle step.perform with
    | .error reply => throw [(reply, ← get)]
    | .ok reply =>
      let entry := (reply, ← get)
      (performAll steps).mapBoth (entry :: ·)

end

/--
What became of a step: its reply, whether it failed, and the configuration in force after it.
-/
structure Outcome (α : Type) where
  reply : α
  failed : Bool := false
  config : Config

def Outcome.ofResult : Except α α × Config → Outcome α
  | (.ok reply, config) => { reply, config }
  | (.error reply, config) => { reply, failed := true, config }

def Step.run (config : Config) (step : Step) : Outcome Reply :=
  .ofResult (step.perform config)

/--
Run steps one after the other, up to the first failure.
-/
def runAll (config : Config) (steps : List Step) : Outcome (List (Reply × Config)) :=
  .ofResult (performAll steps config)

end Session

end DotFormat
