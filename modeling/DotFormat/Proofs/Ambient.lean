import DotFormat.Formatter

/-!
This module contains which configuration an input is read by. A scope leaves no trace of its
configuration behind, and a reader with a configuration of its own gives the same result whatever else
is in force.
-/

namespace DotFormat

namespace Ambient

/--
The result of a computation under a configuration, and the configuration that is in force behind it.
-/
def under (program : Ambient ε α) (config : Config) : Except ε α × Config :=
  program.run.run config

/-! ### Steps of a computation -/

@[simp]
theorem under_pure (found : α) (config : Config)
    : (pure found : Ambient ε α).under config = (.ok found, config) :=
  rfl

@[simp]
theorem under_get (config : Config)
    : (get : Ambient ε Config).under config = (.ok config, config) :=
  rfl

@[simp]
theorem under_set (next config : Config)
    : (set next : Ambient ε PUnit).under config = (.ok .unit, next) :=
  rfl

@[simp]
theorem under_ofExcept (result : Except ε α) (config : Config)
    : (MonadExcept.ofExcept result : Ambient ε α).under config = (result, config) := by
  cases result with
  | ok found => rfl
  | error e => rfl

@[simp]
theorem under_bind (first : Ambient ε α) (next : α → Ambient ε β) (config : Config)
    : (first >>= next).under config =
        match first.under config with
        | (.ok found, behind) => (next found).under behind
        | (.error e, behind) => (.error e, behind) := by
  unfold under
  rw [ExceptT.run_bind, StateT.run_bind]
  cases first.run.run config with
  | mk result behind =>
    cases result with
    | ok found => rfl
    | error e => rfl

-- What is to be done at the end is done under the configuration that the rest left behind.
@[simp]
theorem under_tryFinally (body : Ambient ε α) (last : Ambient ε β) (config : Config)
    : (tryFinally body last).under config =
        match body.under config with
        | (result, behind) =>
          match last.under behind with
          | (.ok _, final) => (result, final)
          | (.error e, final) => (.error e, final) := by
  unfold under
  cases hbody : body.run.run config with
  | mk result behind =>
    cases hlast : last.run.run behind with
    | mk lastResult final =>
      unfold ExceptT.run StateT.run at hbody hlast
      unfold tryFinally ExceptT.run StateT.run
      simp only [MonadFinally.tryFinally', Functor.map, ExceptT.map, ExceptT.mk, bind, StateT.bind,
        hbody]
      cases result <;> cases lastResult <;> simp only [hlast] <;> rfl

/-! ### Scopes and readers -/

theorem under_within (config : Config) (body : Ambient ε α) (ambient : Config)
    : (within config body).under ambient = ((body.under config).1, ambient) := by
  unfold within
  rw [under_bind, under_get]
  dsimp only
  rw [under_bind, under_set]
  dsimp only
  rw [under_tryFinally]
  dsimp only
  rw [under_set]

end Ambient

theorem Interpreter.under_run (interpreter : Interpreter) (lines : List String) (ambient : Config)
    : (interpreter.run lines).under ambient
        =
      ((interpret (interpreter.config.getD ambient) lines interpreter.sourceFile).result,
        ambient) := by
  unfold run
  cases interpreter.config with
  | none => simp
  | some config => simp

theorem Ambient.under_readLines (lines : List String) (sourceFile : Option String)
    (ambient : Config)
    : (readLines lines sourceFile).under ambient
        = ((interpret ambient lines sourceFile).result, ambient) := by
  apply Interpreter.under_run

theorem Formatter.under_readLines (formatter : Formatter) (lines : List String)
    (sourceFile : Option String) (ambient : Config)
    : (formatter.readLines lines sourceFile).under ambient
        = ((interpret formatter.config lines sourceFile).result, ambient) := by
  unfold readLines
  rw [Ambient.under_within, Ambient.under_readLines]

/--
A formatter, an interpreter with the configuration of the formatter, and plain reading in a scope of
that configuration agree, on texts and on lines. None of them depends on the ambient configuration, and
none changes it, whether it succeeds or fails.
-/
theorem Formatter.read_agree (formatter : Formatter) (sourceFile : Option String)
    : (∀ (source : String) (ambient : Config),
        let lines := Text.splitLines source
        let outcome := ((interpret formatter.config lines sourceFile).result, ambient)
        (formatter.readText source sourceFile).under ambient = outcome
          ∧ (({ sourceFile, config := formatter.config } : Interpreter).run lines).under ambient
              = outcome
          ∧ (Ambient.within formatter.config (Ambient.readText source sourceFile)).under ambient
              = outcome)
      ∧ (∀ (lines : List String) (ambient : Config),
        let outcome := ((interpret formatter.config lines sourceFile).result, ambient)
        (formatter.readLines lines sourceFile).under ambient = outcome
          ∧ (({ sourceFile, config := formatter.config } : Interpreter).run lines).under ambient
              = outcome
          ∧ (Ambient.within formatter.config (Ambient.readLines lines sourceFile)).under ambient
              = outcome)
      ∧ (∀ (source : String) (ambient : Config),
        (Ambient.readText source sourceFile).under ambient
          = ((interpretText ambient source sourceFile).result, ambient)) := by
  have hlines (lines : List String) (ambient : Config) :
      let outcome := ((interpret formatter.config lines sourceFile).result, ambient)
      (formatter.readLines lines sourceFile).under ambient = outcome
        ∧ (({ sourceFile, config := formatter.config } : Interpreter).run lines).under ambient
            = outcome
        ∧ (Ambient.within formatter.config (Ambient.readLines lines sourceFile)).under ambient
            = outcome := by
    refine ⟨?_, ?_, ?_⟩
    . apply under_readLines
    . apply Interpreter.under_run
    . rw [Ambient.under_within, Ambient.under_readLines]
  refine ⟨?_, hlines, ?_⟩
  . intro source ambient
    apply hlines
  . intro source ambient
    apply Ambient.under_readLines

end DotFormat
