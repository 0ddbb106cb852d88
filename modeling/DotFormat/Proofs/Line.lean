import DotFormat.Config
import DotFormat.Line
import DotFormat.Text.Line

/-!
This module contains how a run takes a line of its input: as text, as a command, or not at all. The
line ending does not matter for that.
-/

namespace DotFormat

namespace Text

theorem head?_dropEndWhile {p : α → Bool} {a : α} (ha : p a = false) (l : List α)
    : (dropEndWhile p l).head? = some a ↔ l.head? = some a := by
  cases l with
  | nil => rfl
  | cons x xs =>
    unfold dropEndWhile
    cases dropEndWhile p xs with
    | nil =>
      by_cases hx : p x
      · simp only [hx, ↓reduceIte, List.head?_nil, List.head?_cons, Option.some.injEq, reduceCtorEq,
          false_iff]
        intro h
        rw [h, ha] at hx
        contradiction
      · simp [hx]
    | cons y ys => simp

end Text

namespace Line

@[simp]
theorem isCommand_dropLineEnd (line : String)
    : isCommand (Text.dropLineEnd line) = isCommand line := by
  unfold isCommand Text.dropLineEnd
  rw [String.toList_ofList, decide_eq_decide]
  apply Text.head?_dropEndWhile
  decide

/--
The command that a line of an input is accepted as, if it is.
-/
def command? (config : Config) (line : String) : Option Command :=
  match read (Text.dropLineEnd line) .beforeFirst config.acceptsAlias with
  | .ok (.command found _) => some found
  | _ => none

def commands (config : Config) (lines : List String) : List Command :=
  lines.filterMap (command? config)

/--
The texts among some lines of an input.
-/
def texts (lines : List String) : List String :=
  (lines.filter fun line => !isCommand line).map Text.dropLineEnd

def endsParagraph (config : Config) (line : String) : Bool :=
  (command? config line).any Command.endsParagraph

variable {config : Config}

theorem read_cases (config : Config) (line : String) (location : SourceLocation)
    : (isCommand line = false ∧ command? config line = none
        ∧ read (Text.dropLineEnd line) location config.acceptsAlias
            = .ok (.text (Text.dropLineEnd line) location))
      ∨ (∃ found, isCommand line = true ∧ command? config line = some found
        ∧ read (Text.dropLineEnd line) location config.acceptsAlias = .ok (.command found location))
      ∨ (∃ refusal, isCommand line = true ∧ command? config line = none
        ∧ read (Text.dropLineEnd line) location config.acceptsAlias = .error refusal) := by
  cases hline : isCommand line with
  | false => simp [command?, read, hline]
  | true =>
    cases hread : Command.read (Text.dropLineEnd line).toList.tail config.acceptsAlias with
    | ok found => simp [command?, read, hline, hread]
    | error refusal => simp [command?, read, hline, hread]

theorem command?_of_text {line : String} (h : isCommand line = false)
    : command? config line = none := by
  rcases read_cases config line .beforeFirst with ⟨_, hnone, _⟩ | ⟨_, hline, _⟩ | ⟨_, hline, _⟩
  . exact hnone
  . rw [h] at hline
    contradiction
  . rw [h] at hline
    contradiction

@[simp]
theorem endsParagraph_of_text {line : String} (h : isCommand line = false)
    : endsParagraph config line = false := by
  simp [endsParagraph, command?_of_text h]

end Line

end DotFormat
