import DotFormat.Interpretation
import DotFormat.Proofs.Line

/-!
This module contains the view of a run as a sequence of steps of the machine. A line that is refused
leaves the machine as it is, so the paragraphs of a document do not depend on what becomes of such
lines. One step is described by one equation for each part of the machine, and everything about a
whole run follows from these by induction on the lines.
-/

namespace DotFormat

namespace Command

def restyle : Command → Style → Style
  | bold, style => style.withBold
  | italics, style => style.withItalic
  | large, style => style.withLarge
  | regular, _ => .plain
  | normal, style => style.normalSize
  | _, style => style

def relayout (config : Config) : Command → Layout → Layout
  | paragraph, _ => .standard
  | fill, _ => .filled config.fillPadding
  | nofill, layout => layout.withoutFill
  | indent units, layout => layout.withIndent (.number units)
  | _, layout => layout

end Command

namespace Machine

variable (config : Config) (sourceFile : Option String)

theorem perform_style (machine : Machine) (command : Command) (location : SourceLocation)
    : (machine.perform config command location).machine.style = command.restyle machine.style := by
  cases command <;> rfl

theorem perform_layout (machine : Machine) (command : Command) (location : SourceLocation)
    : (machine.perform config command location).machine.layout
        = command.relayout config machine.layout := by
  cases command <;> rfl

theorem perform_paragraph (machine : Machine) (command : Command) (location : SourceLocation)
    : (machine.perform config command location).machine.paragraph =
        if command.endsParagraph then
          machine.paragraph.reopen (command.relayout config machine.layout) location
        else machine.paragraph := by
  cases command <;> rfl

theorem perform_emitted (machine : Machine) (command : Command) (location : SourceLocation)
    : (machine.perform config command location).emitted =
        if command.endsParagraph then some machine.paragraph.sealed else none := by
  cases command <;> rfl

/--
What a line of the input leads to if it does not stop the run.
-/
def advance (machine : Machine) (line : String) (location : SourceLocation) : Move :=
  match machine.process config (Text.dropLineEnd line) location with
  | .ok move => move
  | .error _ => { machine }

theorem advance_of_ok {machine : Machine} {line : String} {location : SourceLocation} {move : Move}
    (h : machine.process config (Text.dropLineEnd line) location = .ok move)
    : machine.advance config line location = move := by
  unfold advance
  rw [h]

theorem advance_of_error {machine : Machine} {line : String} {location : SourceLocation}
    {refusal : Refusal ParseError}
    (h : machine.process config (Text.dropLineEnd line) location = .error refusal)
    : machine.advance config line location = { machine } := by
  unfold advance
  rw [h]

theorem advance_cases (machine : Machine) (line : String) (location : SourceLocation)
    : (Line.isCommand line = false ∧ Line.command? config line = none
        ∧ machine.advance config line location
            = { machine := machine.addText (Text.dropLineEnd line) location })
      ∨ (∃ command, Line.isCommand line = true ∧ Line.command? config line = some command
        ∧ machine.advance config line location = machine.perform config command location)
      ∨ (Line.isCommand line = true ∧ Line.command? config line = none
        ∧ machine.advance config line location = { machine }) := by
  rcases Line.read_cases config line location
    with ⟨hline, hnone, hread⟩ | ⟨command, hline, hcommand, hread⟩ | ⟨refusal, hline, hnone, hread⟩
  . refine .inl ⟨hline, hnone, ?_⟩
    apply advance_of_ok
    simp [process, hread, Except.map]
  . refine .inr (.inl ⟨command, hline, hcommand, ?_⟩)
    apply advance_of_ok
    simp [process, hread, Except.map]
  . refine .inr (.inr ⟨hline, hnone, ?_⟩)
    apply advance_of_error
    simp [process, hread, Except.map]
    rfl

theorem advance_style (machine : Machine) (line : String) (location : SourceLocation)
    : (machine.advance config line location).machine.style =
        if Line.isCommand line then
          (Line.command? config line).elim machine.style fun command => command.restyle machine.style
        else .plain := by
  rcases advance_cases config machine line location
    with ⟨hline, hnone, h⟩ | ⟨command, hline, hcommand, h⟩ | ⟨hline, hnone, h⟩
  . simp [h, hline, addText]
  . simp [h, hline, hcommand, perform_style]
  . simp [h, hline, hnone]

theorem advance_layout (machine : Machine) (line : String) (location : SourceLocation)
    : (machine.advance config line location).machine.layout
        = (Line.command? config line).elim machine.layout fun command =>
            command.relayout config machine.layout := by
  rcases advance_cases config machine line location
    with ⟨_, hnone, h⟩ | ⟨command, _, hcommand, h⟩ | ⟨_, hnone, h⟩
  . simp [h, hnone, addText]
  . simp [h, hcommand, perform_layout]
  . simp [h, hnone]

theorem advance_paragraph (machine : Machine) (line : String) (location : SourceLocation)
    : (machine.advance config line location).machine.paragraph =
        if Line.endsParagraph config line then
          machine.paragraph.reopen (machine.advance config line location).machine.layout location
        else if Line.isCommand line then machine.paragraph
        else
          machine.paragraph.append (.styled (Text.dropLineEnd line) machine.style location) := by
  rcases advance_cases config machine line location
    with ⟨hline, hnone, h⟩ | ⟨command, hline, hcommand, h⟩ | ⟨hline, hnone, h⟩
  . simp [h, hline, hnone, Line.endsParagraph, addText]
  . simp [h, hline, hcommand, Line.endsParagraph, perform_paragraph, perform_layout]
  . simp [h, hline, hnone, Line.endsParagraph]

theorem advance_emitted (machine : Machine) (line : String) (location : SourceLocation)
    : (machine.advance config line location).emitted =
        if Line.endsParagraph config line then some machine.paragraph.sealed else none := by
  rcases advance_cases config machine line location
    with ⟨_, hnone, h⟩ | ⟨command, _, hcommand, h⟩ | ⟨_, hnone, h⟩
  . simp [h, hnone, Line.endsParagraph]
  . simp [h, hcommand, Line.endsParagraph, perform_emitted]
  . simp [h, hnone, Line.endsParagraph]

/--
The place of the line behind the first `seen` ones.
-/
def place (seen : Nat) : SourceLocation :=
  { line := (seen + 1 : Nat), sourceFile }

/--
The machine behind some lines, of which the first one stands behind `seen` others.
-/
def after (seen : Nat) (machine : Machine) : List String → Machine
  | [] => machine
  | line :: lines =>
    after (seen + 1) (machine.advance config line (place sourceFile seen)).machine lines

def emitted (seen : Nat) (machine : Machine) : List String → List Paragraph
  | [] => []
  | line :: lines =>
    let move := machine.advance config line (place sourceFile seen)
    move.emitted.toList ++ emitted (seen + 1) move.machine lines

/--
The paragraphs of a document whose last lines are the given ones, from the open paragraph on.
-/
def paragraphs (seen : Nat) (machine : Machine) (lines : List String) : List Paragraph :=
  emitted config sourceFile seen machine lines ++ [(after config sourceFile seen machine lines).finish]

theorem after_append (seen : Nat) (machine : Machine) (lines others : List String)
    : after config sourceFile seen machine (lines ++ others)
        =
      after config sourceFile (seen + lines.length) (after config sourceFile seen machine lines)
        others := by
  induction lines generalizing seen machine with
  | nil => rfl
  | cons line lines ih =>
    simp only [List.cons_append, after, List.length_cons]
    rw [ih, Nat.add_right_comm, Nat.add_assoc]

theorem after_concat (seen : Nat) (machine : Machine) (lines : List String) (line : String)
    : after config sourceFile seen machine (lines ++ [line])
        =
      ((after config sourceFile seen machine lines).advance config line
        (place sourceFile (seen + lines.length))).machine := by
  rw [after_append]
  rfl

theorem emitted_append (seen : Nat) (machine : Machine) (lines others : List String)
    : emitted config sourceFile seen machine (lines ++ others)
        =
      emitted config sourceFile seen machine lines
        ++ emitted config sourceFile (seen + lines.length)
          (after config sourceFile seen machine lines) others := by
  induction lines generalizing seen machine with
  | nil => rfl
  | cons line lines ih =>
    simp only [List.cons_append, emitted, after, List.length_cons]
    rw [ih, List.append_assoc, Nat.add_right_comm, Nat.add_assoc]

theorem paragraphs_cons (seen : Nat) (machine : Machine) (line : String) (lines : List String)
    : paragraphs config sourceFile seen machine (line :: lines)
        =
      (machine.advance config line (place sourceFile seen)).emitted.toList
        ++ paragraphs config sourceFile (seen + 1)
          (machine.advance config line (place sourceFile seen)).machine lines := by
  simp only [paragraphs, emitted, after, List.append_assoc]

theorem paragraphs_append (seen : Nat) (machine : Machine) (lines others : List String)
    : paragraphs config sourceFile seen machine (lines ++ others)
        =
      emitted config sourceFile seen machine lines
        ++ paragraphs config sourceFile (seen + lines.length)
          (after config sourceFile seen machine lines) others := by
  unfold paragraphs
  rw [after_append, emitted_append, List.append_assoc]

-- What comes later adds runs to the open paragraph and changes nothing else of it.
theorem exists_paragraphs_eq_cons (seen : Nat) (machine : Machine) (lines : List String)
    : ∃ added others,
        paragraphs config sourceFile seen machine lines
          = { machine.finish with runs := machine.finish.runs ++ added } :: others := by
  induction lines generalizing seen machine with
  | nil => exact ⟨[], [], by simp [paragraphs, emitted, after]⟩
  | cons line lines ih =>
    rw [paragraphs_cons, advance_emitted]
    unfold finish at ih ⊢
    cases hends : Line.endsParagraph config line with
    | true => exact ⟨[], _, by rw [List.append_nil]; rfl⟩
    | false =>
      obtain ⟨added, others, h⟩ :=
        ih (seen + 1) (machine.advance config line (place sourceFile seen)).machine
      rw [advance_paragraph, hends] at h
      cases hline : Line.isCommand line with
      | true => exact ⟨added, others, by simpa [hline] using h⟩
      | false =>
        refine ⟨.styled (Text.dropLineEnd line) machine.style (place sourceFile seen) :: added,
          others, ?_⟩
        simpa [hline, OpenParagraph.sealed, OpenParagraph.append, OpenParagraph.runs] using h

end Machine

variable {config : Config} {sourceFile : Option String}

/--
However a run treats the lines that it refuses, the paragraphs of its document are those that the
machine makes of the lines.
-/
theorem Interpretation.go_paragraphs {seen : Nat} {machine : Machine} {draft : Draft}
    {lines : List String} {document : Document}
    (h : (go config sourceFile seen machine draft lines).result = .ok document)
    : document.paragraphs
        = draft.paragraphs ++ Machine.paragraphs config sourceFile seen machine lines := by
  induction lines generalizing seen machine draft with
  | nil =>
    simp only [go, Except.ok.injEq] at h
    subst h
    rfl
  | cons line lines ih =>
    unfold go at h
    dsimp only at h
    rw [Machine.paragraphs_cons, Machine.place]
    split at h
    . next move hmove =>
      rw [Machine.advance_of_ok config hmove, ih h]
      cases move.emitted with
      | none => simp
      | some paragraph => simp [Draft.append]
    . contradiction
    . next error herror =>
      rw [Machine.advance_of_error config herror]
      split at h
      . contradiction
      . rw [ih h]
        rfl

theorem interpret_paragraphs {lines : List String} {document : Document}
    (h : (interpret config lines sourceFile).result = .ok document)
    : document.paragraphs = Machine.paragraphs config sourceFile 0 (.start sourceFile) lines := by
  have := Interpretation.go_paragraphs h
  rwa [List.nil_append] at this

end DotFormat
