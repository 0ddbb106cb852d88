import DotFormat.Proofs.Run
import Mathlib.Data.List.DropRight

/-!
This module contains where the runs of a document come from and which style they have. Each line of
text becomes one run, and its style depends only on the commands behind the text before it.
-/

namespace DotFormat

namespace Line

/--
The lines behind the last text.
-/
def window (lines : List String) : List String :=
  lines.rtakeWhile isCommand

variable {line : String}

theorem window_concat_of_command (h : isCommand line = true) (lines : List String)
    : window (lines ++ [line]) = window lines ++ [line] := by
  unfold window
  rw [List.rtakeWhile_concat_pos _ _ _ h]

theorem window_concat_of_text (h : isCommand line = false) (lines : List String)
    : window (lines ++ [line]) = [] := by
  unfold window
  rw [List.rtakeWhile_concat_neg]
  simp [h]

theorem commands_concat (config : Config) (lines : List String) (line : String)
    : commands config (lines ++ [line]) = commands config lines ++ (command? config line).toList := by
  unfold commands
  rw [List.filterMap_append]
  cases h : command? config line with
  | none => simp [h]
  | some found => simp [h]

end Line

namespace Command

/--
Among some commands there is one that sets something and is not followed by one that clears it.
-/
def Pending (set : Command) (clear commands : List Command) : Prop :=
  ∃ earlier later, commands = earlier ++ set :: later ∧ ∀ command ∈ later, command ∉ clear

theorem mem_of_pending {set : Command} {clear commands : List Command}
    (h : Pending set clear commands) : set ∈ commands := by
  obtain ⟨earlier, later, rfl, _⟩ := h
  simp

theorem pending_concat_iff {set last : Command} {clear commands : List Command}
    : Pending set clear (commands ++ [last])
        ↔
      last = set ∨ (last ∉ clear ∧ Pending set clear commands) := by
  constructor
  . rintro ⟨earlier, later, h, hlater⟩
    rcases List.eq_nil_or_concat later with rfl | ⟨later, latest, rfl⟩
    . left
      have := List.append_inj_right' h rfl
      simpa using this
    . right
      rw [List.concat_eq_append] at h hlater
      rw [← List.cons_append, ← List.append_assoc] at h
      obtain ⟨hcommands, hlatest⟩ := List.append_inj' h rfl
      obtain rfl : last = latest := by simpa using hlatest
      refine ⟨hlater last (by simp), earlier, later, hcommands, ?_⟩
      intro command hcommand
      apply hlater
      simp [hcommand]
  . rintro (rfl | ⟨hlast, earlier, later, rfl, hlater⟩)
    . exact ⟨commands, [], rfl, by simp⟩
    . refine ⟨earlier, later ++ [last], by simp, ?_⟩
      intro command hcommand
      rcases List.mem_append.1 hcommand with hcommand | hcommand
      . exact hlater command hcommand
      . rwa [List.mem_singleton.1 hcommand]

/--
The style that is pending behind some commands if none was pending before them.
-/
def styleBehind (commands : List Command) : Style :=
  commands.foldl (fun style command => command.restyle style) .plain

theorem styleBehind_concat (commands : List Command) (last : Command)
    : styleBehind (commands ++ [last]) = last.restyle (styleBehind commands) := by
  simp [styleBehind]

-- One induction serves all three flags: a flag is known by what sets it and what clears it.
theorem flag_styleBehind_iff (flag : Style → Bool) (set : Command) (clear : List Command)
    (hplain : flag .plain = false)
    (hrestyle : ∀ command style, flag (restyle command style) = true
      ↔ command = set ∨ (command ∉ clear ∧ flag style = true))
    (commands : List Command)
    : flag (styleBehind commands) = true ↔ Pending set clear commands := by
  induction commands using List.reverseRecOn with
  | nil =>
    simp only [styleBehind, List.foldl_nil, hplain, Bool.false_eq_true, false_iff]
    intro h
    have := mem_of_pending h
    contradiction
  | append_singleton commands last ih =>
    rw [styleBehind_concat, hrestyle, ih, pending_concat_iff]

theorem styleBehind_iff (commands : List Command)
    : ((styleBehind commands).bold = true ↔ Pending .bold [.regular] commands)
      ∧ ((styleBehind commands).italic = true ↔ Pending .italics [.regular] commands)
      ∧ ((styleBehind commands).large = true ↔ Pending .large [.regular, .normal] commands) := by
  refine ⟨flag_styleBehind_iff Style.bold _ _ rfl ?_ commands,
    flag_styleBehind_iff Style.italic _ _ rfl ?_ commands,
    flag_styleBehind_iff Style.large _ _ rfl ?_ commands⟩
  all_goals
    intro command style
    cases command <;> simp [restyle, Style.withBold, Style.withItalic, Style.withLarge,
      Style.normalSize, Style.plain]

end Command

variable {config : Config} {sourceFile : Option String}

namespace Machine

theorem style_after {machine : Machine} (hplain : machine.style = .plain) (seen : Nat)
    (lines : List String)
    : (after config sourceFile seen machine lines).style
        = Command.styleBehind (Line.commands config (Line.window lines)) := by
  induction lines using List.reverseRecOn with
  | nil => exact hplain
  | append_singleton lines line ih =>
    rw [after_concat, advance_style, ih]
    cases hline : Line.isCommand line with
    | false =>
      rw [Line.window_concat_of_text hline]
      rfl
    | true =>
      rw [Line.window_concat_of_command hline, Line.commands_concat]
      cases Line.command? config line with
      | none => simp
      | some command => simp [Command.styleBehind_concat]

def textRuns (config : Config) (sourceFile : Option String) (seen : Nat) (machine : Machine)
    : List String → List TextRun
  | [] => []
  | line :: lines =>
    let location := place sourceFile seen
    let others :=
      textRuns config sourceFile (seen + 1) (machine.advance config line location).machine lines
    if Line.isCommand line then others
    else .styled (Text.dropLineEnd line) machine.style location :: others

theorem length_textRuns (seen : Nat) (machine : Machine) (lines : List String)
    : (textRuns config sourceFile seen machine lines).length
        = lines.countP fun line => !Line.isCommand line := by
  induction lines generalizing seen machine with
  | nil => rfl
  | cons line lines ih =>
    unfold textRuns
    cases hline : Line.isCommand line with
    | true => simp [hline, ih]
    | false => simp [hline, ih]

theorem textRuns_append (seen : Nat) (machine : Machine) (lines others : List String)
    : textRuns config sourceFile seen machine (lines ++ others)
        =
      textRuns config sourceFile seen machine lines
        ++ textRuns config sourceFile (seen + lines.length)
          (after config sourceFile seen machine lines) others := by
  induction lines generalizing seen machine with
  | nil => rfl
  | cons line lines ih =>
    simp only [List.cons_append, textRuns, after, List.length_cons]
    rw [ih, Nat.add_right_comm, Nat.add_assoc]
    split
    . rfl
    . rfl

theorem getElem?_textRuns {line : String} (hline : Line.isCommand line = false) (seen : Nat)
    (machine : Machine) (before behind : List String)
    : (textRuns config sourceFile seen machine (before ++ line :: behind))[
          before.countP fun line => !Line.isCommand line]?
        =
      some (.styled (Text.dropLineEnd line) (after config sourceFile seen machine before).style
        (place sourceFile (seen + before.length))) := by
  rw [textRuns_append, List.getElem?_append_right]
  . rw [length_textRuns, Nat.sub_self]
    simp [textRuns, hline]
  . rw [length_textRuns]

-- No run is lost or doubled at the border of two paragraphs.
theorem flatMap_runs_paragraphs (seen : Nat) (machine : Machine) (lines : List String)
    : (paragraphs config sourceFile seen machine lines).flatMap (·.runs)
        = machine.paragraph.runs ++ textRuns config sourceFile seen machine lines := by
  induction lines generalizing seen machine with
  | nil => simp [paragraphs, emitted, after, finish, textRuns, OpenParagraph.sealed]
  | cons line lines ih =>
    unfold textRuns
    rw [paragraphs_cons, List.flatMap_append, ih, advance_emitted, advance_paragraph]
    cases hline : Line.isCommand line with
    | true =>
      cases hends : Line.endsParagraph config line with
      | true => simp [OpenParagraph.sealed]
      | false => simp
    | false => simp [hline]

end Machine

theorem interpret_runs {lines : List String} {document : Document}
    (h : (interpret config lines sourceFile).result = .ok document)
    : document.runs = Machine.textRuns config sourceFile 0 (.start sourceFile) lines := by
  unfold Document.runs
  rw [interpret_paragraphs h, Machine.flatMap_runs_paragraphs]
  rfl

theorem interpret_run_style {lines : List String} {document : Document}
    (h : (interpret config lines sourceFile).result = .ok document)
    : document.runs.length = lines.countP (fun line => !Line.isCommand line)
      ∧ ∀ (before : List String) (line : String) (behind : List String),
          lines = before ++ line :: behind
            →
          Line.isCommand line = false
            →
          ∃ run,
            document.runs[before.countP fun line => !Line.isCommand line]? = some run
            ∧ run.content = Text.dropLineEnd line
            ∧ run.location = { line := (before.length + 1 : Nat), sourceFile }
            ∧ (run.bold = true ↔
                Command.Pending .bold [.regular] (Line.commands config (Line.window before)))
            ∧ (run.italic = true ↔
                Command.Pending .italics [.regular] (Line.commands config (Line.window before)))
            ∧ (run.large = true ↔
                Command.Pending .large [.regular, .normal]
                  (Line.commands config (Line.window before))) := by
  rw [interpret_runs h]
  refine ⟨Machine.length_textRuns 0 _ lines, ?_⟩
  intro before line behind hlines hline
  subst hlines
  have hstyle : (Machine.after config sourceFile 0 (.start sourceFile) before).style
      = Command.styleBehind (Line.commands config (Line.window before)) :=
    Machine.style_after rfl 0 before
  refine ⟨_, Machine.getElem?_textRuns hline 0 _ before behind, rfl, ?_, ?_⟩
  . simp [TextRun.styled, Machine.place]
  . rw [hstyle]
    exact Command.styleBehind_iff _

theorem interpret_run_style_of_skipped_line
    : ∃ document run,
        (interpret { strict := .bool false }
          [".large", "x", ".bold", ".italic", ".fill", ".no", ".normal", "y"]).result = .ok document
        ∧ Line.isCommand "y" = false
        ∧ document.runs[1]? = some run
        ∧ run.content = "y" ∧ run.bold = true ∧ run.italic = true ∧ ¬run.large = true := by
  obtain ⟨document, h⟩ : ∃ document,
      (interpret { strict := .bool false }
        [".large", "x", ".bold", ".italic", ".fill", ".no", ".normal", "y"]).result = .ok document :=
    ⟨_, rfl⟩
  obtain ⟨run, hrun, hcontent, _, hbold, hitalic, hlarge⟩ := (interpret_run_style h).2
    [".large", "x", ".bold", ".italic", ".fill", ".no", ".normal"] "y" [] rfl rfl
  refine ⟨document, run, h, rfl, hrun, hcontent.trans rfl, hbold.2 ?_, hitalic.2 ?_, ?_⟩
  . exact ⟨[], [.italics, .fill, .normal], rfl, by decide⟩
  . exact ⟨[.bold], [.fill, .normal], rfl, by decide⟩
  . rw [hlarge]
    intro hpending
    have : Command.large ∈ [.bold, .italics, .fill, .normal] := Command.mem_of_pending hpending
    contradiction

end DotFormat
