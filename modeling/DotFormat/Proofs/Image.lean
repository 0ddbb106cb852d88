import DotFormat.Proofs.Attainable

/-!
This module contains which paragraphs can be read from a text. Paragraphs with the properties that those
of every input have can be written down, and what is written is read back.
-/

namespace DotFormat

variable {config : Config} {sourceFile : Option String}

/-! ### Writing paragraphs -/

namespace TextRun.IsOneLine

variable {run : TextRun} (h : run.IsOneLine)

include h

theorem isLine : Text.IsLine run.content :=
  ⟨h.feed, h.last⟩

theorem isCommand_eq : Line.isCommand run.content = false :=
  decide_eq_false h.mark

end TextRun.IsOneLine

namespace Style

/--
The commands that make a style out of the plain one.
-/
def commands (style : Style) : List Command :=
  (if style.bold then [.bold] else []) ++ (if style.italic then [.italics] else [])
    ++ (if style.large then [.large] else [])

theorem styleBehind_commands (style : Style) : Command.styleBehind style.commands = style := by
  obtain ⟨bold, italic, large⟩ := style
  cases bold <;> cases italic <;> cases large <;> rfl

theorem isWritable_of_mem_commands {style : Style} {command : Command} (h : command ∈ style.commands)
    : command.IsWritable ∧ command.endsParagraph = false := by
  obtain ⟨bold, italic, large⟩ := style
  simp only [commands, List.mem_append, List.mem_ite_nil_right, List.mem_singleton] at h
  rcases h with (⟨_, rfl⟩ | ⟨_, rfl⟩) | ⟨_, rfl⟩ <;> exact ⟨by rintro _ ⟨⟩, rfl⟩

end Style

/--
The lines of a run: the commands for its style and its text.
-/
def TextRun.written (run : TextRun) : List String :=
  run.style.commands.map Command.written ++ [run.content]

namespace Paragraph

def writtenRuns (paragraph : Paragraph) : List String :=
  paragraph.runs.flatMap TextRun.written

/--
A command that opens a paragraph behind another one.
-/
def opening (padding : Amount Int) (previous next : Paragraph) : Command :=
  if next.indent = .number 0 ∧ next.fill = false then .paragraph
  else if next.indent = padding ∧ next.fill = true then .fill
  else if next.indent = previous.indent ∧ next.fill = false then .nofill
  else .indent next.indent.value.toNat

/--
The lines of the paragraphs behind a paragraph.
-/
def writtenBehind (padding : Amount Int) (previous : Paragraph) : List Paragraph → List String
  | [] => []
  | next :: others =>
    (opening padding previous next).written :: (next.writtenRuns ++ writtenBehind padding next others)

/--
A text that is read as the given paragraphs.
-/
def source (padding : Amount Int) : List Paragraph → String
  | [] => ""
  | first :: others => Text.joinLines (first.writtenRuns ++ first.writtenBehind padding others)

theorem endsParagraph_opening (padding : Amount Int) (previous next : Paragraph)
    : (opening padding previous next).endsParagraph = true := by
  unfold opening
  split
  . rfl
  . split
    . rfl
    . split
      . rfl
      . rfl

theorem Follows.opening_cases {padding : Amount Int} {previous next : Paragraph}
    (h : previous.Follows padding next)
    : (opening padding previous next = .paragraph ∧ next.indent = .number 0 ∧ next.fill = false)
      ∨ (opening padding previous next = .fill ∧ next.indent = padding ∧ next.fill = true)
      ∨ (opening padding previous next = .nofill ∧ next.indent = previous.indent
        ∧ next.fill = false)
      ∨ ∃ units < 10 ^ Text.digitLimit, opening padding previous next = .indent units
        ∧ next.indent = .number units ∧ next.fill = previous.fill := by
  unfold opening
  split
  . next hstandard => exact .inl ⟨rfl, hstandard⟩
  . split
    . next hfilled => exact .inr (.inl ⟨rfl, hfilled⟩)
    . split
      . next hunfilled => exact .inr (.inr (.inl ⟨rfl, hunfilled⟩))
      . next hstandard hfilled hunfilled =>
        right; right; right
        cases h with
        | standard hindent hfill => exact absurd ⟨hindent, hfill⟩ hstandard
        | filled hindent hfill => exact absurd ⟨hindent, hfill⟩ hfilled
        | unfilled hindent hfill => exact absurd ⟨hindent, hfill⟩ hunfilled
        | @indented units hunits hindent hfill =>
          refine ⟨units, hunits, ?_, hindent, hfill⟩
          rw [hindent]
          rfl

theorem Follows.isWritable_opening {padding : Amount Int} {previous next : Paragraph}
    (h : previous.Follows padding next) : (opening padding previous next).IsWritable := by
  rcases h.opening_cases with
    ⟨hopening, _⟩ | ⟨hopening, _⟩ | ⟨hopening, _⟩ | ⟨_, hunits, hopening, _⟩
  all_goals
    rw [hopening]
    rintro _ ⟨⟩
  exact hunits

theorem Follows.hasLayout_opening {previous next : Paragraph}
    (h : previous.Follows config.fillPadding.ofNat next) {layout : Layout}
    (hlayout : previous.HasLayout layout)
    : next.HasLayout
        ((opening config.fillPadding.ofNat previous next).relayout config layout) := by
  rcases h.opening_cases with
    ⟨hopening, hindent, hfill⟩ | ⟨hopening, hindent, hfill⟩ | ⟨hopening, hindent, hfill⟩
      | ⟨units, _, hopening, hindent, hfill⟩
  all_goals rw [hopening]
  . exact ⟨hindent, hfill⟩
  . exact ⟨hindent, hfill⟩
  . exact ⟨hindent.trans hlayout.indent, hfill⟩
  . exact ⟨hindent, hfill.trans hlayout.fill⟩

end Paragraph

/-! ### Reading what was written -/

namespace Line

theorem isCommand_written {command : Command} (h : command.IsWritable)
    : isCommand command.written = true := by
  have hfound : command? {} command.written = some command := command?_written h
  exact (read_of_command? hfound .beforeFirst).1

variable {commands : List Command} (hwritable : ∀ command ∈ commands, command.IsWritable)

include hwritable

theorem window_written : window (commands.map Command.written) = commands.map Command.written := by
  unfold window
  rw [List.rtakeWhile_eq_self_iff]
  intro line hline
  obtain ⟨command, hcommand, rfl⟩ := List.mem_map.1 hline
  exact isCommand_written (hwritable command hcommand)

theorem commands_written : Line.commands config (commands.map Command.written) = commands := by
  unfold Line.commands
  rw [List.filterMap_map]
  have hread : ∀ command ∈ commands,
      (command? config ∘ Command.written) command = some command := by
    intro command hcommand
    exact command?_written (hwritable command hcommand)
  rw [List.filterMap_congr hread, List.filterMap_some]

end Line

namespace Machine

section

variable {lines : List String} (h : ∀ line ∈ lines, Line.endsParagraph config line = false)
  (seen : Nat) (machine : Machine)

include h

theorem emitted_of_not_endsParagraph : emitted config sourceFile seen machine lines = [] := by
  rw [← List.length_eq_zero_iff, length_emitted, List.countP_eq_zero]
  intro line hline
  rw [h line hline]
  decide

-- Without a command that ends it, the open paragraph takes all the texts.
theorem finish_of_not_endsParagraph
    : (after config sourceFile seen machine lines).finish
        = { machine.finish with
            runs := machine.finish.runs ++ textRuns config sourceFile seen machine lines } := by
  have hfinish : paragraphs config sourceFile seen machine lines
      = [(after config sourceFile seen machine lines).finish] := by
    unfold paragraphs
    rw [emitted_of_not_endsParagraph h, List.nil_append]
  have hruns := @flatMap_runs_paragraphs config sourceFile seen machine lines
  obtain ⟨added, others, hadded⟩ :=
    exists_paragraphs_eq_cons config sourceFile seen machine lines
  rw [hadded] at hfinish
  obtain ⟨hlast, rfl⟩ := List.cons.inj hfinish
  rw [hadded, List.flatMap_singleton] at hruns
  rw [← hlast]
  exact congrArg (fun runs => { machine.finish with runs }) hruns

theorem layout_of_not_endsParagraph
    : (after config sourceFile seen machine lines).layout = machine.layout := by
  induction lines generalizing seen machine with
  | nil => rfl
  | cons line lines ih =>
    obtain ⟨hline, hlines⟩ := List.forall_mem_cons.1 h
    unfold after
    rw [ih hlines, advance_layout_of_not_endsParagraph hline]

end

end Machine

namespace TextRun

variable {run : TextRun} (h : run.IsOneLine)

include h

theorem endsParagraph_written : ∀ line ∈ run.written, Line.endsParagraph config line = false := by
  intro line hline
  unfold written at hline
  rcases List.mem_append.1 hline with hline | hline
  . obtain ⟨command, hcommand, rfl⟩ := List.mem_map.1 hline
    obtain ⟨hwritable, hends⟩ := Style.isWritable_of_mem_commands hcommand
    unfold Line.endsParagraph
    rw [Line.command?_written hwritable, Option.any_some, hends]
  . rw [List.mem_singleton.1 hline]
    exact Line.endsParagraph_of_text h.isCommand_eq

theorem isAccepted_of_mem_written : ∀ line ∈ run.written, Line.IsAccepted config line := by
  intro line hline
  unfold written at hline
  rcases List.mem_append.1 hline with hline | hline
  . obtain ⟨command, hcommand, rfl⟩ := List.mem_map.1 hline
    exact Command.isAccepted_written (Style.isWritable_of_mem_commands hcommand).1
  . rw [List.mem_singleton.1 hline]
    refine ⟨h.isLine, ?_⟩
    unfold Line.isRefused
    rw [h.isCommand_eq]
    rfl

theorem textRuns_written {machine : Machine} (hplain : machine.style = .plain) (seen : Nat)
    : (Machine.textRuns config sourceFile seen machine run.written).map unplaced = [run.unplaced] := by
  have hwritable : ∀ command ∈ run.style.commands, command.IsWritable :=
    fun _ hcommand => (Style.isWritable_of_mem_commands hcommand).1
  have hnone : Machine.textRuns config sourceFile seen machine (run.style.commands.map Command.written)
      = [] := by
    rw [← List.length_eq_zero_iff, Machine.length_textRuns, List.countP_eq_zero]
    intro line hline
    obtain ⟨command, hcommand, rfl⟩ := List.mem_map.1 hline
    simp [Line.isCommand_written (hwritable command hcommand)]
  have hstyle : (Machine.after config sourceFile seen machine
      (run.style.commands.map Command.written)).style = run.style := by
    rw [Machine.style_after hplain, Line.window_written hwritable, Line.commands_written hwritable,
      Style.styleBehind_commands]
  unfold written
  rw [Machine.textRuns_append, hnone]
  simp only [Machine.textRuns, h.isCommand_eq, hstyle, h.isLine.dropLineEnd_eq]
  rfl

theorem style_after_written {machine : Machine} (seen : Nat)
    : (Machine.after config sourceFile seen machine run.written).style = .plain := by
  unfold written
  rw [Machine.after_concat, Machine.advance_style, h.isCommand_eq]
  rfl

end TextRun

theorem Paragraph.endsParagraph_writtenRuns {paragraph : Paragraph}
    (h : ∀ run ∈ paragraph.runs, run.IsOneLine)
    : ∀ line ∈ paragraph.writtenRuns, Line.endsParagraph config line = false := by
  intro line hline
  obtain ⟨run, hrun, hline⟩ := List.mem_flatMap.1 hline
  exact TextRun.endsParagraph_written (h run hrun) line hline

namespace Machine

theorem after_flatMap_written {runs : List TextRun} (h : ∀ run ∈ runs, run.IsOneLine)
    {machine : Machine} (hplain : machine.style = .plain) (seen : Nat)
    : (after config sourceFile seen machine (runs.flatMap TextRun.written)).style = .plain
      ∧ (textRuns config sourceFile seen machine (runs.flatMap TextRun.written)).map TextRun.unplaced
          = runs.map TextRun.unplaced := by
  induction runs generalizing seen machine with
  | nil => exact ⟨hplain, rfl⟩
  | cons run runs ih =>
    obtain ⟨hrun, hruns⟩ := List.forall_mem_cons.1 h
    have hwritten : (after config sourceFile seen machine run.written).style = .plain :=
      TextRun.style_after_written hrun seen
    obtain ⟨hstyle, htexts⟩ := ih hruns hwritten (seen + run.written.length)
    rw [List.flatMap_cons, after_append, textRuns_append, List.map_append,
      TextRun.textRuns_written hrun hplain]
    exact ⟨hstyle, congrArg _ htexts⟩

/--
The machine stands where the first line of a paragraph comes next.
-/
structure Begins (machine : Machine) (paragraph : Paragraph) : Prop where
  style : machine.style = .plain
  runs : machine.paragraph.runs = []
  opened : machine.paragraph.layout = machine.layout
  layout : paragraph.HasLayout machine.layout

theorem begins_opening {machine : Machine} {previous next : Paragraph}
    (hplain : machine.style = .plain) (hlayout : previous.HasLayout machine.layout)
    (h : previous.Follows config.fillPadding.ofNat next) (location : SourceLocation)
    : (machine.perform config (previous.opening config.fillPadding.ofNat next)
        location).machine.Begins next := by
  have hends := previous.endsParagraph_opening config.fillPadding.ofNat next
  constructor
  . rw [perform_style, hplain]
    apply Command.restyle_of_endsParagraph hends
  . rw [perform_paragraph, if_pos hends]
    rfl
  . rw [perform_paragraph, if_pos hends, perform_layout]
    rfl
  . rw [perform_layout]
    exact h.hasLayout_opening hlayout

theorem Begins.finish_writtenRuns {machine : Machine} {paragraph : Paragraph}
    (hbegins : machine.Begins paragraph) (h : ∀ run ∈ paragraph.runs, run.IsOneLine) (seen : Nat)
    : (after config sourceFile seen machine paragraph.writtenRuns).finish.unplaced
        = paragraph.unplaced := by
  have hruns : machine.finish.runs = [] := hbegins.runs
  have hindent : machine.finish.indent = paragraph.indent := by
    rw [hbegins.layout.indent, ← hbegins.opened]
    rfl
  have hfill : machine.finish.fill = paragraph.fill := by
    rw [hbegins.layout.fill, ← hbegins.opened]
    rfl
  rw [finish_of_not_endsParagraph (paragraph.endsParagraph_writtenRuns h), hruns, List.nil_append]
  unfold Paragraph.unplaced
  dsimp only
  rw [hindent, hfill, ← (after_flatMap_written h hbegins.style seen).2]
  rfl

theorem Begins.style_writtenRuns {machine : Machine} {paragraph : Paragraph}
    (hbegins : machine.Begins paragraph) (h : ∀ run ∈ paragraph.runs, run.IsOneLine) (seen : Nat)
    : (after config sourceFile seen machine paragraph.writtenRuns).style = .plain :=
  (after_flatMap_written h hbegins.style seen).1

theorem Begins.layout_writtenRuns {machine : Machine} {paragraph : Paragraph}
    (hbegins : machine.Begins paragraph) (h : ∀ run ∈ paragraph.runs, run.IsOneLine) (seen : Nat)
    : paragraph.HasLayout (after config sourceFile seen machine paragraph.writtenRuns).layout := by
  rw [layout_of_not_endsParagraph (paragraph.endsParagraph_writtenRuns h)]
  exact hbegins.layout

theorem paragraphs_writtenBehind {current : Paragraph} {others : List Paragraph}
    (hchain : (current :: others).IsChain (Paragraph.Follows config.fillPadding.ofNat))
    (hcontents : ∀ paragraph ∈ others, ∀ run ∈ paragraph.runs, run.IsOneLine)
    {machine : Machine} (hplain : machine.style = .plain) (hlayout : current.HasLayout machine.layout)
    (seen : Nat)
    : (paragraphs config sourceFile seen machine
          (current.writtenBehind config.fillPadding.ofNat others)).map Paragraph.unplaced
        = machine.finish.unplaced :: others.map Paragraph.unplaced := by
  induction others generalizing seen machine current with
  | nil => rfl
  | cons next others ih =>
    obtain ⟨hnext, hothers⟩ := List.forall_mem_cons.1 hcontents
    obtain ⟨hfollows, hbehind⟩ := List.isChain_cons_cons.1 hchain
    have hends := current.endsParagraph_opening config.fillPadding.ofNat next
    have hbegins := begins_opening hplain hlayout hfollows (place sourceFile seen)
    rw [Paragraph.writtenBehind, paragraphs_cons,
      advance_of_command (Line.command?_written hfollows.isWritable_opening), perform_emitted,
      if_pos hends, paragraphs_append,
      emitted_of_not_endsParagraph (next.endsParagraph_writtenRuns hnext), List.nil_append,
      List.map_append, ih hbehind hothers (hbegins.style_writtenRuns hnext _)
        (hbegins.layout_writtenRuns hnext _), hbegins.finish_writtenRuns hnext]
    rfl

end Machine

namespace Paragraph

theorem isAccepted_of_mem_writtenRuns {paragraph : Paragraph}
    (h : ∀ run ∈ paragraph.runs, run.IsOneLine)
    : ∀ line ∈ paragraph.writtenRuns, Line.IsAccepted config line := by
  intro line hline
  obtain ⟨run, hrun, hline⟩ := List.mem_flatMap.1 hline
  exact TextRun.isAccepted_of_mem_written (h run hrun) line hline

theorem isAccepted_of_mem_writtenBehind {padding : Amount Int} {current : Paragraph}
    {others : List Paragraph} (hchain : (current :: others).IsChain (Follows padding))
    (hcontents : ∀ paragraph ∈ others, ∀ run ∈ paragraph.runs, run.IsOneLine)
    : ∀ line ∈ current.writtenBehind padding others, Line.IsAccepted config line := by
  induction others generalizing current with
  | nil =>
    intro line hline
    contradiction
  | cons next others ih =>
    obtain ⟨hnext, hothers⟩ := List.forall_mem_cons.1 hcontents
    obtain ⟨hfollows, hbehind⟩ := List.isChain_cons_cons.1 hchain
    intro line hline
    rw [writtenBehind, List.mem_cons, List.mem_append] at hline
    rcases hline with rfl | hline | hline
    . exact Command.isAccepted_written hfollows.isWritable_opening
    . exact isAccepted_of_mem_writtenRuns hnext line hline
    . exact ih hbehind hothers line hline

end Paragraph

theorem interpretText_joinLines {lines : List String}
    (h : ∀ line ∈ lines, Line.IsAccepted config line)
    : (interpretText config (Text.joinLines lines) sourceFile).result
        = .ok (Interpretation.documentOf config sourceFile lines []) := by
  unfold interpretText
  rw [Text.splitLines_joinLines fun line hline => (h line hline).isLine]
  refine interpret_eq_ok_iff.2 ⟨[], ?_, fun _ => rfl, rfl⟩
  rw [List.map_nil, ← List.length_eq_zero_iff, Interpretation.length_refusals, List.countP_eq_zero]
  intro line hline
  rw [(h line hline).accepted]
  decide

theorem interpretText_source {paragraphs : List Paragraph}
    (h : Paragraph.Attainable config.fillPadding.ofNat paragraphs)
    : ∃ document,
        (interpretText config (Paragraph.source config.fillPadding.ofNat paragraphs)
          sourceFile).result = .ok document
        ∧ document.paragraphs.map Paragraph.unplaced = paragraphs.map Paragraph.unplaced := by
  obtain ⟨⟨first, hhead, hindent, hfill⟩, hchain, hcontents⟩ := h
  obtain ⟨others, rfl⟩ := List.head?_eq_some_iff.1 hhead
  obtain ⟨hfirst, hothers⟩ := List.forall_mem_cons.1 hcontents
  have hbegins : (Machine.start sourceFile).Begins first := ⟨rfl, rfl, rfl, hindent, hfill⟩
  refine ⟨_, interpretText_joinLines ?_, ?_⟩
  . intro line hline
    rcases List.mem_append.1 hline with hline | hline
    . exact Paragraph.isAccepted_of_mem_writtenRuns hfirst line hline
    . exact Paragraph.isAccepted_of_mem_writtenBehind hchain hothers line hline
  . unfold Interpretation.documentOf Interpretation.close
    rw [List.nil_append, Machine.paragraphs_append,
      Machine.emitted_of_not_endsParagraph (first.endsParagraph_writtenRuns hfirst), List.nil_append,
      Machine.paragraphs_writtenBehind hchain hothers (hbegins.style_writtenRuns hfirst _)
        (hbegins.layout_writtenRuns hfirst _), hbegins.finish_writtenRuns hfirst]
    rfl

/--
The paragraphs that can be read from a text are exactly the attainable ones.
-/
theorem interpretText_image_iff {paragraphs : List Paragraph}
    : (∃ source document, (interpretText config source sourceFile).result = .ok document
          ∧ document.paragraphs.map Paragraph.unplaced = paragraphs.map Paragraph.unplaced)
        ↔
      Paragraph.Attainable config.fillPadding.ofNat paragraphs := by
  constructor
  . rintro ⟨source, document, hresult, hparagraphs⟩
    rw [← Paragraph.attainable_map_unplaced_iff, ← hparagraphs, Paragraph.attainable_map_unplaced_iff]
    exact interpretText_attainable hresult
  . intro h
    exact ⟨_, interpretText_source h⟩

end DotFormat
