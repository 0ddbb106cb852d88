import DotFormat.Proofs.Layouts
import DotFormat.Proofs.Positions
import DotFormat.Proofs.Writing
import Mathlib.Data.List.Chain

/-!
This module contains what is true of the paragraphs of every input. The layout of a paragraph comes from
that of the one before by a command, and the text of a run is a line of its own that is no command.
-/

namespace DotFormat

/-! ### Paragraphs without their places -/

namespace TextRun

def unplaced (run : TextRun) : TextRun :=
  { run with location := .beforeFirst }

/--
The text of a run can stand on a line of its own and is no command there.
-/
structure IsOneLine (run : TextRun) : Prop where
  feed : '\n' ∉ run.content.toList
  mark : run.content.toList.head? ≠ some '.'
  last : run.content.toList.getLast? ≠ some '\r'

theorem isOneLine_unplaced_iff {run : TextRun} : run.unplaced.IsOneLine ↔ run.IsOneLine :=
  ⟨fun h => ⟨h.feed, h.mark, h.last⟩, fun h => ⟨h.feed, h.mark, h.last⟩⟩

end TextRun

namespace Paragraph

def unplaced (paragraph : Paragraph) : Paragraph :=
  { paragraph with runs := paragraph.runs.map TextRun.unplaced, location := .beforeFirst }

structure HasLayout (paragraph : Paragraph) (layout : Layout) : Prop where
  indent : paragraph.indent = layout.indent.ofNat
  fill : paragraph.fill = layout.fill

/--
The layout of a paragraph comes from that of the paragraph before: it is the default, the one of
`.fill`, or differs in one part at most.
-/
inductive Follows (padding : Amount Int) (previous next : Paragraph) : Prop where
  | standard (hindent : next.indent = .number 0) (hfill : next.fill = false)
  | filled (hindent : next.indent = padding) (hfill : next.fill = true)
  | unfilled (hindent : next.indent = previous.indent) (hfill : next.fill = false)
  | indented {units : Nat} (hunits : units < 10 ^ Text.digitLimit)
    (hindent : next.indent = .number units) (hfill : next.fill = previous.fill)

/--
What is true of the paragraphs of every input, wherever its lines stand.
-/
structure Attainable (padding : Amount Int) (paragraphs : List Paragraph) : Prop where
  first : ∃ first ∈ paragraphs.head?, first.indent = .number 0 ∧ first.fill = false
  layouts : paragraphs.IsChain (Follows padding)
  contents : ∀ paragraph ∈ paragraphs, ∀ run ∈ paragraph.runs, run.IsOneLine

-- Neither the places of paragraphs nor those of their runs matter for what can be read.
theorem follows_unplaced_iff {padding : Amount Int} {previous next : Paragraph}
    : Follows padding previous.unplaced next.unplaced ↔ Follows padding previous next := by
  constructor
  . rintro (⟨hindent, hfill⟩ | ⟨hindent, hfill⟩ | ⟨hindent, hfill⟩ | ⟨hunits, hindent, hfill⟩)
    . exact .standard hindent hfill
    . exact .filled hindent hfill
    . exact .unfilled hindent hfill
    . exact .indented hunits hindent hfill
  . rintro (⟨hindent, hfill⟩ | ⟨hindent, hfill⟩ | ⟨hindent, hfill⟩ | ⟨hunits, hindent, hfill⟩)
    . exact .standard hindent hfill
    . exact .filled hindent hfill
    . exact .unfilled hindent hfill
    . exact .indented hunits hindent hfill

theorem attainable_map_unplaced_iff {padding : Amount Int} {paragraphs : List Paragraph}
    : Attainable padding (paragraphs.map unplaced) ↔ Attainable padding paragraphs := by
  have hfirst : (∃ first ∈ (paragraphs.map unplaced).head?,
        first.indent = .number 0 ∧ first.fill = false)
      ↔ ∃ first ∈ paragraphs.head?, first.indent = .number 0 ∧ first.fill = false := by
    cases paragraphs with
    | nil => rfl
    | cons paragraph others => simp [unplaced]
  have hlayouts : (paragraphs.map unplaced).IsChain (Follows padding)
      ↔ paragraphs.IsChain (Follows padding) := by
    rw [List.isChain_map]
    simp only [follows_unplaced_iff]
  have hcontents : (∀ paragraph ∈ paragraphs.map unplaced, ∀ run ∈ paragraph.runs, run.IsOneLine)
      ↔ ∀ paragraph ∈ paragraphs, ∀ run ∈ paragraph.runs, run.IsOneLine := by
    simp only [unplaced, List.forall_mem_map, TextRun.isOneLine_unplaced_iff]
  exact ⟨fun h => ⟨hfirst.1 h.first, hlayouts.1 h.layouts, hcontents.1 h.contents⟩,
    fun h => ⟨hfirst.2 h.first, hlayouts.2 h.layouts, hcontents.2 h.contents⟩⟩

end Paragraph

variable {config : Config} {sourceFile : Option String}

/-! ### Paragraphs that were read -/

theorem Command.follows_relayout {command : Command} (hends : command.endsParagraph = true)
    (hwritable : command.IsWritable) {layout : Layout} {previous next : Paragraph}
    (hprevious : previous.HasLayout layout) (hnext : next.HasLayout (command.relayout config layout))
    : previous.Follows config.fillPadding.ofNat next := by
  cases command with
  | paragraph => exact .standard hnext.indent hnext.fill
  | fill => exact .filled hnext.indent hnext.fill
  | nofill => exact .unfilled (hnext.indent.trans hprevious.indent.symm) hnext.fill
  | indent units =>
    exact .indented (hwritable units rfl) hnext.indent (hnext.fill.trans hprevious.fill.symm)
  | _ => contradiction

theorem Command.restyle_of_endsParagraph {command : Command} (h : command.endsParagraph = true)
    (style : Style) : command.restyle style = style := by
  cases command with
  | paragraph | fill | nofill | indent => rfl
  | _ => contradiction

theorem Line.isWritable_of_command? {line : String} {command : Command}
    (h : command? config line = some command) : command.IsWritable := by
  obtain ⟨hmark, hread⟩ := read_of_command? h .beforeFirst
  unfold read at hread
  rw [isCommand_dropLineEnd, if_pos hmark] at hread
  split at hread
  . next found hfound =>
    cases hread
    apply Command.argument_lt_of_read hfound
  . contradiction

namespace Machine

theorem hasLayout_of_mem_head? {seen : Nat} {machine : Machine} {lines : List String}
    {paragraph : Paragraph}
    (h : paragraph ∈ (paragraphs config sourceFile seen machine lines).head?)
    : paragraph.HasLayout machine.paragraph.layout := by
  obtain ⟨first, hfirst, _, hindent, hfill⟩ :=
    @head?_paragraphs config sourceFile seen machine lines
  rw [hfirst, Option.mem_some_iff] at h
  subst h
  exact ⟨hindent, hfill⟩

theorem isChain_paragraphs (seen : Nat) {machine : Machine}
    (h : machine.paragraph.layout = machine.layout) (lines : List String)
    : (paragraphs config sourceFile seen machine lines).IsChain
        (Paragraph.Follows config.fillPadding.ofNat) := by
  induction lines generalizing seen machine with
  | nil => exact .singleton _
  | cons line lines ih =>
    have hlayout := @advance_paragraph_layout config machine h line (place sourceFile seen)
    rw [paragraphs_cons, advance_emitted]
    cases hends : Line.endsParagraph config line with
    | false => exact ih (seen + 1) hlayout
    | true =>
      refine List.isChain_cons.2 ⟨?_, ih (seen + 1) hlayout⟩
      intro next hnext
      obtain ⟨command, hcommand, hcommandEnds⟩ := (Option.any_eq_true _ _).1 hends
      apply Command.follows_relayout hcommandEnds (Line.isWritable_of_command? hcommand)
      . exact ⟨congrArg (·.indent.ofNat) h, congrArg (·.fill) h⟩
      . have hrelayout := hasLayout_of_mem_head? hnext
        rwa [hlayout, advance_layout, hcommand] at hrelayout

end Machine

theorem Text.getLast?_dropLineEnd_ne (line : String)
    : (dropLineEnd line).toList.getLast? ≠ some '\r' := by
  unfold dropLineEnd
  rw [String.toList_ofList, dropEndWhile_eq_rdropWhile]
  intro h
  have hne : line.toList.rdropWhile (fun c => c == '\r' || c == '\n') ≠ [] := by
    intro hnil
    rw [hnil] at h
    contradiction
  rw [List.getLast?_eq_some_getLast hne, Option.some.injEq] at h
  have hlast := List.rdropWhile_last_not _ _ hne
  rw [h] at hlast
  contradiction

theorem interpretText_attainable {source : String} {document : Document}
    (h : (interpretText config source sourceFile).result = .ok document)
    : Paragraph.Attainable config.fillPadding.ofNat document.paragraphs where
  first := by
    rw [interpret_paragraphs h]
    obtain ⟨first, hfirst, _, hindent, hfill⟩ :=
      @Machine.head?_paragraphs config sourceFile 0 (.start sourceFile) (Text.splitLines source)
    exact ⟨first, hfirst, hindent, hfill⟩
  layouts := by
    rw [interpret_paragraphs h]
    apply Machine.isChain_paragraphs
    rfl
  contents := by
    intro paragraph hparagraph run hrun
    have hmem : run ∈ document.runs := List.mem_flatMap.2 ⟨paragraph, hparagraph, hrun⟩
    refine ⟨interpretText_freeOfLineFeeds h run hmem, ?_, ?_⟩
    . exact of_decide_eq_false (isCommand_of_mem_runs h hmem)
    . obtain ⟨_, line, _, _, hcontent⟩ := interpret_run_place h hmem
      rw [hcontent]
      apply Text.getLast?_dropLineEnd_ne

end DotFormat
