import DotFormat.Proofs.Segments

/-!
This module contains which layout the paragraphs of a document have. A paragraph keeps the layout that
it was opened with, and each part of that layout is what the last command that gives it a value says.
-/

namespace DotFormat

namespace Command

/--
The value that some commands give to a part of a layout: of several commands the last one counts.
-/
def lastSetting (setting : Command → Option α) (commands : List Command) (default : α) : α :=
  (commands.filterMap setting).getLast?.getD default

def indentSetting (config : Config) : Command → Option (Amount Nat)
  | paragraph => some (.number 0)
  | fill => some config.fillPadding
  | indent units => some (.number units)
  | _ => none

def fillSetting : Command → Option Bool
  | paragraph => some false
  | fill => some true
  | nofill => some false
  | _ => none

def layoutBehind (config : Config) (commands : List Command) (layout : Layout) : Layout :=
  commands.foldl (fun layout command => command.relayout config layout) layout

theorem relayout_of_not_endsParagraph {command : Command} (h : command.endsParagraph = false)
    (config : Config) (layout : Layout) : command.relayout config layout = layout := by
  cases command <;> simp [endsParagraph, relayout] at h ⊢

theorem lastSetting_cons (setting : Command → Option α) (command : Command)
    (commands : List Command) (default : α)
    : lastSetting setting (command :: commands) default
        = lastSetting setting commands ((setting command).getD default) := by
  unfold lastSetting
  cases h : setting command with
  | none => simp [h]
  | some value =>
    rw [List.filterMap_cons_some h, List.getLast?_cons]
    simp

theorem part_layoutBehind {config : Config} (part : Layout → α) (setting : Command → Option α)
    (h : ∀ command layout, part (relayout config command layout)
      = (setting command).getD (part layout))
    (commands : List Command) (layout : Layout)
    : part (layoutBehind config commands layout) = lastSetting setting commands (part layout) := by
  induction commands generalizing layout with
  | nil => rfl
  | cons command commands ih =>
    rw [lastSetting_cons, ← h]
    apply ih

theorem indent_layoutBehind (config : Config) (commands : List Command) (layout : Layout)
    : (layoutBehind config commands layout).indent
        = lastSetting (indentSetting config) commands layout.indent := by
  apply part_layoutBehind Layout.indent
  intro command layout
  cases command <;> rfl

theorem fill_layoutBehind (config : Config) (commands : List Command) (layout : Layout)
    : (layoutBehind config commands layout).fill
        = lastSetting fillSetting commands layout.fill := by
  apply part_layoutBehind Layout.fill
  intro command layout
  cases command <;> rfl

end Command

variable {config : Config} {sourceFile : Option String}

namespace Machine

theorem layout_after (seen : Nat) (machine : Machine) (lines : List String)
    : (after config sourceFile seen machine lines).layout
        = Command.layoutBehind config (Line.commands config lines) machine.layout := by
  induction lines generalizing seen machine with
  | nil => rfl
  | cons line lines ih =>
    unfold after
    rw [ih, advance_layout]
    cases h : Line.command? config line with
    | none => simp [Line.commands, h]
    | some command => simp [Line.commands, h, Command.layoutBehind]

theorem advance_layout_of_not_endsParagraph {line : String}
    (h : Line.endsParagraph config line = false) (machine : Machine) (location : SourceLocation)
    : (machine.advance config line location).machine.layout = machine.layout := by
  rw [advance_layout]
  cases hcommand : Line.command? config line with
  | none => rfl
  | some command =>
    simp only [Line.endsParagraph, hcommand, Option.any_some] at h
    apply Command.relayout_of_not_endsParagraph h

-- The layout is kept twice, beside the open paragraph and in it.
theorem advance_paragraph_layout {machine : Machine} (h : machine.paragraph.layout = machine.layout)
    (line : String) (location : SourceLocation)
    : (machine.advance config line location).machine.paragraph.layout
        = (machine.advance config line location).machine.layout := by
  rw [advance_paragraph]
  cases hends : Line.endsParagraph config line with
  | true => rfl
  | false =>
    rw [advance_layout_of_not_endsParagraph hends, ← h]
    cases Line.isCommand line with
    | true => rfl
    | false => rfl

theorem after_paragraph_layout {machine : Machine} (h : machine.paragraph.layout = machine.layout)
    (seen : Nat) (lines : List String)
    : (after config sourceFile seen machine lines).paragraph.layout
        = (after config sourceFile seen machine lines).layout := by
  induction lines generalizing seen machine with
  | nil => exact h
  | cons line lines ih =>
    apply ih
    exact advance_paragraph_layout h line _

theorem after_paragraph_location {lines : List String} (h : ∀ line ∈ lines.getLast?,
      Line.endsParagraph config line = true)
    : (after config sourceFile 0 (.start sourceFile) lines).paragraph.location
        = { line := lines.length, sourceFile } := by
  rcases List.eq_nil_or_concat lines with rfl | ⟨lines, line, rfl⟩
  . rfl
  . rw [List.concat_eq_append] at h ⊢
    have hends : Line.endsParagraph config line = true := by
      apply h
      simp
    rw [after_concat, advance_paragraph, if_pos hends]
    simp [OpenParagraph.reopen, place]

theorem head?_paragraphs (seen : Nat) (machine : Machine) (lines : List String)
    : ∃ paragraph,
        (paragraphs config sourceFile seen machine lines).head? = some paragraph
        ∧ paragraph.location = machine.paragraph.location
        ∧ paragraph.indent = machine.paragraph.layout.indent.ofNat
        ∧ paragraph.fill = machine.paragraph.layout.fill := by
  obtain ⟨added, others, h⟩ := exists_paragraphs_eq_cons config sourceFile seen machine lines
  rw [h]
  exact ⟨_, rfl, rfl, rfl, rfl⟩

end Machine

theorem interpret_paragraph_layout {lines : List String} {document : Document}
    (h : (interpret config lines sourceFile).result = .ok document)
    : document.paragraphs.length = lines.countP (Line.endsParagraph config) + 1
      ∧ ∀ (upTo behind : List String),
          lines = upTo ++ behind
            →
          (∀ line ∈ upTo.getLast?, Line.endsParagraph config line = true)
            →
          ∃ paragraph,
            document.paragraphs[upTo.countP (Line.endsParagraph config)]? = some paragraph
            ∧ paragraph.location = { line := upTo.length, sourceFile }
            ∧ paragraph.indent
                = (Command.lastSetting (Command.indentSetting config) (Line.commands config upTo)
                    (.number 0)).ofNat
            ∧ paragraph.fill
                = Command.lastSetting Command.fillSetting (Line.commands config upTo) false := by
  rw [interpret_paragraphs h]
  refine ⟨Machine.length_paragraphs 0 _ lines, ?_⟩
  intro upTo behind hlines hlast
  subst hlines
  rw [Machine.paragraphs_append, List.getElem?_append_right]
  . rw [Machine.length_emitted, Nat.sub_self, ← List.head?_eq_getElem?]
    obtain ⟨paragraph, hparagraph, hlocation, hindent, hfill⟩ := Machine.head?_paragraphs
      (0 + upTo.length) (Machine.after config sourceFile 0 (.start sourceFile) upTo) behind
    refine ⟨paragraph, hparagraph, ?_, ?_, ?_⟩
    . rw [hlocation, Machine.after_paragraph_location hlast]
    . rw [hindent, Machine.after_paragraph_layout rfl, Machine.layout_after,
        Command.indent_layoutBehind]
      rfl
    . rw [hfill, Machine.after_paragraph_layout rfl, Machine.layout_after,
        Command.fill_layoutBehind]
      rfl
  . apply Nat.le_of_eq
    apply Machine.length_emitted

theorem interpret_paragraph_layout_of_nofill
    : ∃ document paragraph,
        (interpret { strict := .bool false }
          [".indent 3", "x", ".fill", ".no", ".bold", ".nofill", "y", ".fill"]).result = .ok document
        ∧ document.paragraphs[3]? = some paragraph
        ∧ paragraph.location = { line := 6 }
        ∧ paragraph.indent = .number 10
        ∧ paragraph.fill = false := by
  obtain ⟨document, h⟩ : ∃ document,
      (interpret { strict := .bool false }
        [".indent 3", "x", ".fill", ".no", ".bold", ".nofill", "y", ".fill"]).result = .ok document :=
    ⟨_, rfl⟩
  obtain ⟨paragraph, hparagraph, hlocation, hindent, hfill⟩ := (interpret_paragraph_layout h).2
    [".indent 3", "x", ".fill", ".no", ".bold", ".nofill"] ["y", ".fill"] rfl
    (by rintro line ⟨⟩; rfl)
  exact ⟨document, paragraph, h, hparagraph, hlocation, hindent.trans rfl, hfill.trans rfl⟩

end DotFormat
