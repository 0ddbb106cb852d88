import DotFormat.Proofs.LineEnd
import DotFormat.Proofs.Strictness
import Mathlib.Data.List.Nodup

/-!
This module contains where the parts of a document come from. Each line of the input is the place of
one run, of one paragraph behind the first or of one diagnostic, or it changes the pending style and
leaves no place behind. The places stand in the document in the order of the lines.
-/

namespace DotFormat

/--
The line of the command that opened a paragraph, and the lines of its runs.
-/
def Paragraph.lines (paragraph : Paragraph) : List Int :=
  paragraph.location.line :: paragraph.runs.map (·.location.line)

namespace OpenParagraph

theorem lines_reopen (paragraph : OpenParagraph) (layout : Layout) (location : SourceLocation)
    : (paragraph.reopen layout location).sealed.lines = [location.line] :=
  rfl

theorem lines_append (paragraph : OpenParagraph) (run : TextRun)
    : (paragraph.append run).sealed.lines = paragraph.sealed.lines ++ [run.location.line] := by
  have hruns : (paragraph.append run).sealed.runs = paragraph.sealed.runs ++ [run] :=
    runs_append paragraph run
  unfold Paragraph.lines
  rw [hruns, List.map_append]
  rfl

end OpenParagraph

namespace Document

def runLines (document : Document) : List Int :=
  document.runs.map (·.location.line)

/--
The lines of the commands that opened a paragraph. The first paragraph was opened by none.
-/
def openingLines (document : Document) : List Int :=
  document.paragraphs.tail.map (·.location.line)

def skippedLines (document : Document) : List Int :=
  document.diagnostics.filterMap (·.line)

/--
How many runs, paragraphs behind the first and diagnostics have a number for their line.
-/
def mentions (document : Document) (number : Int) : Nat × Nat × Nat :=
  (document.runLines.count number, document.openingLines.count number,
    document.skippedLines.count number)

end Document

variable {config : Config} {sourceFile : Option String}

/-! ### Numbers of lines -/

namespace Line

/--
The numbers of the lines with a property, the first line standing behind `seen` others.
-/
def numbers (p : String → Bool) (lines : List String) (seen : Nat := 0) : List Int :=
  (lines.findIdxs p (seen + 1)).map fun number : Nat => (number : Int)

variable {p : String → Bool} {line : String} {lines : List String} {seen : Nat}

theorem numbers_cons
    : numbers p (line :: lines) seen =
        if p line then ((seen + 1 : Nat) : Int) :: numbers p lines (seen + 1)
        else numbers p lines (seen + 1) := by
  unfold numbers
  rw [List.findIdxs_cons]
  split
  . rfl
  . rfl

theorem pairwise_numbers : (numbers p lines seen).Pairwise (· < ·) := by
  unfold numbers
  rw [List.pairwise_map]
  exact List.pairwise_findIdxs.imp Int.ofNat_lt.2

theorem exists_of_mem_numbers {number : Int} (h : number ∈ numbers p lines)
    : ∃ (m : Nat) (line : String), lines[m]? = some line ∧ p line = true ∧ number = m + 1 := by
  obtain ⟨index, hindex, rfl⟩ := List.mem_map.1 h
  obtain ⟨hpos, hlt, hp⟩ := List.mem_findIdxs_iff_getElem_sub_pos.1 hindex
  refine ⟨index - 1, _, List.getElem?_eq_getElem hlt, hp, ?_⟩
  omega

theorem mem_numbers_iff {m : Nat} (h : lines[m]? = some line)
    : (m : Int) + 1 ∈ numbers p lines ↔ p line = true := by
  constructor
  . intro hmem
    obtain ⟨index, other, hother, hp, heq⟩ := exists_of_mem_numbers hmem
    obtain rfl : m = index := by omega
    rw [h] at hother
    injection hother with hother
    rwa [hother]
  . intro hp
    obtain ⟨hlt, rfl⟩ := List.getElem?_eq_some_iff.1 h
    refine List.mem_map.2 ⟨m + 1, ?_, rfl⟩
    exact List.mem_findIdxs_iff_getElem_sub_pos.2 ⟨by omega, hlt, hp⟩

theorem count_numbers {m : Nat} (h : lines[m]? = some line)
    : (numbers p lines).count ((m : Int) + 1) = if p line then 1 else 0 := by
  have hnodup : (numbers p lines).Nodup := pairwise_numbers.imp Int.ne_of_lt
  split
  . next hp => exact List.count_eq_one_of_mem hnodup ((mem_numbers_iff h).2 hp)
  . next hp => exact List.count_eq_zero_of_not_mem fun hmem => hp ((mem_numbers_iff h).1 hmem)

end Line

/-! ### Places of a run -/

namespace Machine

theorem place_zero_add (m : Nat)
    : place sourceFile (0 + m) = { line := m + 1, sourceFile } := by
  rw [Nat.zero_add]
  rfl

theorem lines_textRuns (seen : Nat) (machine : Machine) (lines : List String)
    : (textRuns config sourceFile seen machine lines).map (·.location.line)
        = Line.numbers (fun line => !Line.isCommand line) lines seen := by
  induction lines generalizing seen machine with
  | nil => rfl
  | cons line lines ih =>
    unfold textRuns
    rw [Line.numbers_cons]
    cases Line.isCommand line with
    | true => exact ih ..
    | false => exact congrArg _ (ih ..)

theorem exists_of_mem_textRuns {seen : Nat} {machine : Machine} {lines : List String}
    {run : TextRun} (h : run ∈ textRuns config sourceFile seen machine lines)
    : ∃ (m : Nat) (line : String), lines[m]? = some line
        ∧ run.location = place sourceFile (seen + m)
        ∧ run.content = Text.dropLineEnd line := by
  induction lines generalizing seen machine with
  | nil => contradiction
  | cons line lines ih =>
    have hbehind : run ∈ textRuns config sourceFile (seen + 1)
          (machine.advance config line (place sourceFile seen)).machine lines
        → ∃ (m : Nat) (other : String), (line :: lines)[m]? = some other
          ∧ run.location = place sourceFile (seen + m)
          ∧ run.content = Text.dropLineEnd other := by
      intro hmem
      obtain ⟨m, other, hother, hlocation, hcontent⟩ := ih hmem
      refine ⟨m + 1, other, hother, ?_, hcontent⟩
      rw [hlocation, Nat.add_assoc, Nat.add_comm 1 m]
    unfold textRuns at h
    cases hline : Line.isCommand line with
    | true =>
      rw [hline] at h
      exact hbehind h
    | false =>
      rw [hline] at h
      rcases List.mem_cons.1 h with rfl | h
      . exact ⟨0, line, rfl, rfl, rfl⟩
      . exact hbehind h

theorem locations_paragraphs (seen : Nat) (machine : Machine) (lines : List String)
    : (paragraphs config sourceFile seen machine lines).map (·.location)
        =
      machine.paragraph.location
        :: (Line.numbers (Line.endsParagraph config) lines seen).map fun number =>
          { line := number, sourceFile } := by
  induction lines generalizing seen machine with
  | nil => rfl
  | cons line lines ih =>
    rw [paragraphs_cons, List.map_append, ih, advance_emitted, advance_paragraph,
      Line.numbers_cons]
    cases Line.endsParagraph config line with
    | true => rfl
    | false =>
      cases Line.isCommand line with
      | true => rfl
      | false => rfl

-- What is open stands in front, so a paragraph and its runs come before what the next line adds.
theorem lines_paragraphs (seen : Nat) (machine : Machine) (lines : List String)
    : (paragraphs config sourceFile seen machine lines).flatMap Paragraph.lines
        =
      machine.paragraph.sealed.lines
        ++ Line.numbers (fun line => Line.endsParagraph config line || !Line.isCommand line) lines
          seen := by
  induction lines generalizing seen machine with
  | nil => simp [paragraphs, emitted, after, finish, Line.numbers]
  | cons line lines ih =>
    rw [paragraphs_cons, List.flatMap_append, ih, advance_emitted, advance_paragraph,
      Line.numbers_cons]
    cases Line.endsParagraph config line with
    | true => simp [OpenParagraph.lines_reopen, place]
    | false =>
      cases Line.isCommand line with
      | true => simp
      | false => simp [OpenParagraph.lines_append, TextRun.styled, place]

end Machine

namespace Interpretation

theorem exists_of_mem_refusals {seen : Nat} {lines : List String} {refusal : Refusal ParseError}
    (h : refusal ∈ refusals config sourceFile seen lines)
    : ∃ (m : Nat) (line : String), lines[m]? = some line
        ∧ Line.refusal? config line (Machine.place sourceFile (seen + m)) = some refusal := by
  induction lines generalizing seen with
  | nil => contradiction
  | cons line lines ih =>
    rcases List.mem_append.1 h with h | h
    . exact ⟨0, line, rfl, Option.mem_toList.1 h⟩
    . obtain ⟨m, other, hother, hrefusal⟩ := ih h
      refine ⟨m + 1, other, hother, ?_⟩
      rwa [Nat.add_assoc, Nat.add_comm 1 m] at hrefusal

theorem lines_of_refusals {seen : Nat} {lines : List String} {errors : List ParseError}
    (h : refusals config sourceFile seen lines = errors.map .malformed)
    : errors.map (·.line) = (Line.numbers (Line.isRefused config) lines seen).map some := by
  induction lines generalizing seen errors with
  | nil =>
    obtain rfl : errors = [] := by simpa [refusals] using h.symm
    rfl
  | cons line lines ih =>
    unfold refusals at h
    rw [Line.numbers_cons, ← Line.isSome_refusal? config line (Machine.place sourceFile seen)]
    cases hrefusal : Line.refusal? config line (Machine.place sourceFile seen) with
    | none =>
      rw [hrefusal] at h
      exact ih h
    | some refusal =>
      rw [hrefusal, Option.toList_some, List.singleton_append] at h
      obtain ⟨error, others, rfl, rfl, hothers⟩ := List.map_eq_cons_iff.1 h.symm
      rw [List.map_cons, ih hothers.symm, (Line.place_of_refusal? hrefusal).1]
      rfl

end Interpretation

/-! ### Places of a document -/

section

variable {lines : List String} {document : Document}

theorem interpret_runLines (h : (interpret config lines sourceFile).result = .ok document)
    : document.runLines = Line.numbers (fun line => !Line.isCommand line) lines := by
  unfold Document.runLines
  rw [interpret_runs h, Machine.lines_textRuns]

theorem interpret_locations (h : (interpret config lines sourceFile).result = .ok document)
    : document.paragraphs.map (·.location)
        =
      .beforeFirst sourceFile
        :: (Line.numbers (Line.endsParagraph config) lines).map fun number =>
          { line := number, sourceFile } := by
  rw [interpret_paragraphs h, Machine.locations_paragraphs]
  rfl

theorem interpret_openingLines (h : (interpret config lines sourceFile).result = .ok document)
    : document.openingLines = Line.numbers (Line.endsParagraph config) lines := by
  have hlocations := congrArg (List.map SourceLocation.line ∘ List.tail) (interpret_locations h)
  simpa [Document.openingLines, Function.comp_def] using hlocations

theorem interpret_lines (h : (interpret config lines sourceFile).result = .ok document)
    : document.paragraphs.flatMap Paragraph.lines
        = 0 :: Line.numbers (fun line => Line.endsParagraph config line || !Line.isCommand line)
            lines := by
  rw [interpret_paragraphs h, Machine.lines_paragraphs]
  rfl

theorem interpret_diagnostics_line (h : (interpret config lines sourceFile).result = .ok document)
    : document.diagnostics.map (·.line)
        = (Line.numbers (Line.isRefused config) lines).map some := by
  obtain ⟨errors, herrors, _, rfl⟩ := interpret_eq_ok_iff.1 h
  rw [← Interpretation.lines_of_refusals herrors]
  simp [Interpretation.documentOf, Interpretation.close, Interpretation.diagnostic]

theorem interpret_skippedLines (h : (interpret config lines sourceFile).result = .ok document)
    : document.skippedLines = Line.numbers (Line.isRefused config) lines := by
  have hlines := congrArg (List.filterMap id) (interpret_diagnostics_line h)
  simpa [Document.skippedLines, List.filterMap_map, Function.comp_def] using hlines

/--
A line is the place of one run, of one paragraph behind the first or of one diagnostic, or it changes
the pending style and is the place of nothing. Only one of the four can hold, as the counts differ.
-/
def Document.Accounts (document : Document) (config : Config) (line : String) (number : Int)
    : Prop :=
  (document.mentions number = (1, 0, 0) ∧ Line.isCommand line = false)
    ∨ (document.mentions number = (0, 1, 0) ∧ Line.endsParagraph config line = true)
    ∨ (document.mentions number = (0, 0, 1) ∧ Line.isRefused config line = true)
    ∨ (document.mentions number = (0, 0, 0)
      ∧ ∃ command ∈ [Command.bold, .italics, .large, .normal, .regular],
          Line.command? config line = some command)

theorem interpret_accounts (h : (interpret config lines sourceFile).result = .ok document) {m : Nat}
    {line : String} (hline : lines[m]? = some line) : document.Accounts config line (m + 1) := by
  unfold Document.Accounts Document.mentions
  rw [interpret_runLines h, interpret_openingLines h, interpret_skippedLines h,
    Line.count_numbers hline, Line.count_numbers hline, Line.count_numbers hline]
  unfold Line.isRefused
  cases hcommand : Line.isCommand line with
  | false => simp [hcommand]
  | true =>
    cases hfound : Line.command? config line with
    | none => simp [hfound, Line.endsParagraph]
    | some command => cases command <;> simp [hfound, Line.endsParagraph, Command.endsParagraph]

theorem interpret_run_place (h : (interpret config lines sourceFile).result = .ok document)
    {run : TextRun} (hrun : run ∈ document.runs)
    : ∃ (m : Nat) (line : String), lines[m]? = some line
        ∧ run.location = { line := m + 1, sourceFile }
        ∧ run.content = Text.dropLineEnd line := by
  rw [interpret_runs h] at hrun
  obtain ⟨m, line, hline, hlocation, hcontent⟩ := Machine.exists_of_mem_textRuns hrun
  rw [Machine.place_zero_add] at hlocation
  exact ⟨m, line, hline, hlocation, hcontent⟩

theorem interpret_paragraph_place (h : (interpret config lines sourceFile).result = .ok document)
    {paragraph : Paragraph} (hparagraph : paragraph ∈ document.paragraphs)
    (hpositive : 0 < paragraph.location.line)
    : ∃ (m : Nat) (line : String) (command : Command), lines[m]? = some line
        ∧ paragraph.location = { line := m + 1, sourceFile }
        ∧ Line.command? config line = some command
        ∧ command.endsParagraph = true := by
  have hlocation : paragraph.location ∈ document.paragraphs.map (·.location) :=
    List.mem_map_of_mem hparagraph
  rw [interpret_locations h] at hlocation
  rcases List.mem_cons.1 hlocation with hfirst | hlocation
  . rw [hfirst] at hpositive
    contradiction
  . obtain ⟨number, hnumber, hlocation⟩ := List.mem_map.1 hlocation
    obtain ⟨m, line, hline, hends, rfl⟩ := Line.exists_of_mem_numbers hnumber
    obtain ⟨command, hcommand, hends⟩ := (Option.any_eq_true _ _).1 hends
    exact ⟨m, line, command, hline, hlocation.symm, hcommand, hends⟩

theorem interpret_diagnostic_place (h : (interpret config lines sourceFile).result = .ok document)
    {diagnostic : Diagnostic} (hdiagnostic : diagnostic ∈ document.diagnostics)
    : ∃ (m : Nat) (line : String) (error : ParseError), lines[m]? = some line
        ∧ Line.refusal? config line { line := m + 1, sourceFile } = some (.malformed error)
        ∧ diagnostic = Interpretation.diagnostic error := by
  obtain ⟨errors, herrors, _, rfl⟩ := interpret_eq_ok_iff.1 h
  obtain ⟨error, herror, hdiagnostic⟩ := List.mem_map.1 hdiagnostic
  have hrefusal : .malformed error ∈ Interpretation.refusals config sourceFile 0 lines := by
    rw [herrors]
    exact List.mem_map_of_mem herror
  obtain ⟨m, line, hline, hrefusal⟩ := Interpretation.exists_of_mem_refusals hrefusal
  rw [Machine.place_zero_add] at hrefusal
  exact ⟨m, line, error, hline, hrefusal, hdiagnostic.symm⟩

end

/-! ### Places in a text -/

/--
Where the parts of a document stand in the text that it was read from. A line of the text is one of
its pieces, and the carriage returns at the end of a piece do not matter for a command.
-/
structure Document.Placed (document : Document) (config : Config) (source : String)
    (sourceFile : Option String) : Prop where
  accounts : ∀ (m : Nat) (line : String), (Text.splitLines source)[m]? = some line
    → document.Accounts config line (m + 1)
  first : document.paragraphs.head?.map (·.location) = some (.beforeFirst sourceFile)
  ordered : (document.paragraphs.flatMap Paragraph.lines).Pairwise (· < ·)
  skippedOrdered : document.skippedLines.Pairwise (· < ·)
  runs : ∀ run ∈ document.runs, ∃ (m : Nat) (piece : List Char),
    (Text.pieces '\n' source.toList)[m]? = some piece
      ∧ m < (Text.splitLines source).length
      ∧ run.location = { line := m + 1, sourceFile }
      ∧ run.content = String.ofList (Text.dropReturns piece)
  openings : ∀ paragraph ∈ document.paragraphs, 0 < paragraph.location.line
    → ∃ (m : Nat) (piece : List Char) (command : Command),
      (Text.pieces '\n' source.toList)[m]? = some piece
        ∧ m < (Text.splitLines source).length
        ∧ paragraph.location = { line := m + 1, sourceFile }
        ∧ command.endsParagraph = true
        ∧ ∀ text ∈ [piece, Text.dropReturns piece],
            Line.read (String.ofList text) paragraph.location config.acceptsAlias
              = .ok (.command command paragraph.location)
  diagnostics : ∀ diagnostic ∈ document.diagnostics, ∃ (m : Nat) (piece : List Char),
    (Text.pieces '\n' source.toList)[m]? = some piece
      ∧ m < (Text.splitLines source).length
      ∧ diagnostic.line = some (m + 1)
      ∧ diagnostic.sourceFile = sourceFile
      ∧ ∀ text ∈ [piece, Text.dropReturns piece], ∃ error,
          Line.read (String.ofList text) { line := m + 1, sourceFile } config.acceptsAlias
              = .error (.malformed error)
            ∧ error.fault.kind = diagnostic.kind
            ∧ error.text = diagnostic.message

theorem interpretText_placed {source : String} {document : Document}
    (h : (interpretText config source sourceFile).result = .ok document)
    : document.Placed config source sourceFile where
  accounts := fun _ _ => interpret_accounts h
  first := by
    have hhead := congrArg List.head? (interpret_locations h)
    rwa [List.head?_map] at hhead
  ordered := by
    rw [interpret_lines h, List.pairwise_cons]
    refine ⟨?_, Line.pairwise_numbers⟩
    intro number hnumber
    obtain ⟨m, _, _, _, rfl⟩ := Line.exists_of_mem_numbers hnumber
    omega
  skippedOrdered := by
    rw [interpret_skippedLines h]
    exact Line.pairwise_numbers
  runs := by
    intro run hrun
    obtain ⟨m, line, hline, hlocation, hcontent⟩ := interpret_run_place h hrun
    obtain ⟨piece, hpiece, hlt, hreturns, _⟩ := Text.exists_piece_of_getElem?_splitLines hline
    exact ⟨m, piece, hpiece, hlt, hlocation, hcontent.trans hreturns⟩
  openings := by
    intro paragraph hparagraph hpositive
    obtain ⟨m, line, command, hline, hlocation, hcommand, hends⟩ :=
      interpret_paragraph_place h hparagraph hpositive
    obtain ⟨piece, hpiece, hlt, _, hothers⟩ := Text.exists_piece_of_getElem?_splitLines hline
    obtain ⟨hmark, hread⟩ := Line.read_of_command? hcommand paragraph.location
    refine ⟨m, piece, command, hpiece, hlt, hlocation, hends, ?_⟩
    intro text htext
    rw [Line.read_of_dropLineEnd_eq hmark (hothers text htext), hread]
    rfl
  diagnostics := by
    intro diagnostic hdiagnostic
    obtain ⟨m, line, error, hline, hrefusal, rfl⟩ := interpret_diagnostic_place h hdiagnostic
    obtain ⟨piece, hpiece, hlt, _, hothers⟩ := Text.exists_piece_of_getElem?_splitLines hline
    obtain ⟨hnumber, hfile⟩ := Line.place_of_refusal? hrefusal
    obtain ⟨hmark, hread⟩ := Line.read_of_refusal? hrefusal
    refine ⟨m, piece, hpiece, hlt, hnumber, hfile, ?_⟩
    intro text htext
    refine ⟨{ error with lineText := some (String.ofList text) }, ?_, rfl, rfl⟩
    rw [Line.read_of_dropLineEnd_eq hmark (hothers text htext), hread]
    rfl

theorem interpretText_placed_of_returns
    : ∃ document,
        (interpretText { strict := .bool false } ".bold\r\nx\r\r\n.no\n.fill\r\n" (some "f")).result
            = .ok document
        ∧ document.mentions 1 = (0, 0, 0)
        ∧ document.mentions 2 = (1, 0, 0)
        ∧ document.mentions 3 = (0, 0, 1)
        ∧ document.mentions 4 = (0, 1, 0)
        ∧ document.Placed { strict := .bool false } ".bold\r\nx\r\r\n.no\n.fill\r\n" (some "f") := by
  obtain ⟨document, h, hmentions⟩ : ∃ document,
      (interpretText { strict := .bool false } ".bold\r\nx\r\r\n.no\n.fill\r\n" (some "f")).result
          = .ok document
      ∧ [1, 2, 3, 4].map document.mentions = [(0, 0, 0), (1, 0, 0), (0, 0, 1), (0, 1, 0)] :=
    ⟨_, rfl, rfl⟩
  simp only [List.map_cons, List.map_nil, List.cons.injEq] at hmentions
  obtain ⟨hbold, htext, hno, hfill, _⟩ := hmentions
  exact ⟨document, h, hbold, htext, hno, hfill, interpretText_placed h⟩

end DotFormat
