import DotFormat.Proofs.Message
import DotFormat.Proofs.Renumber
import DotFormat.Proofs.Writing
import Mathlib.Data.List.Forall2

/-!
This module contains what a run makes of an input that is put together from two. The lines that come
first are read as if they were the whole input, and what comes later only continues the last paragraph.
Behind `.regular` and `.paragraph` nothing is left of what came before, so the later lines are read as an
input of their own.
-/

namespace DotFormat

variable {config : Config} {sourceFile : Option String}

open Interpretation

/-! ### Lines that follow others -/

/--
What was read stays as it is when more lines follow: all paragraphs but the last are finished, and the
last one can only take more runs.
-/
theorem interpret_of_interpret_append {lines others : List String} {whole : Document}
    (h : (interpret config (lines ++ others) sourceFile).result = .ok whole)
    : ∃ part finished last continued later,
        (interpret config lines sourceFile).result = .ok part
        ∧ part.paragraphs = finished ++ [last]
        ∧ whole.paragraphs = finished ++ continued :: later
        ∧ continued.location = last.location
        ∧ continued.indent = last.indent
        ∧ continued.fill = last.fill
        ∧ last.runs <+: continued.runs
        ∧ part.diagnostics <+: whole.diagnostics := by
  obtain ⟨errors, herrors, hstrict, rfl⟩ := interpret_eq_ok_iff.1 h
  rw [refusals_append] at herrors
  obtain ⟨before, behind, rfl, hbefore, _⟩ := List.map_eq_append_iff.1 herrors.symm
  have hpart : (interpret config lines sourceFile).result
      = .ok (documentOf config sourceFile lines before) := by
    refine interpret_eq_ok_iff.2 ⟨before, hbefore.symm, ?_, rfl⟩
    intro h
    exact (List.append_eq_nil_iff.1 (hstrict h)).1
  have hwhole := interpret_paragraphs h
  obtain ⟨added, later, hlater⟩ := Machine.exists_paragraphs_eq_cons config sourceFile
    (0 + lines.length) (Machine.after config sourceFile 0 (.start sourceFile) lines) others
  rw [Machine.paragraphs_append, hlater] at hwhole
  refine ⟨_, _, _, _, later, hpart, rfl, hwhole, rfl, rfl, rfl, List.prefix_append .., ?_⟩
  simp [documentOf, close]

theorem interpret_of_interpret_append_of_open_paragraph
    : ∃ whole part finished last continued later,
        (interpret { strict := .bool false } ([".no", "x", ".fill", "y"] ++ ["z", ".nofill", ".no"])).result
            = .ok whole
        ∧ whole.paragraphs.map Paragraph.texts = [["x"], ["y", "z"], []]
        ∧ (interpret { strict := .bool false } [".no", "x", ".fill", "y"]).result = .ok part
        ∧ part.paragraphs = finished ++ [last]
        ∧ whole.paragraphs = finished ++ continued :: later
        ∧ continued.location = last.location
        ∧ last.runs <+: continued.runs
        ∧ part.diagnostics <+: whole.diagnostics := by
  obtain ⟨whole, h, htexts⟩ : ∃ whole,
      (interpret { strict := .bool false } ([".no", "x", ".fill", "y"] ++ ["z", ".nofill", ".no"])).result
          = .ok whole
      ∧ whole.paragraphs.map Paragraph.texts = [["x"], ["y", "z"], []] := ⟨_, rfl, rfl⟩
  obtain ⟨part, finished, last, continued, later, hpart, hlast, hwhole, hlocation, _, _, hruns,
    hdiagnostics⟩ := interpret_of_interpret_append h
  exact ⟨whole, part, finished, last, continued, later, h, htexts, hpart, hlast, hwhole, hlocation,
    hruns, hdiagnostics⟩

/-! ### Lines that follow a reset -/

theorem Line.numbers_add (p : String → Bool) (lines : List String) (seen offset : Nat)
    : (numbers p lines seen).map (· + (offset : Int)) = numbers p lines (seen + offset) := by
  induction lines generalizing seen with
  | nil => rfl
  | cons line lines ih =>
    rw [numbers_cons, numbers_cons, Nat.add_right_comm, ← ih]
    split
    . rfl
    . rfl

namespace Machine

theorem paragraphs_add (seen offset : Nat) (machine : Machine) (lines : List String)
    : paragraphs config sourceFile (seen + offset) (machine.renumber (· + (offset : Int))) lines
        =
      (paragraphs config sourceFile seen machine lines).map
        (Paragraph.renumber (· + (offset : Int))) := by
  have hkeep : ∀ line : String, true = false → Line.isRefused config line = true := by
    intro _ h
    contradiction
  have hnumbers : (Line.numbers (fun _ => true) lines seen).map (· + (offset : Int))
      = Line.numbers (fun _ => true) (lines.filter fun _ => true) (seen + offset) := by
    rw [List.filter_true, Line.numbers_add]
  rw [← paragraphs_filter hkeep hnumbers, List.filter_true]

theorem place_add (seen offset : Nat)
    : (place sourceFile seen).renumber (· + (offset : Int)) = place sourceFile (seen + offset) := by
  apply place_renumber
  omega

end Machine

theorem Line.command?_regular : command? config ".regular" = some .regular :=
  @command?_written config .regular nofun

theorem Line.command?_paragraph : command? config ".paragraph" = some .paragraph :=
  @command?_written config .paragraph nofun

namespace Machine

theorem after_reset (seen : Nat) (machine : Machine)
    : after config sourceFile seen machine [".regular", ".paragraph"]
        = (start sourceFile).renumber (· + ((seen + 2 : Nat) : Int)) := by
  have hplace : place sourceFile (seen + 1)
      = (SourceLocation.beforeFirst sourceFile).renumber (· + ((seen + 2 : Nat) : Int)) := by
    simp [place, SourceLocation.renumber, SourceLocation.beforeFirst, Nat.add_assoc]
  simp only [after, advance_of_command Line.command?_regular,
    advance_of_command Line.command?_paragraph, hplace]
  rfl

theorem emitted_reset (seen : Nat) (machine : Machine)
    : emitted config sourceFile seen machine [".regular", ".paragraph"] = [machine.finish] := by
  simp only [emitted, advance_of_command Line.command?_regular,
    advance_of_command Line.command?_paragraph]
  rfl

theorem paragraphs_append_reset (lines others : List String)
    : paragraphs config sourceFile 0 (start sourceFile)
          (lines ++ [".regular", ".paragraph"] ++ others)
        =
      paragraphs config sourceFile 0 (start sourceFile) lines
        ++ (paragraphs config sourceFile 0 (start sourceFile) others).map
          (Paragraph.renumber (· + ((lines.length + 2 : Nat) : Int))) := by
  rw [paragraphs_append, emitted_append, emitted_reset, after_append, after_reset,
    ← paragraphs_add, List.length_append, Nat.zero_add, Nat.zero_add, Nat.zero_add]
  rfl

end Machine

/-! ### Errors further down -/

def ParseError.renumber (f : Int → Int) (error : ParseError) : ParseError :=
  { error with line := error.line.map f }

theorem Line.refusal?_renumber (f : Int → Int) (line : String) (location : SourceLocation)
    : refusal? config line (location.renumber f)
        = (refusal? config line location).map (Refusal.map (ParseError.renumber f)) := by
  rw [refusal?_eq_map_fault?, refusal?_eq_map_fault?]
  cases fault? config line with
  | none => rfl
  | some refusal => cases refusal <;> rfl

theorem Interpretation.refusals_add (seen offset : Nat) (lines : List String)
    : refusals config sourceFile (seen + offset) lines
        =
      (refusals config sourceFile seen lines).map
        (Refusal.map (ParseError.renumber (· + (offset : Int)))) := by
  induction lines generalizing seen with
  | nil => rfl
  | cons line lines ih =>
    unfold refusals
    rw [List.map_append, ← ih, ← Machine.place_add, Line.refusal?_renumber, Nat.add_right_comm]
    cases Line.refusal? config line (Machine.place sourceFile seen) with
    | none => rfl
    | some refusal => rfl

theorem Interpretation.refusals_reset (seen : Nat)
    : refusals config sourceFile seen [".regular", ".paragraph"] = [] := by
  rw [← List.length_eq_zero_iff, length_refusals]
  simp [Line.isRefused, Line.command?_regular, Line.command?_paragraph]

/--
A record of the same fault further down: of its message, only the place at the beginning is another.
-/
def Diagnostic.Moved (offset : Nat) (diagnostic moved : Diagnostic) : Prop :=
  ∃ (line : Int) (text : String),
    diagnostic.line = some line
    ∧ moved.line = some (line + offset)
    ∧ moved.kind = diagnostic.kind
    ∧ moved.sourceFile = diagnostic.sourceFile
    ∧ diagnostic.message
        = SourceLocation.text { line, sourceFile := diagnostic.sourceFile } ++ ": " ++ text
    ∧ moved.message
        = SourceLocation.text { line := line + offset, sourceFile := moved.sourceFile } ++ ": " ++ text

theorem Diagnostic.moved_diagnostic {error : ParseError} {line : Int} (h : error.line = some line)
    (offset : Nat)
    : Moved offset (diagnostic error) (diagnostic (error.renumber (· + (offset : Int)))) := by
  have hmoved : (error.renumber (· + (offset : Int))).line = some (line + offset) := by
    unfold ParseError.renumber
    rw [h]
    rfl
  exact ⟨line, error.fault.message, h, hmoved, rfl, rfl, ParseError.text_eq_append_message h,
    ParseError.text_eq_append_message hmoved⟩

/--
Two inputs with a reset between them are read as two documents, one behind the other.
-/
theorem interpret_append_reset {lines others : List String} {first second : Document}
    (hfirst : (interpret config lines sourceFile).result = .ok first)
    (hsecond : (interpret config others sourceFile).result = .ok second)
    : ∃ whole moved,
        (interpret config (lines ++ [".regular", ".paragraph"] ++ others) sourceFile).result
            = .ok whole
        ∧ whole.paragraphs
            = first.paragraphs
              ++ second.paragraphs.map (Paragraph.renumber (· + ((lines.length + 2 : Nat) : Int)))
        ∧ whole.diagnostics = first.diagnostics ++ moved
        ∧ List.Forall₂ (Diagnostic.Moved (lines.length + 2)) second.diagnostics moved := by
  obtain ⟨before, hbefore, hstrictBefore, rfl⟩ := interpret_eq_ok_iff.1 hfirst
  obtain ⟨behind, hbehind, hstrictBehind, rfl⟩ := interpret_eq_ok_iff.1 hsecond
  let moved := behind.map (ParseError.renumber (· + ((lines.length + 2 : Nat) : Int)))
  have hrefusals : refusals config sourceFile 0 (lines ++ [".regular", ".paragraph"] ++ others)
      = (before ++ moved).map .malformed := by
    rw [refusals_append, refusals_append, refusals_reset, List.append_nil, List.length_append,
      refusals_add, hbefore, hbehind, List.map_append]
    simp [moved, Refusal.map]
  have hwhole : (interpret config (lines ++ [".regular", ".paragraph"] ++ others) sourceFile).result
      = .ok (documentOf config sourceFile (lines ++ [".regular", ".paragraph"] ++ others)
          (before ++ moved)) := by
    refine interpret_eq_ok_iff.2 ⟨_, hrefusals, ?_, rfl⟩
    intro hstrict
    simp [moved, hstrictBefore hstrict, hstrictBehind hstrict]
  refine ⟨_, moved.map diagnostic, hwhole, Machine.paragraphs_append_reset lines others, ?_, ?_⟩
  . simp [documentOf, close]
  . simp only [documentOf, close, moved, List.nil_append, List.forall₂_map_left_iff,
      List.forall₂_map_right_iff, List.forall₂_same]
    intro error herror
    have hline : error.line ∈ behind.map (·.line) := List.mem_map_of_mem herror
    rw [lines_of_refusals hbehind] at hline
    obtain ⟨number, _, hnumber⟩ := List.mem_map.1 hline
    exact Diagnostic.moved_diagnostic hnumber.symm (lines.length + 2)

theorem interpret_append_reset_of_faults
    : ∃ first second whole moved,
        (interpret { strict := .bool false } ["x", ".no", ".fill"] (some "f")).result = .ok first
        ∧ (interpret { strict := .bool false } [".large", ".fill 1", "y"] (some "f")).result
            = .ok second
        ∧ second.paragraphs.map Paragraph.lines = [[0, 3]]
        ∧ second.diagnostics.map (·.message)
            = ["f:2: invalid argument '1' for '.fill': takes no arguments"]
        ∧ (interpret { strict := .bool false }
              (["x", ".no", ".fill"] ++ [".regular", ".paragraph"] ++ [".large", ".fill 1", "y"])
              (some "f")).result = .ok whole
        ∧ whole.paragraphs = first.paragraphs ++ second.paragraphs.map (Paragraph.renumber (· + 5))
        ∧ whole.diagnostics = first.diagnostics ++ moved
        ∧ List.Forall₂ (Diagnostic.Moved 5) second.diagnostics moved := by
  obtain ⟨first, hfirst⟩ : ∃ first,
      (interpret { strict := .bool false } ["x", ".no", ".fill"] (some "f")).result = .ok first :=
    ⟨_, rfl⟩
  obtain ⟨second, hsecond, hlines, hmessages⟩ : ∃ second,
      (interpret { strict := .bool false } [".large", ".fill 1", "y"] (some "f")).result = .ok second
      ∧ second.paragraphs.map Paragraph.lines = [[0, 3]]
      ∧ second.diagnostics.map (·.message)
          = ["f:2: invalid argument '1' for '.fill': takes no arguments"] := ⟨_, rfl, rfl, rfl⟩
  obtain ⟨whole, moved, hwhole, hparagraphs, hdiagnostics, hmoved⟩ :=
    interpret_append_reset hfirst hsecond
  exact ⟨first, second, whole, moved, hfirst, hsecond, hlines, hmessages, hwhole, hparagraphs,
    hdiagnostics, hmoved⟩

end DotFormat
