import DotFormat.Proofs.Positions

/-!
This module contains how a run depends on the numbers of its lines. The numbers are handed on to the
places in the document and decide nothing, so a run over renumbered lines makes the renumbered document.
Lines that a lenient run refuses can be left out of the input beforehand.
-/

namespace DotFormat

/-! ### Renumbering -/

def SourceLocation.renumber (f : Int → Int) (location : SourceLocation) : SourceLocation :=
  { location with line := f location.line }

def TextRun.renumber (f : Int → Int) (run : TextRun) : TextRun :=
  { run with location := run.location.renumber f }

def Paragraph.renumber (f : Int → Int) (paragraph : Paragraph) : Paragraph :=
  { paragraph with
    runs := paragraph.runs.map (·.renumber f)
    location := paragraph.location.renumber f }

namespace OpenParagraph

def renumber (f : Int → Int) (paragraph : OpenParagraph) : OpenParagraph :=
  { paragraph with
    location := paragraph.location.renumber f
    latest := paragraph.latest.map (·.renumber f) }

theorem sealed_renumber (f : Int → Int) (paragraph : OpenParagraph)
    : (paragraph.renumber f).sealed = paragraph.sealed.renumber f := by
  simp [sealed, runs, renumber, Paragraph.renumber]

end OpenParagraph

variable {config : Config} {sourceFile : Option String}

attribute [ext] Machine

namespace Machine

def renumber (f : Int → Int) (machine : Machine) : Machine :=
  { machine with paragraph := machine.paragraph.renumber f }

@[simp]
theorem style_renumber (f : Int → Int) (machine : Machine)
    : (machine.renumber f).style = machine.style :=
  rfl

@[simp]
theorem layout_renumber (f : Int → Int) (machine : Machine)
    : (machine.renumber f).layout = machine.layout :=
  rfl

@[simp]
theorem paragraph_renumber (f : Int → Int) (machine : Machine)
    : (machine.renumber f).paragraph = machine.paragraph.renumber f :=
  rfl

theorem renumber_start {f : Int → Int} (h : f 0 = 0)
    : (start sourceFile).renumber f = start sourceFile := by
  simp [start, renumber, OpenParagraph.renumber, SourceLocation.renumber,
    SourceLocation.beforeFirst, h]

theorem place_renumber {f : Int → Int} {seen left : Nat}
    (h : f ((seen + 1 : Nat) : Int) = ((left + 1 : Nat) : Int))
    : (place sourceFile seen).renumber f = place sourceFile left := by
  unfold place SourceLocation.renumber
  rw [h]

theorem advance_renumber_paragraph (f : Int → Int) (machine : Machine) (line : String)
    (location : SourceLocation)
    : ((machine.renumber f).advance config line (location.renumber f)).machine.paragraph
        = (machine.advance config line location).machine.paragraph.renumber f := by
  rw [advance_paragraph, advance_paragraph, advance_layout, advance_layout, layout_renumber]
  cases Line.endsParagraph config line with
  | true => rfl
  | false =>
    cases Line.isCommand line with
    | true => rfl
    | false => rfl

theorem advance_renumber (f : Int → Int) (machine : Machine) (line : String)
    (location : SourceLocation)
    : ((machine.renumber f).advance config line (location.renumber f)).machine
        = (machine.advance config line location).machine.renumber f := by
  apply Machine.ext
  . rw [style_renumber, advance_style, advance_style, style_renumber]
  . rw [layout_renumber, advance_layout, advance_layout, layout_renumber]
  . rw [paragraph_renumber, advance_renumber_paragraph]

theorem advance_renumber_emitted (f : Int → Int) (machine : Machine) (line : String)
    (location : SourceLocation)
    : ((machine.renumber f).advance config line (location.renumber f)).emitted
        = (machine.advance config line location).emitted.map (Paragraph.renumber f) := by
  rw [advance_emitted, advance_emitted]
  cases Line.endsParagraph config line with
  | true => exact congrArg some (OpenParagraph.sealed_renumber ..)
  | false => rfl

/--
Refused lines can be left out if what remains is renumbered to follow without gaps.
-/
theorem paragraphs_filter {keep : String → Bool}
    (hkeep : ∀ line, keep line = false → Line.isRefused config line = true) {f : Int → Int}
    {seen left : Nat} {lines : List String}
    (hf : (Line.numbers keep lines seen).map f
      = Line.numbers (fun _ => true) (lines.filter keep) left)
    (machine : Machine)
    : paragraphs config sourceFile left (machine.renumber f) (lines.filter keep)
        = (paragraphs config sourceFile seen machine lines).map (Paragraph.renumber f) := by
  induction lines generalizing seen left machine with
  | nil => simp [paragraphs, emitted, after, finish, renumber, OpenParagraph.sealed_renumber]
  | cons line lines ih =>
    rw [Line.numbers_cons] at hf
    rw [paragraphs_cons, List.map_append]
    cases hline : keep line with
    | true =>
      rw [hline, List.filter_cons_of_pos hline, Line.numbers_cons] at hf
      obtain ⟨hnumber, hothers⟩ := List.cons.inj hf
      rw [List.filter_cons_of_pos hline, paragraphs_cons, ← place_renumber hnumber,
        advance_renumber_emitted, advance_renumber, ih hothers]
      cases (machine.advance config line (place sourceFile seen)).emitted with
      | none => rfl
      | some paragraph => rfl
    | false =>
      have hrefused := hkeep line hline
      rw [← Line.isSome_refusal? config line (place sourceFile seen), Option.isSome_iff_exists]
        at hrefused
      obtain ⟨refusal, hrefusal⟩ := hrefused
      have hnot : ¬keep line = true := by
        rw [hline]
        decide
      rw [if_neg hnot, List.filter_cons_of_neg hnot] at hf
      rw [List.filter_cons_of_neg hnot, advance_of_refused hrefusal, ih hf]
      rfl

end Machine

/-! ### Leaving lines out -/

namespace Line

variable {p : String → Bool} {lines : List String} {seen : Nat}

theorem lt_of_mem_numbers {number : Int} (h : number ∈ numbers p lines seen) : seen < number := by
  obtain ⟨index, hindex, rfl⟩ := List.mem_map.1 h
  have := List.ge_of_mem_findIdxs index hindex
  omega

/--
The number that a line gets when the lines with some numbers are left out.
-/
def numberWithout (omitted : List Int) (number : Int) : Int :=
  number - omitted.countP (· < number)

-- Of the lines to leave out, `skipped` ones stand above the lines that the induction has reached.
theorem map_numbers_sub (p : String → Bool) (lines : List String) {seen left skipped : Nat}
    (h : seen = left + skipped)
    : ((numbers (fun line => !p line) lines seen).map fun number =>
          number - ((numbers p lines seen).countP (· < number) + skipped : Nat))
        = numbers (fun _ => true) (lines.filter fun line => !p line) left := by
  induction lines generalizing seen left skipped with
  | nil => rfl
  | cons line lines ih =>
    rw [numbers_cons (p := p), numbers_cons]
    cases hline : p line with
    | true =>
      have hseen : seen + 1 = left + (skipped + 1) := by omega
      rw [List.filter_cons_of_neg (by simp [hline]), ← ih hseen]
      apply List.map_congr_left
      intro number hnumber
      have hlt := lt_of_mem_numbers hnumber
      rw [if_pos rfl, List.countP_cons, if_pos (decide_eq_true hlt)]
      omega
    | false =>
      have hseen : seen + 1 = left + 1 + skipped := by omega
      have hnone : (numbers p lines (seen + 1)).countP (· < ((seen + 1 : Nat) : Int)) = 0 := by
        rw [List.countP_eq_zero]
        intro number hnumber
        have hlt := lt_of_mem_numbers hnumber
        rw [decide_eq_true_iff]
        omega
      rw [List.filter_cons_of_pos (by simp [hline]), numbers_cons, ← ih hseen]
      simp only [Bool.not_false, Bool.false_eq_true, ↓reduceIte, List.map_cons, hnone,
        List.cons.injEq, and_true]
      omega

theorem map_numbers_not (p : String → Bool) (lines : List String)
    : (numbers (fun line => !p line) lines).map (numberWithout (numbers p lines))
        = numbers (fun _ => true) (lines.filter fun line => !p line) :=
  @map_numbers_sub p lines 0 0 0 rfl

theorem numberWithout_zero (p : String → Bool) (lines : List String)
    : numberWithout (numbers p lines) 0 = 0 := by
  unfold numberWithout
  rw [List.countP_eq_zero.2]
  . rfl
  . intro number hnumber
    have hlt := lt_of_mem_numbers hnumber
    rw [decide_eq_true_iff]
    omega

end Line

open Interpretation

/--
The malformed lines of an input can be left out. A strict run takes what remains, and makes the document
of a run that skipped them, with each line counted without the malformed lines above it.
-/
theorem interpret_filter_accepted {strict : Config} (hstrict : strict.isStrict = true)
    (hpadding : strict.fillPadding = config.fillPadding)
    (halias : strict.acceptsAlias = config.acceptsAlias) {lines : List String}
    {document : Document} (h : (interpret config lines sourceFile).result = .ok document)
    : (interpret strict (lines.filter fun line => !Line.isRefused config line) sourceFile).result
          =
        .ok {
          paragraphs := document.paragraphs.map
            (Paragraph.renumber (Line.numberWithout (Line.numbers (Line.isRefused config) lines)))
          sourceFile
          diagnostics := [] }
      ∧ document.diagnostics.map (·.line)
          = (Line.numbers (Line.isRefused config) lines).map some
      ∧ (Line.numbers (Line.isRefused config) lines).Pairwise (· < ·) := by
  refine ⟨?_, interpret_diagnostics_line h, Line.pairwise_numbers⟩
  have hkept : (lines.filter fun line => !Line.isRefused config line).countP
      (Line.isRefused config) = 0 := by
    rw [List.countP_eq_zero]
    intro line hline
    simpa using List.of_mem_filter hline
  have hrefusals : refusals config sourceFile 0
      (lines.filter fun line => !Line.isRefused config line) = [] := by
    rw [← List.length_eq_zero_iff, length_refusals, hkept]
  have hkeep : ∀ line, (!Line.isRefused config line) = false
      → Line.isRefused config line = true := by
    simp
  rw [interpret_of_strict hstrict, refusals_congr halias, hrefusals,
    documentOf_congr hpadding halias, interpret_paragraphs h, ← Machine.paragraphs_filter hkeep
      (Line.map_numbers_not (Line.isRefused config) lines),
    Machine.renumber_start (Line.numberWithout_zero ..)]
  rfl

theorem interpret_filter_accepted_of_two_faults
    : ∃ document clean,
        (interpret { strict := .bool false } [".no", "x", ".fill", ".bold 1", ".large", "y"]).result
            = .ok document
        ∧ document.diagnostics.map (·.line) = [some 1, some 4]
        ∧ (interpret {} ["x", ".fill", ".large", "y"]).result = .ok clean
        ∧ clean.paragraphs = document.paragraphs.map (Paragraph.renumber (Line.numberWithout [1, 4]))
        ∧ document.paragraphs.map Paragraph.lines = [[0, 2], [3, 6]]
        ∧ clean.paragraphs.map Paragraph.lines = [[0, 1], [2, 4]] := by
  obtain ⟨document, h, hlines, hrenumbered⟩ : ∃ document,
      (interpret { strict := .bool false } [".no", "x", ".fill", ".bold 1", ".large", "y"]).result
          = .ok document
      ∧ document.paragraphs.map Paragraph.lines = [[0, 2], [3, 6]]
      ∧ (document.paragraphs.map (Paragraph.renumber (Line.numberWithout [1, 4]))).map Paragraph.lines
          = [[0, 1], [2, 4]] := ⟨_, rfl, rfl, rfl⟩
  have hstrict : ({} : Config).isStrict = true := rfl
  have hpadding : ({} : Config).fillPadding = ({ strict := .bool false } : Config).fillPadding := rfl
  have halias : ({} : Config).acceptsAlias = ({ strict := .bool false } : Config).acceptsAlias := rfl
  obtain ⟨hclean, hdiagnostics, _⟩ := interpret_filter_accepted hstrict hpadding halias h
  exact ⟨document, _, h, hdiagnostics, hclean, rfl, hlines, hrenumbered⟩

end DotFormat
