import DotFormat.Proofs.Refusals

/-!
This module contains how strict and lenient runs of the same input compare. Up to the first refusal
they do the same, and the error that ends the strict run is the one that the lenient run records first.
A lenient run takes every line or records why not, as long as no line has a number that is too long to
be read.
-/

namespace DotFormat

variable {config other : Config} {sourceFile : Option String}

/-! ### What strictness does not change -/

namespace Machine

theorem perform_congr (hpadding : config.fillPadding = other.fillPadding) (machine : Machine)
    (command : Command) (location : SourceLocation)
    : machine.perform config command location = machine.perform other command location := by
  cases command with
  | fill =>
    unfold perform
    rw [hpadding]
  | _ => rfl

theorem advance_congr (hpadding : config.fillPadding = other.fillPadding)
    (halias : config.acceptsAlias = other.acceptsAlias) (machine : Machine) (line : String)
    (location : SourceLocation)
    : machine.advance config line location = machine.advance other line location := by
  unfold advance process
  simp only [halias, perform_congr hpadding]

theorem paragraphs_congr (hpadding : config.fillPadding = other.fillPadding)
    (halias : config.acceptsAlias = other.acceptsAlias) (seen : Nat) (machine : Machine)
    (lines : List String)
    : paragraphs config sourceFile seen machine lines
        = paragraphs other sourceFile seen machine lines := by
  induction lines generalizing seen machine with
  | nil => rfl
  | cons line lines ih =>
    rw [paragraphs_cons, paragraphs_cons, advance_congr hpadding halias, ih]

end Machine

namespace Interpretation

theorem refusals_congr (halias : config.acceptsAlias = other.acceptsAlias) (seen : Nat)
    (lines : List String)
    : refusals config sourceFile seen lines = refusals other sourceFile seen lines := by
  induction lines generalizing seen with
  | nil => rfl
  | cons line lines ih =>
    unfold refusals Line.refusal?
    rw [ih, halias]

theorem documentOf_congr (hpadding : config.fillPadding = other.fillPadding)
    (halias : config.acceptsAlias = other.acceptsAlias) (lines : List String)
    (errors : List ParseError)
    : documentOf config sourceFile lines errors = documentOf other sourceFile lines errors := by
  unfold documentOf
  rw [Machine.paragraphs_congr hpadding halias]

end Interpretation

/-! ### Whole inputs -/

open Interpretation

theorem interpret_of_strict (hstrict : config.isStrict = true) (lines : List String)
    : (interpret config lines sourceFile).result
        =
      match refusals config sourceFile 0 lines with
      | [] => .ok (documentOf config sourceFile lines [])
      | refusal :: _ => .error refusal :=
  go_of_strict hstrict

theorem interpret_of_lenient (hlenient : config.isStrict = false) {lines : List String}
    {errors : List ParseError} (h : refusals config sourceFile 0 lines = errors.map .malformed)
    : (interpret config lines sourceFile).result = .ok (documentOf config sourceFile lines errors) :=
  go_of_lenient hlenient h

theorem interpret_of_lenient_of_tooLong (hlenient : config.isStrict = false) {lines : List String}
    (h : .tooLong ∈ refusals config sourceFile 0 lines)
    : (interpret config lines sourceFile).result = .error .tooLong :=
  go_of_lenient_of_tooLong hlenient h

theorem exists_errors_of_interpret (hlenient : config.isStrict = false) {lines : List String}
    {document : Document} (h : (interpret config lines sourceFile).result = .ok document)
    : ∃ errors : List ParseError, refusals config sourceFile 0 lines = errors.map .malformed
        ∧ document = documentOf config sourceFile lines errors := by
  by_cases hlong : .tooLong ∈ refusals config sourceFile 0 lines
  . rw [interpret_of_lenient_of_tooLong hlenient hlong] at h
    contradiction
  . obtain ⟨errors, herrors⟩ := Refusal.exists_map_malformed hlong
    rw [interpret_of_lenient hlenient herrors] at h
    injection h with h
    exact ⟨errors, herrors, h.symm⟩

theorem interpret_eq_ok_iff {lines : List String} {document : Document}
    : (interpret config lines sourceFile).result = .ok document
        ↔
      ∃ errors : List ParseError, refusals config sourceFile 0 lines = errors.map .malformed
        ∧ (config.isStrict = true → errors = [])
        ∧ document = documentOf config sourceFile lines errors := by
  constructor
  . intro h
    cases hstrict : config.isStrict with
    | true =>
      rw [interpret_of_strict hstrict] at h
      cases hrefusals : refusals config sourceFile 0 lines with
      | nil =>
        rw [hrefusals] at h
        injection h with h
        exact ⟨[], rfl, fun _ => rfl, h.symm⟩
      | cons refusal others =>
        rw [hrefusals] at h
        contradiction
    | false =>
      obtain ⟨errors, herrors, hdocument⟩ := exists_errors_of_interpret hstrict h
      refine ⟨errors, herrors, ?_, hdocument⟩
      intro h
      contradiction
  . rintro ⟨errors, herrors, hnil, rfl⟩
    cases hstrict : config.isStrict with
    | true =>
      obtain rfl := hnil hstrict
      rw [interpret_of_strict hstrict, herrors]
      rfl
    | false => exact interpret_of_lenient hstrict herrors

theorem Interpretation.head?_refusals_eq_tooLong_iff {seen : Nat} {lines : List String}
    : (refusals config sourceFile seen lines).head? = some .tooLong
        ↔
      ∃ before line behind, lines = before ++ line :: behind
        ∧ Line.Overlong line
        ∧ ∀ other ∈ before, Line.isRefused config other = false := by
  induction lines generalizing seen with
  | nil => simp [refusals]
  | cons first lines ih =>
    have hfirst := Line.isSome_refusal? config first (Machine.place sourceFile seen)
    unfold refusals
    cases hrefusal : Line.refusal? config first (Machine.place sourceFile seen) with
    | none =>
      rw [hrefusal] at hfirst
      rw [Option.toList_none, List.nil_append, ih]
      constructor
      . rintro ⟨before, line, behind, rfl, hline, hbefore⟩
        exact ⟨first :: before, line, behind, rfl, hline,
          List.forall_mem_cons.2 ⟨hfirst.symm, hbefore⟩⟩
      . rintro ⟨before, line, behind, hlines, hline, hbefore⟩
        cases before with
        | nil =>
          obtain ⟨rfl, _⟩ := List.cons.inj hlines
          rw [Line.refusal?_eq_tooLong_iff.2 hline] at hrefusal
          contradiction
        | cons other before =>
          obtain ⟨rfl, rfl⟩ := List.cons.inj hlines
          exact ⟨before, line, behind, rfl, hline, (List.forall_mem_cons.1 hbefore).2⟩
    | some refusal =>
      rw [hrefusal] at hfirst
      rw [Option.toList_some, List.cons_append, List.head?_cons, ← hrefusal,
        Line.refusal?_eq_tooLong_iff]
      constructor
      . intro hline
        exact ⟨[], first, lines, rfl, hline, by simp⟩
      . rintro ⟨before, line, behind, hlines, hline, hbefore⟩
        cases before with
        | nil =>
          obtain ⟨rfl, _⟩ := List.cons.inj hlines
          exact hline
        | cons other before =>
          obtain ⟨rfl, rfl⟩ := List.cons.inj hlines
          rw [(List.forall_mem_cons.1 hbefore).1] at hfirst
          contradiction

theorem interpret_eq_tooLong_iff {lines : List String}
    : (interpret config lines sourceFile).result = .error .tooLong
        ↔
      ∃ before line behind, lines = before ++ line :: behind
        ∧ Line.Overlong line
        ∧ (config.isStrict = true → ∀ other ∈ before, Line.isRefused config other = false) := by
  cases hstrict : config.isStrict with
  | true =>
    rw [interpret_of_strict hstrict]
    simp only [true_imp_iff]
    rw [← @head?_refusals_eq_tooLong_iff config sourceFile 0]
    cases refusals config sourceFile 0 lines with
    | nil => simp
    | cons refusal others => simp
  | false =>
    have hlong : (∃ line ∈ lines, Line.Overlong line)
        ↔ ∃ before line behind, lines = before ++ line :: behind ∧ Line.Overlong line
          ∧ (false = true → ∀ other ∈ before, Line.isRefused config other = false) := by
      constructor
      . rintro ⟨line, hline, hlong⟩
        obtain ⟨before, behind, hlines⟩ := List.append_of_mem hline
        exact ⟨before, line, behind, hlines, hlong, nofun⟩
      . rintro ⟨before, line, behind, rfl, hlong, _⟩
        exact ⟨line, by simp, hlong⟩
    rw [← hlong, ← @tooLong_mem_refusals_iff config sourceFile 0]
    constructor
    . intro h
      apply Classical.byContradiction
      intro hmem
      obtain ⟨errors, herrors⟩ := Refusal.exists_map_malformed hmem
      rw [interpret_of_lenient hstrict herrors] at h
      contradiction
    . exact interpret_of_lenient_of_tooLong hstrict

theorem interpret_strict_lenient {strict lenient : Config} (hstrict : strict.isStrict = true)
    (hlenient : lenient.isStrict = false) (hpadding : strict.fillPadding = lenient.fillPadding)
    (halias : strict.acceptsAlias = lenient.acceptsAlias) (lines : List String)
    (sourceFile : Option String)
    : (∀ document,
          (interpret strict lines sourceFile).result = .ok document
            →
          (interpret lenient lines sourceFile).result = .ok document ∧ document.diagnostics = [])
      ∧ (∀ document,
          (interpret lenient lines sourceFile).result = .ok document
            →
          document.diagnostics = []
            →
          (interpret strict lines sourceFile).result = .ok document)
      ∧ ∀ document diagnostic others,
          (interpret lenient lines sourceFile).result = .ok document
            →
          document.diagnostics = diagnostic :: others
            →
          ∃ error, (interpret strict lines sourceFile).result = .error (.malformed error)
            ∧ error.fault.kind = diagnostic.kind
            ∧ error.text = diagnostic.message
            ∧ error.line = diagnostic.line
            ∧ error.sourceFile = diagnostic.sourceFile := by
  rw [interpret_of_strict hstrict, refusals_congr halias, documentOf_congr hpadding halias]
  refine ⟨?_, ?_, ?_⟩
  . intro document h
    cases hrefusals : refusals lenient sourceFile 0 lines with
    | nil =>
      rw [hrefusals] at h
      injection h with h
      subst h
      exact ⟨interpret_of_lenient hlenient hrefusals, rfl⟩
    | cons refusal others =>
      rw [hrefusals] at h
      contradiction
  . intro document h hdiagnostics
    obtain ⟨errors, herrors, rfl⟩ := exists_errors_of_interpret hlenient h
    obtain rfl : errors = [] := List.map_eq_nil_iff.1 hdiagnostics
    rw [herrors]
    rfl
  . intro document diagnostic others h hdiagnostics
    obtain ⟨errors, herrors, rfl⟩ := exists_errors_of_interpret hlenient h
    obtain ⟨error, _, rfl, rfl, _⟩ := List.map_eq_cons_iff.1 hdiagnostics
    rw [herrors]
    exact ⟨error, rfl, rfl, rfl, rfl, rfl⟩

theorem interpret_strict_lenient_of_two_faults
    : ∃ document error,
        (interpret { strict := .bool false } [".fill", ".no", ".bold 1", "x"] (some "f")).result
            = .ok document
        ∧ document.diagnostics.length = 2
        ∧ (interpret {} [".fill", ".no", ".bold 1", "x"] (some "f")).result
            = .error (.malformed error)
        ∧ error.text = "f:2: unknown directive '.no'" := by
  obtain ⟨document, diagnostic, others, h, hdiagnostics, hothers, hmessage⟩ :
      ∃ document diagnostic others,
        (interpret { strict := .bool false } [".fill", ".no", ".bold 1", "x"] (some "f")).result
            = .ok document
        ∧ document.diagnostics = diagnostic :: others
        ∧ others.length = 1
        ∧ diagnostic.message = "f:2: unknown directive '.no'" := ⟨_, _, _, rfl, rfl, rfl, rfl⟩
  have hstrict : ({} : Config).isStrict = true := rfl
  have hlenient : ({ strict := .bool false } : Config).isStrict = false := rfl
  obtain ⟨error, herror, _, htext, _⟩ := (interpret_strict_lenient hstrict hlenient rfl rfl
    [".fill", ".no", ".bold 1", "x"] (some "f")).2.2 document diagnostic others h hdiagnostics
  refine ⟨document, error, h, ?_, herror, htext.trans hmessage⟩
  rw [hdiagnostics, List.length_cons, hothers]

theorem getElem?_of_refusals_eq {errors : List ParseError} {before : List String} {line : String}
    {behind : List String} {error : ParseError}
    (h : refusals config sourceFile 0 (before ++ line :: behind) = errors.map .malformed)
    (hline : Line.refusal? config line (Machine.place sourceFile before.length)
      = some (.malformed error))
    : errors[before.countP (Line.isRefused config)]? = some error := by
  have hrefusal : (refusals config sourceFile 0 (before ++ line :: behind))[
      before.countP (Line.isRefused config)]? = some (.malformed error) := by
    rw [refusals_append, ← length_refusals sourceFile 0,
      List.getElem?_append_right (Nat.le_refl _), Nat.sub_self, Nat.zero_add]
    unfold refusals
    rw [hline]
    rfl
  rw [h, List.getElem?_map, Option.map_eq_some_iff] at hrefusal
  obtain ⟨found, hfound, heq⟩ := hrefusal
  injection heq with heq
  rw [hfound, heq]

/--
A lenient run makes a document of an input exactly if no line has a number that is too long to be
read. Then each line that begins with a dot is carried out as a command, or changes nothing and is
recorded once.
-/
theorem interpret_lenient (hlenient : config.isStrict = false) (lines : List String)
    (sourceFile : Option String)
    : ((∃ document, (interpret config lines sourceFile).result = .ok document)
          ↔ ∀ line ∈ lines, ¬Line.Overlong line)
      ∧ ((∃ line ∈ lines, Line.Overlong line)
          → (interpret config lines sourceFile).result = .error .tooLong)
      ∧ ∀ document,
          (interpret config lines sourceFile).result = .ok document
            →
          document.paragraphs = Machine.paragraphs config sourceFile 0 (.start sourceFile) lines
          ∧ document.diagnostics.length = lines.countP (Line.isRefused config)
          ∧ ∀ (before : List String) (line : String) (behind : List String),
              lines = before ++ line :: behind
                →
              Line.isCommand line = true
                →
              (∃ command, Line.command? config line = some command
                ∧ ∀ machine : Machine,
                    machine.advance config line (Machine.place sourceFile before.length)
                      =
                    machine.perform config command (Machine.place sourceFile before.length))
              ∨ (∃ error,
                Line.refusal? config line (Machine.place sourceFile before.length)
                    = some (.malformed error)
                ∧ document.diagnostics[before.countP (Line.isRefused config)]?
                    = some (diagnostic error)
                ∧ ∀ machine : Machine,
                    machine.advance config line (Machine.place sourceFile before.length)
                      = { machine }) := by
  have hlong : (∃ line ∈ lines, Line.Overlong line)
      → (interpret config lines sourceFile).result = .error .tooLong := fun h =>
    interpret_of_lenient_of_tooLong hlenient (tooLong_mem_refusals_iff.2 h)
  refine ⟨⟨?_, ?_⟩, hlong, ?_⟩
  . rintro ⟨document, h⟩ line hline hoverlong
    rw [hlong ⟨line, hline, hoverlong⟩] at h
    contradiction
  . intro h
    have hshort : .tooLong ∉ refusals config sourceFile 0 lines := by
      rw [tooLong_mem_refusals_iff]
      rintro ⟨line, hline, hoverlong⟩
      exact h line hline hoverlong
    obtain ⟨errors, herrors⟩ := Refusal.exists_map_malformed hshort
    exact ⟨_, interpret_of_lenient hlenient herrors⟩
  . intro document h
    obtain ⟨errors, herrors, rfl⟩ := exists_errors_of_interpret hlenient h
    refine ⟨rfl, ?_, ?_⟩
    . rw [← length_refusals sourceFile 0, herrors]
      simp [documentOf, close]
    . intro before line behind hlines hline
      subst hlines
      cases hrefusal : Line.refusal? config line (Machine.place sourceFile before.length) with
      | none =>
        left
        obtain ⟨command, hcommand⟩ := Line.exists_command_of_accepted hline hrefusal
        exact ⟨command, hcommand, fun machine => Machine.advance_of_command hcommand machine _⟩
      | some refusal =>
        right
        cases refusal with
        | malformed error =>
          refine ⟨error, rfl, ?_, Machine.advance_of_refused hrefusal⟩
          simp only [documentOf, close, List.nil_append, List.getElem?_map]
          rw [getElem?_of_refusals_eq herrors hrefusal]
          rfl
        | tooLong =>
          rw [hlong ⟨line, by simp, Line.refusal?_eq_tooLong_iff.1 hrefusal⟩] at h
          contradiction

theorem interpret_lenient_of_unknown_directive
    : ∃ document,
        (interpret { strict := .bool false } [".fill", ".no", "x"]).result = .ok document
        ∧ document.diagnostics.length = 1
        ∧ ∀ line ∈ [".fill", ".no", "x"], ¬Line.Overlong line := by
  have hlenient : ({ strict := .bool false } : Config).isStrict = false := rfl
  obtain ⟨hiff, _, hdocument⟩ := interpret_lenient hlenient [".fill", ".no", "x"] none
  obtain ⟨document, h⟩ : ∃ document,
      (interpret { strict := .bool false } [".fill", ".no", "x"]).result = .ok document := ⟨_, rfl⟩
  exact ⟨document, h, (hdocument document h).2.1.trans rfl, hiff.1 ⟨document, h⟩⟩

theorem not_interpret_of_long_zero
    : ¬∃ document,
        (interpret { strict := .bool false }
          [String.ofList (".indent ".toList ++ List.replicate 4301 '0')]).result = .ok document := by
  rintro ⟨document, h⟩
  have hoverlong : Line.Overlong (String.ofList (".indent ".toList ++ List.replicate 4301 '0')) := by
    apply Line.overlong_indent
    . intro c hc
      rw [List.eq_of_mem_replicate hc]
      rfl
    . rw [List.length_replicate]
      decide
  rw [interpret_of_lenient_of_tooLong rfl
    (tooLong_mem_refusals_iff.2 ⟨_, List.mem_singleton_self _, hoverlong⟩)] at h
  contradiction

end DotFormat
