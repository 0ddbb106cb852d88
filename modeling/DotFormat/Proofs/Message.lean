import DotFormat.Proofs.Grammar
import DotFormat.Proofs.Json.Scalar
import DotFormat.Proofs.Positions

/-!
This module contains how the message about a line begins. It names the place of the line in the form in
which places are shown, and what is wrong follows behind a colon.
-/

namespace DotFormat

theorem Text.toList_numeral_ne_nil (n : Int) : (numeral n).toList ≠ [] := by
  obtain ⟨sign, _, hnumeral, _⟩ := Json.numeral_eq n
  rw [hnumeral]
  exact List.append_ne_nil_of_right_ne_nil sign Nat.toDigits_ne_nil

namespace SourceLocation

theorem text_eq_append_numeral (location : SourceLocation)
    : ∃ file, location.text = file ++ Text.numeral location.line := by
  unfold text
  split
  . exact ⟨"", String.empty_append.symm⟩
  . exact ⟨"", String.empty_append.symm⟩
  . next file _ _ => exact ⟨file ++ ":", rfl⟩

-- A place ends with a digit, so no colon but the one behind it is taken off.
theorem dropEndWhile_colon_text (location : SourceLocation)
    : Text.dropEndWhile (· == ':') (location.text ++ ":").toList = location.text.toList := by
  obtain ⟨file, htext⟩ := location.text_eq_append_numeral
  have hend : ∀ c ∈ (file ++ Text.numeral location.line).toList.getLast?, (c == ':') = false := by
    intro c hc
    rw [String.toList_append, List.getLast?_append_of_ne_nil _ (Text.toList_numeral_ne_nil _)] at hc
    rw [beq_eq_false_iff_ne]
    rintro rfl
    have hdigit := Json.isDigit_of_mem_numeral (List.mem_of_getLast? hc) (by decide)
    contradiction
  rw [String.toList_append, htext]
  exact (Text.dropEndWhile_concat _ _ ':').trans (Text.dropEndWhile_eq_self hend)

end SourceLocation

namespace ParseError

theorem place_eq_text {error : ParseError} {line : Int} (h : error.line = some line)
    : error.place = SourceLocation.text { line, sourceFile := error.sourceFile } ++ ":" := by
  unfold place SourceLocation.text placeText
  rw [h]
  cases error.sourceFile with
  | none => simp
  | some file =>
    by_cases hfile : file = ""
    . subst hfile
      simp [Option.filter]
    . simp [Option.filter, hfile, String.append_assoc]

theorem text_eq_append_message {error : ParseError} {line : Int} (h : error.line = some line)
    : error.text
        =
      SourceLocation.text { line, sourceFile := error.sourceFile } ++ ": " ++ error.fault.message := by
  unfold text located
  rw [place_eq_text h, SourceLocation.dropEndWhile_colon_text, String.ofList_toList]
  simp

theorem text_of_read {line : String} {location : SourceLocation} {acceptAlias : Bool}
    {error : ParseError} (h : Line.read line location acceptAlias = .error (.malformed error))
    : error.text = location.text ++ ": " ++ error.fault.message := by
  obtain ⟨_, _, _, _, rfl⟩ := Line.read_eq_malformed_iff.1 h
  exact text_eq_append_message rfl

end ParseError

/--
What is said about a malformed line is its place, as places are shown, and what is wrong with it, and
every run that goes on behind the line records just that. So each message in the document begins with
the place that is recorded beside it.
-/
theorem message_located
    : (∀ (line : String) (location : SourceLocation) (acceptAlias : Bool) (error : ParseError),
          Line.read line location acceptAlias = .error (.malformed error)
            →
          error.text = location.text ++ ": " ++ error.fault.message)
      ∧ ∀ (config : Config) (lines : List String) (sourceFile : Option String) (document : Document),
          config.isStrict = false
            →
          (interpret config lines sourceFile).result = .ok document
            →
          (∀ before line behind error,
            lines = before ++ line :: behind
              →
            Line.read (Text.dropLineEnd line) { line := before.length + 1, sourceFile }
                config.acceptsAlias
              = .error (.malformed error)
              →
            ∃ diagnostic,
              document.diagnostics[before.countP (Line.isRefused config)]? = some diagnostic
              ∧ diagnostic.line = some (before.length + 1 : Int)
              ∧ diagnostic.sourceFile = sourceFile
              ∧ diagnostic.message = error.text)
          ∧ ∀ diagnostic ∈ document.diagnostics,
              ∃ number words,
                diagnostic.line = some number
                ∧ diagnostic.message
                    =
                  SourceLocation.text { line := number, sourceFile := diagnostic.sourceFile } ++ ": "
                    ++ words := by
  refine ⟨fun line location acceptAlias error => ParseError.text_of_read, ?_⟩
  intro config lines sourceFile document hlenient h
  constructor
  . rintro before line behind error rfl hread
    obtain ⟨errors, herrors, rfl⟩ := exists_errors_of_interpret hlenient h
    have hrefusal : Line.refusal? config line { line := before.length + 1, sourceFile }
        = some (.malformed error) := by
      unfold Line.refusal?
      rw [hread]
    obtain ⟨hnumber, hfile⟩ := Line.place_of_refusal? hrefusal
    refine ⟨Interpretation.diagnostic error, ?_, hnumber, hfile, rfl⟩
    simp only [Interpretation.documentOf, Interpretation.close, List.nil_append, List.getElem?_map]
    rw [getElem?_of_refusals_eq herrors hrefusal]
    rfl
  . intro diagnostic hdiagnostic
    obtain ⟨m, line, error, _, hrefusal, rfl⟩ := interpret_diagnostic_place h hdiagnostic
    obtain ⟨hnumber, _⟩ := Line.place_of_refusal? hrefusal
    exact ⟨_, error.fault.message, hnumber, ParseError.text_eq_append_message hnumber⟩

theorem message_located_of_colons
    : ∃ error document diagnostic,
        Line.read ".no" { line := 2, sourceFile := some "a::" } = .error (.malformed error)
        ∧ error.text = "a:::2: unknown directive '.no'"
        ∧ (interpret { strict := .bool false } ["x", ".no"] (some "a::")).result = .ok document
        ∧ document.diagnostics[0]? = some diagnostic
        ∧ diagnostic.message = "a:::2: unknown directive '.no'" := by
  obtain ⟨hplace, hrecorded⟩ := message_located
  obtain ⟨error, hread, hfault⟩ : ∃ error,
      Line.read ".no" { line := 2, sourceFile := some "a::" } = .error (.malformed error)
      ∧ error.fault = .unknownDirective "no" := ⟨_, rfl, rfl⟩
  have htext : error.text = "a:::2: unknown directive '.no'" := by
    rw [hplace _ _ _ _ hread, hfault]
    rfl
  obtain ⟨document, h⟩ : ∃ document,
      (interpret { strict := .bool false } ["x", ".no"] (some "a::")).result = .ok document :=
    ⟨_, rfl⟩
  obtain ⟨diagnostic, hdiagnostic, _, _, hmessage⟩ :=
    (hrecorded _ _ _ document rfl h).1 ["x"] ".no" [] error rfl hread
  exact ⟨error, document, diagnostic, hread, htext, h, hdiagnostic, hmessage.trans htext⟩

end DotFormat
