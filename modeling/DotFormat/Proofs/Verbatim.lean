import DotFormat.Proofs.LineEnd
import Mathlib.Data.String.Basic

/-!
This module contains when the texts of a document are the lines that it was read from. All carriage
returns at the end of a text are taken off, and not just the one that belongs to the line ending, so a
line that ends in several of them is not kept as it is.
-/

namespace DotFormat

theorem Text.dropReturns_eq_self_iff {line : List Char}
    : dropReturns line = line ↔ line.getLast? ≠ some '\r' := by
  unfold dropReturns
  rw [dropEndWhile_eq_rdropWhile, List.rdropWhile_eq_self_iff]
  cases line.eq_nil_or_concat with
  | inl h => simp [h]
  | inr h =>
    obtain ⟨front, last, h⟩ := h
    simp [h]

/--
The lines that are no commands.
-/
def Line.plain (lines : List String) : List String :=
  lines.filter fun line => !isCommand line

variable {config : Config} {sourceFile : Option String}

theorem Line.texts_splitLines (source : String)
    : texts (Text.splitLines source)
        = (plain (Text.splitLines source)).map fun line =>
            String.ofList (Text.dropReturns line.toList) := by
  apply List.map_congr_left
  intro line hline
  have hfeed : '\n' ∉ line.toList := by
    apply Text.lineFeed_not_mem_of_mem_splitLines
    apply List.mem_of_mem_filter hline
  rw [← Text.dropLineEnd_eq_dropReturns hfeed, String.ofList_toList]

/--
The texts of a document are those of the lines without the carriage returns at their ends. They are the
lines themselves exactly if no line of text ends in a carriage return.
-/
theorem interpretText_contents {source : String} {document : Document}
    (h : (interpretText config source sourceFile).result = .ok document)
    : document.runs.map (·.content)
          = (Line.plain (Text.splitLines source)).map (fun line =>
              String.ofList (Text.dropReturns line.toList))
      ∧ (document.runs.map (·.content) = Line.plain (Text.splitLines source)
          ↔ ∀ line ∈ Line.plain (Text.splitLines source), line.toList.getLast? ≠ some '\r') := by
  rw [interpret_contents h, Line.texts_splitLines]
  refine ⟨rfl, ?_⟩
  conv =>
    lhs
    rhs
    rw [← List.map_id (Line.plain (Text.splitLines source))]
  rw [List.map_inj_left]
  apply forall₂_congr
  intro line _
  rw [← Text.dropReturns_eq_self_iff, id_eq, String.ofList_eq]

theorem interpretText_contents_of_two_returns
    : ∃ document,
        (interpretText { strict := .bool false } ".no\r\na\rb\r\r\n\r\n").result = .ok document
        ∧ document.runs.map (·.content) = ["a\rb", ""]
        ∧ document.runs.map (·.content) ≠ Line.plain (Text.splitLines ".no\r\na\rb\r\r\n\r\n") := by
  obtain ⟨document, h⟩ : ∃ document,
      (interpretText { strict := .bool false } ".no\r\na\rb\r\r\n\r\n").result = .ok document :=
    ⟨_, rfl⟩
  obtain ⟨hcontents, hiff⟩ := interpretText_contents h
  refine ⟨document, h, hcontents.trans rfl, ?_⟩
  rw [ne_eq, hiff]
  intro hlast
  have hreturn := hlast "a\rb\r" (by decide)
  contradiction

theorem not_interpretText_contents_of_two_returns
    : ¬∀ document, (interpretText {} "a\r\r\n").result = .ok document
        → document.runs.map (·.content) = Line.plain (Text.splitLines "a\r\r\n") := by
  intro h
  have hcontents := h _ rfl
  contradiction

end DotFormat
