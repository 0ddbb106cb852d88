import DotFormat.Proofs.Runs
import DotFormat.Proofs.Segments

/-!
This module contains which texts the runs of a document hold. They are the texts of the lines that are
no commands, and no line of a text that was divided into lines holds a line feed.
-/

namespace DotFormat

namespace Text

theorem mem_of_mem_dropEndWhile {p : α → Bool} {l : List α} {a : α} (h : a ∈ dropEndWhile p l)
    : a ∈ l := by
  induction l with
  | nil => exact h
  | cons b l ih =>
    unfold dropEndWhile at h
    split at h
    . split at h
      . contradiction
      . rw [List.mem_singleton.1 h]
        exact List.mem_cons_self
    . next c rest hrest =>
      rw [hrest] at ih
      rcases List.mem_cons.1 h with rfl | h
      . exact List.mem_cons_self
      . exact List.mem_cons_of_mem b (ih h)

theorem not_mem_of_mem_pieces {mark : Char} {text piece : List Char} (h : piece ∈ pieces mark text)
    : mark ∉ piece := by
  induction text generalizing piece with
  | nil =>
    rw [pieces, List.mem_singleton] at h
    subst h
    exact List.not_mem_nil
  | cons c text ih =>
    unfold pieces at h
    split at h
    . rcases List.mem_cons.1 h with rfl | h
      . exact List.not_mem_nil
      . exact ih h
    . next hc =>
      have hmark : mark ≠ c := by
        rintro rfl
        simp at hc
      split at h
      . rw [List.mem_singleton.1 h]
        simpa using hmark
      . next first rest hpieces =>
        rw [hpieces] at ih
        rcases List.mem_cons.1 h with rfl | h
        . rw [List.mem_cons, not_or]
          exact ⟨hmark, ih List.mem_cons_self⟩
        . exact ih (List.mem_cons_of_mem first h)

theorem lineFeed_not_mem_of_mem_splitLines {text line : String} (h : line ∈ splitLines text)
    : '\n' ∉ line.toList := by
  unfold splitLines at h
  obtain ⟨piece, hpiece, rfl⟩ := List.mem_map.1 h
  have hpieces : piece ∈ pieces '\n' text.toList := by
    unfold dropFinalEmpty at hpiece
    split at hpiece
    . exact (List.dropLast_sublist _).subset hpiece
    . exact hpiece
  rw [String.toList_ofList]
  unfold dropReturn
  split
  . intro hmem
    exact not_mem_of_mem_pieces hpieces ((List.dropLast_sublist _).subset hmem)
  . exact not_mem_of_mem_pieces hpieces

end Text

variable {config : Config} {sourceFile : Option String}

theorem Machine.map_content_textRuns (seen : Nat) (machine : Machine) (lines : List String)
    : (textRuns config sourceFile seen machine lines).map (·.content) = Line.texts lines := by
  induction lines generalizing seen machine with
  | nil => rfl
  | cons line lines ih =>
    unfold textRuns
    cases hline : Line.isCommand line with
    | true => simp [hline, ih]
    | false => simp [hline, ih, TextRun.styled]

theorem interpret_contents {lines : List String} {document : Document}
    (h : (interpret config lines sourceFile).result = .ok document)
    : document.runs.map (·.content) = Line.texts lines := by
  rw [interpret_runs h, Machine.map_content_textRuns]

/--
No run holds a line feed.
-/
def Document.FreeOfLineFeeds (document : Document) : Prop :=
  ∀ run ∈ document.runs, '\n' ∉ run.content.toList

theorem interpretText_freeOfLineFeeds {source : String} {document : Document}
    (h : (interpretText config source sourceFile).result = .ok document)
    : document.FreeOfLineFeeds := by
  intro run hrun
  have hcontent : run.content ∈ document.runs.map (·.content) := List.mem_map_of_mem hrun
  rw [interpret_contents h] at hcontent
  obtain ⟨line, hline, heq⟩ := List.mem_map.1 hcontent
  rw [← heq, Text.dropLineEnd, String.toList_ofList]
  intro hmem
  exact Text.lineFeed_not_mem_of_mem_splitLines (List.mem_filter.1 hline).1
    (Text.mem_of_mem_dropEndWhile hmem)

end DotFormat
