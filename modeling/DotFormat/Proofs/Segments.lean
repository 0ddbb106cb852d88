import DotFormat.Proofs.Run

/-!
This module contains the division of a document into paragraphs. The commands that end a paragraph
divide the lines into segments, and each segment becomes one paragraph with the texts of its lines.
-/

namespace DotFormat

def Paragraph.texts (paragraph : Paragraph) : List String :=
  paragraph.runs.map (·.content)

namespace Line

@[simp]
theorem texts_cons_of_command {line : String} (h : isCommand line = true) (lines : List String)
    : texts (line :: lines) = texts lines := by
  simp [texts, h]

@[simp]
theorem texts_cons_of_text {line : String} (h : isCommand line = false) (lines : List String)
    : texts (line :: lines) = Text.dropLineEnd line :: texts lines := by
  simp [texts, h]

theorem isCommand_of_mem_texts {text : String} {lines : List String} (h : text ∈ texts lines)
    : isCommand text = false := by
  simp only [texts, List.mem_map, List.mem_filter] at h
  obtain ⟨line, ⟨_, hline⟩, rfl⟩ := h
  rw [isCommand_dropLineEnd]
  simpa using hline

end Line

variable {config : Config} {sourceFile : Option String}

namespace Machine

theorem texts_sealed (machine : Machine)
    : machine.paragraph.sealed.texts = machine.paragraph.runs.map (·.content) :=
  rfl

theorem length_emitted (seen : Nat) (machine : Machine) (lines : List String)
    : (emitted config sourceFile seen machine lines).length
        = lines.countP (Line.endsParagraph config) := by
  induction lines generalizing seen machine with
  | nil => rfl
  | cons line lines ih =>
    simp only [emitted, List.length_append]
    rw [ih, advance_emitted, List.countP_cons]
    split
    . simp only [Option.toList_some, List.length_singleton]
      omega
    . simp

theorem length_paragraphs (seen : Nat) (machine : Machine) (lines : List String)
    : (paragraphs config sourceFile seen machine lines).length
        = lines.countP (Line.endsParagraph config) + 1 := by
  unfold paragraphs
  rw [List.length_append, length_emitted]
  rfl

-- The open paragraph takes the texts of the first segment, so these stand behind its own.
theorem texts_paragraphs (seen : Nat) (machine : Machine) (lines : List String)
    : (paragraphs config sourceFile seen machine lines).map Paragraph.texts
        =
      ((lines.splitOnP (Line.endsParagraph config)).map Line.texts).modifyHead
        (machine.paragraph.sealed.texts ++ ·) := by
  induction lines generalizing seen machine with
  | nil => simp [paragraphs, emitted, after, finish, Line.texts]
  | cons line lines ih =>
    obtain ⟨first, rest, hsplit⟩ := List.exists_cons_of_ne_nil
      (List.splitOnP_ne_nil (Line.endsParagraph config) lines)
    rw [paragraphs_cons, List.map_append, ih, List.splitOnP_cons_eq_if_modifyHead, hsplit]
    rw [advance_emitted, texts_sealed, advance_paragraph]
    cases hends : Line.endsParagraph config line with
    | true => simp [OpenParagraph.runs_reopen, Line.texts, Paragraph.texts, OpenParagraph.sealed]
    | false =>
      cases hline : Line.isCommand line with
      | true => simp [hline, Paragraph.texts, OpenParagraph.sealed]
      | false => simp [hline, Paragraph.texts, OpenParagraph.sealed, TextRun.styled]

end Machine

theorem interpret_texts {lines : List String} {document : Document}
    (h : (interpret config lines sourceFile).result = .ok document)
    : document.paragraphs.map Paragraph.texts
        = (lines.splitOnP (Line.endsParagraph config)).map Line.texts := by
  rw [interpret_paragraphs h, Machine.texts_paragraphs]
  obtain ⟨first, rest, hsplit⟩ := List.exists_cons_of_ne_nil
    (List.splitOnP_ne_nil (Line.endsParagraph config) lines)
  rw [hsplit]
  rfl

theorem isCommand_of_mem_runs {lines : List String} {document : Document} {run : TextRun}
    (h : (interpret config lines sourceFile).result = .ok document) (hrun : run ∈ document.runs)
    : Line.isCommand run.content = false := by
  obtain ⟨paragraph, hparagraph, hrun⟩ := List.mem_flatMap.1 hrun
  have htexts : paragraph.texts ∈ document.paragraphs.map Paragraph.texts :=
    List.mem_map_of_mem hparagraph
  rw [interpret_texts h] at htexts
  obtain ⟨segment, _, hsegment⟩ := List.mem_map.1 htexts
  have hcontent : run.content ∈ Line.texts segment := by
    rw [hsegment]
    exact List.mem_map_of_mem hrun
  exact Line.isCommand_of_mem_texts hcontent

/--
The commands that end a paragraph divide the lines into segments, and each segment becomes a paragraph
with the texts of its lines, even if there are none.
-/
theorem interpret_segments {lines : List String} {document : Document}
    (h : (interpret config lines sourceFile).result = .ok document)
    : document.paragraphs.length = lines.countP (Line.endsParagraph config) + 1
      ∧ document.paragraphs.map Paragraph.texts
          = (lines.splitOnP (Line.endsParagraph config)).map Line.texts
      ∧ (∀ run ∈ document.runs, run.content.toList.head? ≠ some '.')
      ∧ ∀ (k : Nat) (segment : List String),
          (lines.splitOnP (Line.endsParagraph config))[k]? = some segment
            →
          (∀ line ∈ segment, Line.isCommand line = true)
            →
          ∃ paragraph, document.paragraphs[k]? = some paragraph ∧ paragraph.runs = [] := by
  have htexts := interpret_texts h
  refine ⟨?_, htexts, ?_, ?_⟩
  . rw [interpret_paragraphs h, Machine.length_paragraphs]
  . intro run hrun
    have hcontent := isCommand_of_mem_runs h hrun
    unfold Line.isCommand at hcontent
    exact of_decide_eq_false hcontent
  . intro k segment hk hsegment
    have hempty : Line.texts segment = [] := by
      simpa [Line.texts] using hsegment
    have hchild : (document.paragraphs.map Paragraph.texts)[k]? = some [] := by
      rw [htexts, List.getElem?_map, hk, Option.map_some, hempty]
    rw [List.getElem?_map, Option.map_eq_some_iff] at hchild
    obtain ⟨paragraph, hparagraph, hruns⟩ := hchild
    exact ⟨paragraph, hparagraph, List.map_eq_nil_iff.1 hruns⟩

theorem interpret_segments_of_empty_segment
    : ∃ document,
        (interpret { strict := .bool false }
          ["x\r\n", ".no", ".fill", ".bold", ".fill 1", ".indent 02", ""]).result = .ok document
        ∧ document.paragraphs.length = 3
        ∧ document.paragraphs.map Paragraph.texts = [["x"], [], [""]] := by
  obtain ⟨document, h⟩ : ∃ document,
      (interpret { strict := .bool false }
        ["x\r\n", ".no", ".fill", ".bold", ".fill 1", ".indent 02", ""]).result = .ok document :=
    ⟨_, rfl⟩
  obtain ⟨hlength, htexts, _⟩ := interpret_segments h
  exact ⟨document, h, hlength.trans rfl, htexts.trans rfl⟩

end DotFormat
