import DotFormat.Proofs.Contents
import DotFormat.Proofs.Html.Markup
import DotFormat.Renderer
import Mathlib.Data.List.Forall2

/-!
This module contains how much of a document its HTML tells. Two documents have the same HTML if and only
if their paragraphs have the same layouts and the same styled texts, one by one; only a paragraph with a
single empty run cannot be told from one without runs.
-/

namespace DotFormat

namespace Paragraph

def spans (paragraph : Paragraph) : List Html.Span :=
  paragraph.runs.map Html.Span.ofRun

/--
Two paragraphs with the same layout and the same styled texts. Nothing tells blank texts apart.
-/
structure ShownAlike (paragraph other : Paragraph) : Prop where
  indent : paragraph.indent.value = other.indent.value
  fill : paragraph.fill = other.fill
  spans : paragraph.spans = other.spans
    ∨ (Html.IsBlank paragraph.spans ∧ Html.IsBlank other.spans)

end Paragraph

namespace Html

theorem Block.padding_ofParagraph_inj {paragraph other : Paragraph}
    : (ofParagraph paragraph).padding = (ofParagraph other).padding
        ↔ paragraph.indent.value = other.indent.value := by
  have hpoints : Text.numeral (points paragraph) = Text.numeral (points other)
      ↔ paragraph.indent.value = other.indent.value := by
    rw [Json.numeral_injective.eq_iff]
    unfold points pointsPerIndentUnit
    omega
  unfold ofParagraph
  by_cases h : paragraph.indent.value = 0
  . by_cases ho : other.indent.value = 0
    . simp [h, ho]
    . simp [h, ho, Ne.symm ho]
  . by_cases ho : other.indent.value = 0
    . simp [h, ho]
    . simp [h, ho, hpoints]

theorem Block.alike_ofParagraph_iff {paragraph other : Paragraph}
    : (ofParagraph paragraph).Alike (ofParagraph other) ↔ paragraph.ShownAlike other := by
  constructor
  . rintro ⟨hpadding, hjustified, hspans⟩
    exact ⟨padding_ofParagraph_inj.1 hpadding, hjustified, hspans⟩
  . rintro ⟨hindent, hfill, hspans⟩
    exact ⟨padding_ofParagraph_inj.2 hindent, hfill, hspans⟩

theorem Block.legible_ofParagraph {paragraph : Paragraph}
    (h : ∀ run ∈ paragraph.runs, '\n' ∉ run.content.toList) : (ofParagraph paragraph).Legible where
  padding := by
    unfold ofParagraph
    split
    . simp
    . simp
  spans := by
    intro span hspan
    obtain ⟨run, hrun, rfl⟩ := List.mem_map.1 hspan
    exact h run hrun

theorem legible_of_mem_blocks {document : Document} (h : document.FreeOfLineFeeds)
    : ∀ block ∈ blocks document, block.Legible := by
  intro block hblock
  obtain ⟨paragraph, hparagraph, rfl⟩ := List.mem_map.1 hblock
  exact Block.legible_ofParagraph fun run hrun =>
    h run (List.mem_flatMap.2 ⟨paragraph, hparagraph, hrun⟩)

theorem body_blocks_inj {document other : Document} (hdocument : document.FreeOfLineFeeds)
    (hother : other.FreeOfLineFeeds)
    : body (blocks document) = body (blocks other)
        ↔ List.Forall₂ Paragraph.ShownAlike document.paragraphs other.paragraphs := by
  rw [body_inj (legible_of_mem_blocks hdocument) (legible_of_mem_blocks hother)]
  unfold blocks
  rw [List.forall₂_map_left_iff, List.forall₂_map_right_iff]
  simp only [Block.alike_ofParagraph_iff]

end Html

namespace Renderer

theorem text_eq_of_html {options : Html.Options} {document : Document} {rendering : Rendering}
    (h : html options document.toNode = .ok rendering)
    : rendering.text = Html.write options (Html.blocks document) := by
  unfold Document.toNode html at h
  simp only [Html.blocksOf_toNode] at h
  split at h
  . contradiction
  . next hblocks =>
    split at hblocks
    . cases hblocks
      cases h
      rfl
    . contradiction

/--
The HTML of a document tells its paragraphs, and a whole page tells its title, too. The condition on the
texts holds for every document that was read from a text.
-/
theorem html_faithful {document other : Document} (hdocument : document.FreeOfLineFeeds)
    (hother : other.FreeOfLineFeeds) (title otherTitle : String)
    : (∀ bare otherBare, html { standalone := false, title := title } document.toNode = .ok bare
          → html { standalone := false, title := otherTitle } other.toNode = .ok otherBare
          → (bare.text = otherBare.text
              ↔ List.Forall₂ Paragraph.ShownAlike document.paragraphs other.paragraphs))
      ∧ (∀ page otherPage, html { standalone := true, title := title } document.toNode = .ok page
          → html { standalone := true, title := otherTitle } other.toNode = .ok otherPage
          → (page.text = otherPage.text
              ↔ List.Forall₂ Paragraph.ShownAlike document.paragraphs other.paragraphs
                ∧ title = otherTitle))
      ∧ (∀ config source sourceFile (read : Document),
          (interpretText config source sourceFile).result = .ok read → read.FreeOfLineFeeds) := by
  refine ⟨?_, ?_, fun config source sourceFile read => interpretText_freeOfLineFeeds⟩
  . intro bare otherBare hbare hotherBare
    rw [text_eq_of_html hbare, text_eq_of_html hotherBare]
    exact Html.body_blocks_inj hdocument hother
  . intro page otherPage hpage hotherPage
    rw [text_eq_of_html hpage, text_eq_of_html hotherPage]
    simp only [Html.write, ↓reduceIte]
    rw [Html.page_inj, Html.body_blocks_inj hdocument hother, and_comm]

theorem html_faithful_of_empty_run :
    let first : Paragraph :=
      { runs := [{ content := "a<b", bold := true }], indent := .number 2, fill := true }
    let document : Document := { paragraphs := [first, {}] }
    let other : Document := { paragraphs := [first, { runs := [{ content := "" }] }] }
    document.FreeOfLineFeeds
      ∧ other.FreeOfLineFeeds
      ∧ ∃ bare otherBare page otherPage,
          html { standalone := false, title := "a" } document.toNode = .ok bare
            ∧ html { standalone := false, title := "b" } other.toNode = .ok otherBare
            ∧ html { standalone := true, title := "a" } document.toNode = .ok page
            ∧ html { standalone := true, title := "b" } other.toNode = .ok otherPage
            ∧ bare.text = otherBare.text
            ∧ page.text ≠ otherPage.text := by
  intro first document other
  have hdocument : document.FreeOfLineFeeds := by
    unfold Document.FreeOfLineFeeds
    decide
  have hother : other.FreeOfLineFeeds := by
    unfold Document.FreeOfLineFeeds
    decide
  have hparagraphs : List.Forall₂ Paragraph.ShownAlike document.paragraphs other.paragraphs :=
    .cons ⟨rfl, rfl, .inl rfl⟩ (.cons ⟨rfl, rfl, .inr ⟨.inl rfl, .inr rfl⟩⟩ .nil)
  obtain ⟨hbare, hpage, -⟩ := html_faithful hdocument hother "a" "b"
  refine ⟨hdocument, hother, _, _, _, _, rfl, rfl, rfl, rfl, ?_, ?_⟩
  . exact (hbare _ _ rfl rfl).2 hparagraphs
  . rw [ne_eq, hpage _ _ rfl rfl]
    exact fun h => absurd h.2 (by decide)

end Renderer

end DotFormat
