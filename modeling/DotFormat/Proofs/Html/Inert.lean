import DotFormat.Proofs.Html.Faithful
import DotFormat.Proofs.Html.Tags

/-!
This module contains what a text in a document can do to the markup around it, which is nothing. The
tags of a page follow from the layouts of the paragraphs and the styles of their runs.
-/

namespace DotFormat

/--
Two paragraphs with the same layout and with runs of the same styles, whatever these say.
-/
structure Paragraph.SameShape (paragraph other : Paragraph) : Prop where
  indent : paragraph.indent.value = other.indent.value
  fill : paragraph.fill = other.fill
  styles : paragraph.runs.map TextRun.style = other.runs.map TextRun.style

namespace Html

/-! ### Elements around a text -/

def wrappedTags (on : Bool) (opening closing : List Char) (inner : List (List Char))
    : List (List Char) :=
  if on then opening :: (inner ++ [closing]) else inner

section

variable {on : Bool} {opening closing : List Char} {inner : List (List Char)}

theorem Marked.wrapped {text : List Char} (hopening : Marked opening [opening])
    (hclosing : Marked closing [closing]) (h : Marked text inner)
    : Marked (wrapped on opening closing text) (wrappedTags on opening closing inner) := by
  unfold Html.wrapped wrappedTags
  split
  . exact (hopening.append h).append hclosing
  . exact h

theorem Nested.wrapped {name : List Char} (hopening : opened? opening = some name)
    (hclosing : closed? closing = some name) (h : Nested inner)
    : Nested (wrappedTags on opening closing inner) := by
  unfold wrappedTags
  split
  . exact .element hopening hclosing h .nil
  . exact h

end

/-! ### Spans -/

theorem Marked.escape (text : String) : Marked (escape text).toList [] :=
  .of_plain (not_mem_escape (by decide) text) (not_mem_escape (by decide) text)

/--
The tags of a run, by its style.
-/
def styleTags (style : Style) : List (List Char) :=
  wrappedTags style.large Span.sizeTag.toList "</span>".toList
    (wrappedTags style.bold "<strong>".toList "</strong>".toList
      (wrappedTags style.italic "<em>".toList "</em>".toList []))

theorem Span.marked_ofRun (run : TextRun)
    : Marked (ofRun run).markup.toList (styleTags run.style) := by
  rw [toList_markup]
  apply Marked.wrapped (by decide) (by decide)
  apply Marked.wrapped (by decide) (by decide)
  apply Marked.wrapped (by decide) (by decide)
  apply Marked.escape

theorem nested_styleTags (style : Style) : Nested (styleTags style) := by
  apply Nested.wrapped rfl rfl
  apply Nested.wrapped rfl rfl
  apply Nested.wrapped rfl rfl
  exact .nil

theorem opened_ne_of_mem_styleTags {style : Style} {tag : List Char} (h : tag ∈ styleTags style)
    : opened? tag ≠ some ['p'] := by
  revert tag
  obtain ⟨bold, italic, large⟩ := style
  cases bold <;> cases italic <;> cases large <;> decide

/-! ### Paragraphs -/

def paragraphTags (paragraph : Paragraph) : List (List Char) :=
  ("<p".toList ++ (Block.ofParagraph paragraph).styleAttribute.toList ++ ['>'])
    :: ((paragraph.runs.map TextRun.style).flatMap styleTags ++ ["</p>".toList])

theorem closing_not_mem_styleAttribute_ofParagraph (paragraph : Paragraph)
    : '>' ∉ (Block.ofParagraph paragraph).styleAttribute.toList := by
  -- The attribute is the one of the paragraph without its runs.
  have hlegible : (Block.ofParagraph { paragraph with runs := [] }).Legible :=
    Block.legible_ofParagraph (by simp)
  have hattribute := Block.closing_not_mem_styleAttribute hlegible
  rw [Block.toList_styleAttribute] at hattribute ⊢
  exact hattribute

theorem marked_markup (paragraph : Paragraph)
    : Marked (Block.ofParagraph paragraph).markup.toList (paragraphTags paragraph) := by
  have hname : '>' ∉ 'p' :: (Block.ofParagraph paragraph).styleAttribute.toList :=
    List.not_mem_cons_of_ne_of_not_mem (by decide)
      (closing_not_mem_styleAttribute_ofParagraph paragraph)
  have hopening := Marked.tag hname .nil
  have hruns : Marked (['\n'].intercalate
      (paragraph.runs.map fun run => (Span.ofRun run).markup.toList))
      ((paragraph.runs.map TextRun.style).flatMap styleTags) := by
    rw [List.flatMap_map]
    exact .intercalate (.of_plain (by decide) (by decide)) fun run _ => Span.marked_ofRun run
  have hclosing : Marked "</p>\n".toList ["</p>".toList] := by
    decide
  have hmarkup := (hopening.append hruns).append hclosing
  unfold Block.markup paragraphTags
  simp only [String.toList_append, String.toList_intercalate, Block.ofParagraph, List.map_map]
  exact hmarkup

theorem paragraphTags_congr {paragraph other : Paragraph} (h : paragraph.SameShape other)
    : paragraphTags paragraph = paragraphTags other := by
  have hstyle : (Block.ofParagraph paragraph).styleAttribute.toList
      = (Block.ofParagraph other).styleAttribute.toList := by
    rw [Block.toList_styleAttribute, Block.toList_styleAttribute,
      Block.padding_ofParagraph_inj.2 h.indent]
    exact congrArg _ h.fill
  unfold paragraphTags
  rw [hstyle, h.styles]

theorem isElement_paragraphTags (paragraph : Paragraph)
    : IsElement ['p'] (paragraphTags paragraph) := by
  apply IsElement.intro
  . rw [Block.toList_styleAttribute]
    unfold Block.styleText
    cases (Block.ofParagraph paragraph).padding <;>
      cases (Block.ofParagraph paragraph).justified <;> rfl
  . rfl
  . exact .flatMap fun style _ => nested_styleTags style
  . intro tag htag
    obtain ⟨style, _, hstyle⟩ := List.mem_flatMap.1 htag
    exact opened_ne_of_mem_styleTags hstyle

/-! ### Bodies and pages -/

def bodyTags (paragraphs : List Paragraph) : List (List Char) :=
  paragraphs.flatMap paragraphTags

/--
The tags in front of the body of a page.
-/
def pageHead : List (List Char) :=
  ["<!DOCTYPE html>", "<html lang=\"en\">", "<head>", "<meta charset=\"utf-8\" />",
    "<title>"].map String.toList
  ++ (["</title>", "<style>"].map String.toList
  ++ ["</style>", "</head>", "<body>"].map String.toList)

/--
The tags behind the body of a page.
-/
def pageFoot : List (List Char) :=
  ["</body>", "</html>"].map String.toList

/--
The tags of an output with the given ones in its body.
-/
def framed (standalone : Bool) (found : List (List Char)) : List (List Char) :=
  if standalone then pageHead ++ found ++ pageFoot else found

theorem marked_body (document : Document)
    : Marked (body (blocks document)).toList (bodyTags document.paragraphs) := by
  rw [toList_body]
  unfold blocks
  rw [List.flatMap_map]
  exact .flatMap fun paragraph _ => marked_markup paragraph

theorem bodyTags_congr {paragraphs others : List Paragraph}
    (h : List.Forall₂ Paragraph.SameShape paragraphs others)
    : bodyTags paragraphs = bodyTags others := by
  unfold bodyTags
  induction h with
  | nil => rfl
  | cons hparagraph _ ih =>
    rw [List.flatMap_cons, List.flatMap_cons, paragraphTags_congr hparagraph, ih]

theorem nested_bodyTags (paragraphs : List Paragraph) : Nested (bodyTags paragraphs) :=
  .flatMap fun paragraph _ => (isElement_paragraphTags paragraph).nested

theorem Marked.page {text : String} {found : List (List Char)} (title : String)
    (h : Marked text.toList found)
    : Marked (page title text).toList (pageHead ++ found ++ pageFoot) := by
  unfold Html.page pageHead
  simp only [String.toList_append, List.append_assoc]
  apply Marked.append (by decide)
  apply (Marked.escape title).plain_append
  apply Marked.append (by decide)
  apply Marked.plain_append (by decide)
  apply Marked.append (by decide)
  exact h.append (by decide)

theorem marked_write (options : Options) (document : Document)
    : Marked (write options (blocks document)).toList
        (framed options.standalone (bodyTags document.paragraphs)) := by
  unfold write framed
  split
  . exact (marked_body document).page options.title
  . exact marked_body document

end Html

namespace Renderer

theorem tags_of_html {options : Html.Options} {document : Document} {rendering : Rendering}
    (h : html options document.toNode = .ok rendering)
    : Html.tags rendering.text = Html.framed options.standalone (Html.bodyTags document.paragraphs)
      ∧ '<' ∉ Html.outside rendering.text
      ∧ '>' ∉ Html.outside rendering.text := by
  rw [text_eq_of_html h]
  exact Html.marked_iff.1 (Html.marked_write options document)

/--
No text in a document and no title can add a tag to the HTML, take one away or leave a bracket outside
of the tags. The body is a sequence of `p` elements, one for each paragraph.
-/
theorem html_texts_inert {document other : Document}
    (hshape : List.Forall₂ Paragraph.SameShape document.paragraphs other.paragraphs)
    {standalone : Bool} {title otherTitle : String} {rendering otherRendering : Rendering}
    (hrendering : html { standalone, title } document.toNode = .ok rendering)
    (hother : html { standalone, title := otherTitle } other.toNode = .ok otherRendering)
    : Html.tags rendering.text = Html.tags otherRendering.text
      ∧ ('<' ∉ Html.outside rendering.text ∧ '>' ∉ Html.outside rendering.text)
      ∧ ('<' ∉ Html.outside otherRendering.text ∧ '>' ∉ Html.outside otherRendering.text)
      ∧ ∃ elements : List (List (List Char)),
          Html.tags rendering.text = Html.framed standalone elements.flatten
            ∧ elements.length = document.paragraphs.length
            ∧ (∀ element ∈ elements, Html.IsElement ['p'] element)
            ∧ Html.Nested elements.flatten := by
  obtain ⟨htags, hplain⟩ := tags_of_html hrendering
  obtain ⟨hotherTags, hotherPlain⟩ := tags_of_html hother
  refine ⟨?_, hplain, hotherPlain, document.paragraphs.map Html.paragraphTags, ?_, ?_, ?_, ?_⟩
  . rw [htags, hotherTags, Html.bodyTags_congr hshape]
  . exact htags
  . apply List.length_map
  . intro element helement
    obtain ⟨paragraph, _, rfl⟩ := List.mem_map.1 helement
    exact Html.isElement_paragraphTags paragraph
  . exact Html.nested_bodyTags document.paragraphs

theorem html_texts_inert_of_markup :
    let document : Document :=
      { paragraphs :=
          [{ runs := [{ content := "</p><p>", bold := true }, {content := "\"" }], fill := true }] }
    let other : Document :=
      { paragraphs := [{ runs := [{ content := "", bold := true }, { content := "<" }], fill := true }] }
    ∃ page otherPage,
      html { title := "</title><script>" } document.toNode = .ok page
        ∧ html { title := "plain" } other.toNode = .ok otherPage
        ∧ page.text ≠ otherPage.text
        ∧ Html.tags page.text = Html.tags otherPage.text := by
  intro document other
  have hshape : List.Forall₂ Paragraph.SameShape document.paragraphs other.paragraphs :=
    .cons ⟨rfl, rfl, rfl⟩ .nil
  exact ⟨_, _, rfl, rfl, by decide, (html_texts_inert hshape rfl rfl).1⟩

end Renderer

end DotFormat
