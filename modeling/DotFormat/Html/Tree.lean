import DotFormat.Html.Page
import DotFormat.Node.Outline

/-!
This module contains what is shown of a node tree in HTML. For the tree of a document this is the same
as what is shown of the document.
-/

namespace DotFormat.Html

open Node (elements holds times)

def Span.ofNode : Node → Except ValueFault Span
  | .textRun content bold italic large _ =>
    match content with
    | .plain (.str content) => do
      let italic ← italic.holds
      let bold ← bold.holds
      let large ← large.holds
      return { content, bold, italic, large }
    | _ => .error .member
  | _ => .error .member

def paddingOf (indent : Node) : Except ValueFault (Option String) := do
  if ← indent.holds then
    let points ← indent.times pointsPerIndentUnit.toNat
    if points.toJson.hasShortNumerals then return some (← points.shown) else throw .tooLong
  else return none

def Block.ofNode : Node → Except ValueFault Block
  | .paragraph runs indent fill _ => do
    let padding ← paddingOf indent
    let justified ← fill.holds
    let runs ← runs.elements
    let spans ← runs.mapM Span.ofNode
    return { padding, justified, spans }
  | _ => .error .member

def blocksOf (paragraphs : Node) : Except ValueFault (List Block) := do
  (← paragraphs.elements).mapM Block.ofNode

/-! ### Trees of documents -/

theorem Span.ofNode_toNode (run : TextRun) : ofNode run.toNode = .ok (ofRun run) :=
  rfl

theorem Span.mapM_ofNode_toNode (runs : List TextRun) :
    (runs.map TextRun.toNode).mapM ofNode = .ok (runs.map ofRun) := by
  induction runs with
  | nil => rfl
  | cons run runs ih => simp [ofNode_toNode, ih, bind, Except.bind, pure, Except.pure]

/--
The padding of an amount is its points in digits, if there are not too many.
-/
theorem paddingOf_toJson (indent : Amount Int) :
    paddingOf (.plain indent.toJson) =
      if indent.value = 0 then .ok none
      else if Text.fitsNumeral (indent.value * pointsPerIndentUnit) then
        .ok (some (Text.numeral (indent.value * pointsPerIndentUnit)))
      else .error .tooLong := by
  cases indent with
  | flag b => cases b <;> rfl
  | number n =>
    by_cases h : n = 0
    · subst h
      rfl
    · by_cases hf : Text.fitsNumeral (n * 10) <;>
        simp [paddingOf, holds, times, Amount.toJson, Amount.value, Json.holds, Node.ofInt,
          Node.toJson, Json.hasShortNumerals, Node.shown, Json.shown, Json.quoted,
          pointsPerIndentUnit, h, hf, bind, Except.bind, pure, Except.pure, throw, throwThe,
          MonadExceptOf.throw]

theorem Block.ofNode_toNode (paragraph : Paragraph) :
    ofNode paragraph.toNode =
      if hasShortNumeral paragraph then .ok (ofParagraph paragraph) else .error .tooLong := by
  by_cases h : paragraph.indent.value = 0
  · simp [ofNode, Paragraph.toNode, paddingOf_toJson, holds, elements, Node.ofBool,
      Span.mapM_ofNode_toNode, hasShortNumeral, ofParagraph, h, bind, Except.bind, pure, Except.pure,
      -List.mapM_map]
  · by_cases hf : Text.fitsNumeral (points paragraph) <;>
      simp_all [ofNode, Paragraph.toNode, paddingOf_toJson, holds, elements, Node.ofBool,
        Span.mapM_ofNode_toNode, hasShortNumeral, ofParagraph, points, bind, Except.bind, pure,
        Except.pure, -List.mapM_map]

theorem Block.mapM_ofNode_toNode (paragraphs : List Paragraph) :
    (paragraphs.map Paragraph.toNode).mapM ofNode =
      if paragraphs.all hasShortNumeral then .ok (paragraphs.map ofParagraph)
      else .error .tooLong := by
  induction paragraphs with
  | nil => rfl
  | cons paragraph paragraphs ih =>
    by_cases h : hasShortNumeral paragraph <;>
      by_cases ht : paragraphs.all hasShortNumeral <;>
        simp_all [ofNode_toNode, bind, Except.bind, pure, Except.pure]

/--
The tree of a document has the blocks of the document.
-/
theorem blocksOf_toNode (document : Document) :
    blocksOf (.tuple (document.paragraphs.map Paragraph.toNode)) =
      if document.paragraphs.all hasShortNumeral then .ok (blocks document)
      else .error .tooLong :=
  Block.mapM_ofNode_toNode document.paragraphs

end DotFormat.Html
