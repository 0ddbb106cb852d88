import DotFormat.Html.Page
import DotFormat.Proofs.Html.Escape
import DotFormat.Proofs.Json.Scalar
import DotFormat.Text.Pieces

/-!
This module contains what can be read off the markup of a document. Escaped text has no angle brackets,
so the elements around a span can be told from its text. The markup of a span stays on one line if its
text does, and only the last line of a block ends with the closing tag of the block.
-/

namespace DotFormat

theorem Text.append_ne_append {u v : List Char} (n : Nat) (hlength : (u.drop n).length = v.length)
    (h : u.drop n ≠ v) (x y : List Char) : x ++ u ≠ y ++ v := by
  rw [← List.take_append_drop n u, ← List.append_assoc]
  exact fun heq => h (List.append_inj_right' heq hlength)

namespace Html

/-! ### Elements around a text -/

/--
A text, in an element or on its own.
-/
def wrapped (on : Bool) (opening closing text : List Char) : List Char :=
  if on then opening ++ text ++ closing else text

section

variable {on : Bool} {opening closing text : List Char}

theorem not_mem_wrapped {c : Char} (hopening : c ∉ opening) (hclosing : c ∉ closing)
    (htext : c ∉ text) : c ∉ wrapped on opening closing text := by
  unfold wrapped
  split
  . simp [hopening, hclosing, htext]
  . exact htext

theorem not_prefix_wrapped {tag : List Char} (hopening : ∀ rest, ¬tag <+: opening ++ rest)
    (htext : ¬tag <+: text) : ¬tag <+: wrapped on opening closing text := by
  unfold wrapped
  split
  . rw [List.append_assoc]
    exact hopening _
  . exact htext

theorem wrapped_ne_append {tag : List Char} (hclosing : ∀ x y, x ++ closing ≠ y ++ tag)
    (htext : ∀ y, text ≠ y ++ tag) (y : List Char)
    : wrapped on opening closing text ≠ y ++ tag := by
  unfold wrapped
  split
  . exact hclosing _ y
  . exact htext y

theorem wrapped_inj {otherOn : Bool} {otherText : List Char} (htext : ¬opening <+: text)
    (hother : ¬opening <+: otherText)
    (h : wrapped on opening closing text = wrapped otherOn opening closing otherText)
    : on = otherOn ∧ text = otherText := by
  cases on with
  | false =>
    cases otherOn with
    | false => exact ⟨rfl, h⟩
    | true =>
      refine absurd ⟨otherText ++ closing, ?_⟩ htext
      rw [← List.append_assoc]
      exact h.symm
  | true =>
    cases otherOn with
    | false =>
      refine absurd ⟨text ++ closing, ?_⟩ hother
      rw [← List.append_assoc]
      exact h
    | true => exact ⟨rfl, List.append_cancel_left (List.append_cancel_right h)⟩

end

/-! ### Spans -/

namespace Span

def sizeTag : String :=
  "<span style=\"font-size: " ++ Text.numeral largeFontSize ++ "pt\">"

theorem toList_sizeTag : ∃ rest, sizeTag.toList = '<' :: 's' :: 'p' :: rest := by
  unfold sizeTag
  rw [String.toList_append, String.toList_append]
  exact ⟨_, rfl⟩

theorem toList_markup (span : Span)
    : span.markup.toList =
        wrapped span.large sizeTag.toList "</span>".toList
          (wrapped span.bold "<strong>".toList "</strong>".toList
            (wrapped span.italic "<em>".toList "</em>".toList (escape span.content).toList)) := by
  obtain ⟨content, bold, italic, large⟩ := span
  unfold markup wrapped sizeTag
  cases bold <;> cases italic <;> cases large <;> simp only [↓reduceIte, Bool.false_eq_true,
    String.toList_append]

theorem not_prefix_escape {tag : List Char} (h : '<' ∈ tag) (text : String)
    : ¬tag <+: (escape text).toList :=
  fun hbegins => not_mem_escape (by decide) text (hbegins.subset h)

-- The tags of the outer elements begin otherwise than those of the inner ones.
theorem markup_injective : Function.Injective markup := by
  intro span other h
  have h := congrArg String.toList h
  rw [toList_markup, toList_markup] at h
  have hemphasis (text : String) : ¬"<em>".toList <+: (escape text).toList :=
    not_prefix_escape (by decide) text
  have hstrong (italic : Bool) (text : String) : ¬"<strong>".toList <+:
      wrapped italic "<em>".toList "</em>".toList (escape text).toList :=
    not_prefix_wrapped (by simp) (not_prefix_escape (by decide) text)
  have hsize (bold italic : Bool) (text : String) : ¬sizeTag.toList <+:
      wrapped bold "<strong>".toList "</strong>".toList
        (wrapped italic "<em>".toList "</em>".toList (escape text).toList) := by
    obtain ⟨rest, hrest⟩ := toList_sizeTag
    rw [hrest]
    apply not_prefix_wrapped (by simp)
    apply not_prefix_wrapped (by simp)
    exact not_prefix_escape (by simp) text
  obtain ⟨hlarge, h⟩ := wrapped_inj (hsize _ _ _) (hsize _ _ _) h
  obtain ⟨hbold, h⟩ := wrapped_inj (hstrong _ _) (hstrong _ _) h
  obtain ⟨hitalic, h⟩ := wrapped_inj (hemphasis _) (hemphasis _) h
  have hcontent := escape_injective (String.toList_inj.1 h)
  obtain ⟨content, bold, italic, large⟩ := span
  obtain ⟨otherContent, otherBold, otherItalic, otherLarge⟩ := other
  simp_all

theorem lineFeed_not_mem_markup {span : Span} (h : '\n' ∉ span.content.toList)
    : '\n' ∉ span.markup.toList := by
  have hcontent : '\n' ∉ (escape span.content).toList := by
    intro hmem
    rcases mem_escape hmem with hmem | ⟨hmem, _⟩
    . revert hmem
      decide
    . exact h hmem
  rw [toList_markup]
  apply not_mem_wrapped (by decide) (by decide)
  apply not_mem_wrapped (by decide) (by decide)
  exact not_mem_wrapped (by decide) (by decide) hcontent

-- The last tag is never the closing tag of a block, whichever elements there are.
theorem markup_ne_append (span : Span) (line : List Char)
    : span.markup.toList ≠ line ++ "</p>".toList := by
  have hsize := Text.append_ne_append (u := "</span>".toList) (v := "</p>".toList) 3 rfl (by decide)
  have hstrong := Text.append_ne_append (u := "</strong>".toList) (v := "</p>".toList) 5 rfl (by decide)
  have hemphasis := Text.append_ne_append (u := "</em>".toList) (v := "</p>".toList) 1 rfl (by decide)
  rw [toList_markup]
  apply wrapped_ne_append hsize
  apply wrapped_ne_append hstrong
  apply wrapped_ne_append hemphasis
  intro line h
  have hmem : '>' ∈ (escape span.content).toList := by
    rw [h]
    simp
  exact not_mem_escape (by decide) _ hmem

/--
The lines of some spans, of which the last one is followed by the end of the block.
-/
def closedLines (spans : List Span) : List Char :=
  ['\n'].intercalate (spans.map fun span => span.markup.toList) ++ "</p>".toList

theorem closedLines_singleton (span : Span)
    : closedLines [span] = span.markup.toList ++ "</p>".toList := by
  simp [closedLines]

theorem closedLines_cons_cons (span next : Span) (spans : List Span) (rest : List Char)
    : closedLines (span :: next :: spans) ++ rest
        = span.markup.toList ++ '\n' :: (closedLines (next :: spans) ++ rest) := by
  simp [closedLines, List.intercalate_cons_cons]

-- The first lines are compared first; each of them is the last one or it is not.
theorem closedLines_inj {spans others : List Span} (hspans : spans ≠ []) (hothers : others ≠ [])
    (h : ∀ span ∈ spans, '\n' ∉ span.content.toList)
    (ho : ∀ span ∈ others, '\n' ∉ span.content.toList) {rest otherRest : List Char}
    (heq : closedLines spans ++ '\n' :: rest = closedLines others ++ '\n' :: otherRest)
    : spans = others ∧ rest = otherRest := by
  have hclosed : '\n' ∉ "</p>".toList := by
    decide
  have hlast {span : Span} (hspan : '\n' ∉ span.content.toList)
      : '\n' ∉ span.markup.toList ++ "</p>".toList := by
    simp only [List.mem_append, not_or]
    exact ⟨lineFeed_not_mem_markup hspan, hclosed⟩
  induction spans generalizing others with
  | nil => exact absurd rfl hspans
  | cons span spans ih =>
    obtain ⟨hspan, hrest⟩ := List.forall_mem_cons.1 h
    cases others with
    | nil => exact absurd rfl hothers
    | cons other others =>
      obtain ⟨hother, hotherRest⟩ := List.forall_mem_cons.1 ho
      cases spans with
      | nil =>
        rw [closedLines_singleton] at heq
        cases others with
        | nil =>
          rw [closedLines_singleton, Text.append_cons_inj (hlast hspan) (hlast hother)] at heq
          rw [markup_injective (String.toList_inj.1 (List.append_cancel_right heq.1)), heq.2]
          exact ⟨rfl, rfl⟩
        | cons next others =>
          rw [closedLines_cons_cons,
            Text.append_cons_inj (hlast hspan) (lineFeed_not_mem_markup hother)] at heq
          exact absurd heq.1.symm (markup_ne_append other _)
      | cons next spans =>
        rw [closedLines_cons_cons] at heq
        cases others with
        | nil =>
          rw [closedLines_singleton,
            Text.append_cons_inj (lineFeed_not_mem_markup hspan) (hlast hother)] at heq
          exact absurd heq.1 (markup_ne_append span _)
        | cons otherNext others =>
          rw [closedLines_cons_cons, Text.append_cons_inj (lineFeed_not_mem_markup hspan)
            (lineFeed_not_mem_markup hother)] at heq
          obtain ⟨hspans, hrest⟩ := ih (by simp) (by simp) hrest hotherRest heq.2
          rw [markup_injective (String.toList_inj.1 heq.1), hspans]
          exact ⟨rfl, hrest⟩

end Span

/--
Spans without anything to read: there is none, or one that is plain and empty.
-/
def IsBlank (spans : List Span) : Prop :=
  spans = [] ∨ spans = [{ content := "" }]

/-! ### Blocks -/

namespace Block

/--
A block whose padding is a number and whose texts stay on one line.
-/
structure Legible (block : Block) : Prop where
  padding : ∀ points ∈ block.padding, ∃ n : Int, points = Text.numeral n
  spans : ∀ span ∈ block.spans, '\n' ∉ span.content.toList

theorem Legible.not_mem_padding {block : Block} (h : block.Legible) {points : String}
    (hpoints : block.padding = some points) {c : Char} (hdigit : c.isDigit = false)
    (hsign : c ≠ '-') : c ∉ points.toList := by
  obtain ⟨n, rfl⟩ := h.padding points hpoints
  intro hmem
  rw [Json.isDigit_of_mem_numeral hmem hsign] at hdigit
  contradiction

/--
The alignment declaration after another one, and the end of the attribute.
-/
def styleEnd (justified : Bool) : List Char :=
  if justified then "; ".toList ++ ("text-align: justify".toList ++ ['"']) else ['"']

/--
The style attribute for a padding and an alignment.
-/
def styleText : Option String → Bool → List Char
  | none, justified =>
    if justified then " style=\"".toList ++ ("text-align: justify".toList ++ ['"']) else []
  | some points, justified =>
    " style=\"".toList
      ++ ("padding-left: ".toList ++ (points.toList ++ 'p' :: 't' :: styleEnd justified))

theorem toList_styleAttribute (block : Block)
    : block.styleAttribute.toList = styleText block.padding block.justified := by
  unfold styleAttribute declarations styleText styleEnd
  cases block.padding <;> cases block.justified <;>
    simp only [List.nil_append, List.append_nil, List.cons_append, List.isEmpty_nil,
      List.isEmpty_cons, ↓reduceIte, Bool.false_eq_true, String.intercalate_cons_cons,
      String.intercalate_singleton, String.toList_append, List.append_assoc]
  . rfl
  . rfl
  . rfl
  . rfl

theorem styleEnd_inj {justified other : Bool} (h : styleEnd justified = styleEnd other)
    : justified = other := by
  revert justified other
  decide

theorem styleText_none_inj {justified other : Bool}
    (h : styleText none justified = styleText none other) : justified = other := by
  unfold styleText at h
  cases justified <;> cases other <;> simp_all

theorem styleText_none_ne_some (justified other : Bool) (points : String)
    : styleText none justified ≠ styleText (some points) other := by
  unfold styleText
  cases justified with
  | false => simp
  | true =>
    simp only [↓reduceIte, ne_eq, List.append_right_inj]
    intro h
    have := congrArg List.head? h
    simp at this

-- A number has no letter in it, so it ends where its unit begins.
theorem styleText_some_inj {points otherPoints : String} {justified other : Bool}
    (hpoints : 'p' ∉ points.toList) (hother : 'p' ∉ otherPoints.toList)
    (h : styleText (some points) justified = styleText (some otherPoints) other)
    : points = otherPoints ∧ justified = other := by
  unfold styleText at h
  rw [List.append_right_inj, List.append_right_inj, Text.append_cons_inj hpoints hother,
    String.toList_inj] at h
  exact ⟨h.1, styleEnd_inj (List.cons.inj h.2).2⟩

theorem styleAttribute_inj {block other : Block} (hblock : block.Legible) (hother : other.Legible)
    (h : block.styleAttribute = other.styleAttribute)
    : block.padding = other.padding ∧ block.justified = other.justified := by
  rw [← String.toList_inj, toList_styleAttribute, toList_styleAttribute] at h
  cases hpadding : block.padding with
  | none =>
    rw [hpadding] at h
    cases hotherPadding : other.padding with
    | none =>
      rw [hotherPadding] at h
      exact ⟨rfl, styleText_none_inj h⟩
    | some points =>
      rw [hotherPadding] at h
      exact absurd h (styleText_none_ne_some _ _ points)
  | some points =>
    rw [hpadding] at h
    cases hotherPadding : other.padding with
    | none =>
      rw [hotherPadding] at h
      exact absurd h.symm (styleText_none_ne_some _ _ points)
    | some otherPoints =>
      rw [hotherPadding] at h
      rw [Option.some.injEq]
      exact styleText_some_inj (hblock.not_mem_padding hpadding rfl (by decide))
        (hother.not_mem_padding hotherPadding rfl (by decide)) h

theorem closing_not_mem_styleAttribute {block : Block} (h : block.Legible)
    : '>' ∉ block.styleAttribute.toList := by
  rw [toList_styleAttribute]
  cases hpadding : block.padding with
  | none =>
    unfold styleText
    cases block.justified with
    | false => exact List.not_mem_nil
    | true =>
      exact List.not_mem_append (by decide) (List.not_mem_append (by decide) (by decide))
  | some points =>
    have hpoints : '>' ∉ points.toList := h.not_mem_padding hpadding rfl (by decide)
    have hend : '>' ∉ styleEnd block.justified := by
      cases block.justified <;> decide
    apply List.not_mem_append (by decide)
    apply List.not_mem_append (by decide)
    apply List.not_mem_append hpoints
    exact List.not_mem_cons_of_ne_of_not_mem (by decide)
      (List.not_mem_cons_of_ne_of_not_mem (by decide) hend)

/--
Two blocks with the same markup: a single empty span cannot be told from no span.
-/
structure Alike (block other : Block) : Prop where
  padding : block.padding = other.padding
  justified : block.justified = other.justified
  spans : block.spans = other.spans ∨ (IsBlank block.spans ∧ IsBlank other.spans)

/--
The spans of a block, at least one of them.
-/
def visibleSpans (block : Block) : List Span :=
  if block.spans = [] then [{ content := "" }] else block.spans

theorem toList_markup (block : Block)
    : block.markup.toList
        = "<p".toList ++ (block.styleAttribute.toList
            ++ '>' :: (Span.closedLines block.visibleSpans ++ ['\n'])) := by
  have hlines : (String.intercalate "\n" (block.spans.map Span.markup)).toList
      = ['\n'].intercalate (block.visibleSpans.map fun span => span.markup.toList) := by
    unfold visibleSpans
    rw [String.toList_intercalate, List.map_map]
    split
    . next h =>
      rw [h]
      rfl
    . rfl
  unfold markup Span.closedLines
  rw [← hlines]
  simp only [String.toList_append, List.append_assoc]
  rfl

theorem visibleSpans_ne_nil (block : Block) : block.visibleSpans ≠ [] := by
  unfold visibleSpans
  split
  . simp
  . assumption

theorem Legible.lineFeed_not_mem_visibleSpans {block : Block} (h : block.Legible)
    : ∀ span ∈ block.visibleSpans, '\n' ∉ span.content.toList := by
  unfold visibleSpans
  split
  . simp
  . exact h.spans

theorem visibleSpans_eq_iff {block other : Block}
    : block.visibleSpans = other.visibleSpans
        ↔ block.spans = other.spans ∨ (IsBlank block.spans ∧ IsBlank other.spans) := by
  unfold visibleSpans IsBlank
  by_cases h : block.spans = []
  . by_cases ho : other.spans = []
    . simp [h, ho]
    . simp [h, ho, eq_comm]
  . by_cases ho : other.spans = []
    . simp [h, ho]
    . simp only [h, ho, ↓reduceIte, false_or, iff_self_or, and_imp]
      exact fun hspans hothers => hspans.trans hothers.symm

theorem markup_append_inj {block other : Block} (hblock : block.Legible) (hother : other.Legible)
    {rest otherRest : List Char}
    : block.markup.toList ++ rest = other.markup.toList ++ otherRest
        ↔ block.Alike other ∧ rest = otherRest := by
  have hmarkup (block : Block) (rest : List Char) : block.markup.toList ++ rest
      = "<p".toList ++ (block.styleAttribute.toList
          ++ '>' :: (Span.closedLines block.visibleSpans ++ '\n' :: rest)) := by
    simp [toList_markup]
  rw [hmarkup, hmarkup, List.append_right_inj,
    Text.append_cons_inj (closing_not_mem_styleAttribute hblock)
      (closing_not_mem_styleAttribute hother)]
  constructor
  . rintro ⟨hstyle, hlines⟩
    obtain ⟨hpadding, hjustified⟩ :=
      styleAttribute_inj hblock hother (String.toList_inj.1 hstyle)
    obtain ⟨hspans, hrest⟩ := Span.closedLines_inj block.visibleSpans_ne_nil
      other.visibleSpans_ne_nil hblock.lineFeed_not_mem_visibleSpans
      hother.lineFeed_not_mem_visibleSpans hlines
    exact ⟨⟨hpadding, hjustified, visibleSpans_eq_iff.1 hspans⟩, hrest⟩
  . rintro ⟨⟨hpadding, hjustified, hspans⟩, hrest⟩
    rw [toList_styleAttribute, toList_styleAttribute, hpadding, hjustified,
      visibleSpans_eq_iff.2 hspans, hrest]
    exact ⟨rfl, rfl⟩

end Block

/-! ### Bodies and pages -/

theorem toList_body (blocks : List Block)
    : (body blocks).toList = blocks.flatMap fun block => block.markup.toList := by
  simp [body, String.toList_join, List.flatMap_map]

/--
A body can be split into its blocks again.
-/
theorem body_inj {blocks others : List Block} (hblocks : ∀ block ∈ blocks, block.Legible)
    (hothers : ∀ block ∈ others, block.Legible)
    : body blocks = body others ↔ List.Forall₂ Block.Alike blocks others := by
  rw [← String.toList_inj, toList_body, toList_body]
  have hne (block : Block) (rest : List Char) : block.markup.toList ++ rest ≠ [] := by
    rw [Block.toList_markup]
    simp
  induction blocks generalizing others with
  | nil =>
    cases others with
    | nil => exact iff_of_true rfl .nil
    | cons other others =>
      rw [List.flatMap_cons]
      exact iff_of_false (hne other _).symm nofun
  | cons block blocks ih =>
    obtain ⟨hblock, hblocks⟩ := List.forall_mem_cons.1 hblocks
    cases others with
    | nil =>
      rw [List.flatMap_cons]
      exact iff_of_false (hne block _) nofun
    | cons other others =>
      obtain ⟨hother, hothers⟩ := List.forall_mem_cons.1 hothers
      rw [List.flatMap_cons, List.flatMap_cons, Block.markup_append_inj hblock hother,
        List.forall₂_cons]
      exact and_congr_right fun _ => ih hblocks hothers

theorem escape_append_inj {text other tag : String} {rest otherRest : List Char}
    (htag : ∃ name, tag.toList = '<' :: name)
    : (escape text).toList ++ (tag.toList ++ rest)
          = (escape other).toList ++ (tag.toList ++ otherRest)
        ↔ text = other ∧ rest = otherRest := by
  obtain ⟨name, hname⟩ := htag
  have hangle (text : String) : '<' ∉ (escape text).toList :=
    not_mem_escape (by decide) text
  rw [hname, List.cons_append, List.cons_append, Text.append_cons_inj (hangle text) (hangle other),
    String.toList_inj, escape_injective.eq_iff, List.append_right_inj]

theorem page_inj {title otherTitle text otherText : String}
    : page title text = page otherTitle otherText ↔ title = otherTitle ∧ text = otherText := by
  rw [← String.toList_inj]
  unfold page
  simp only [String.toList_append, List.append_assoc, List.append_right_inj]
  rw [escape_append_inj ⟨_, rfl⟩, List.append_right_inj, List.append_right_inj,
    List.append_left_inj, String.toList_inj]

end Html

end DotFormat
