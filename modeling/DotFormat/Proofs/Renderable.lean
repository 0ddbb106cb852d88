import DotFormat.Proofs.Image
import DotFormat.Proofs.Node.Text
import Mathlib.Algebra.Group.Int.Defs

/-!
This module contains which documents have a rendering. A renderer fails only at a number with too many
digits. JSON has the numbers of a document as they are, but HTML has ten points for each unit of a
padding, so a padding with as many digits as a command can have is too long there.
-/

namespace DotFormat

/-! ### The numbers in a rendering -/

theorem Amount.hasShortNumerals_toJson (amount : Amount Int)
    : amount.toJson.hasShortNumerals = Text.fitsNumeral amount.value := by
  cases amount with
  | number n => rfl
  | flag b =>
    cases b with
    | true => rfl
    | false => rfl

namespace Node

theorem hasShortNumerals_ofOption_str (s : Option String)
    : (ofOption Json.str s).hasShortNumerals = true := by
  cases s with
  | none => rfl
  | some s => rfl

theorem hasShortNumerals_ofOption_int (n : Option Int)
    : (ofOption Json.int n).hasShortNumerals = n.toList.all Text.fitsNumeral := by
  cases n with
  | none => rfl
  | some n => exact (Bool.and_true _).symm

-- What each item tells of its numbers carries over to a tuple of them.
theorem hasShortNumerals_tuple {toNode : α → Node} {integers : α → List Int}
    (h : ∀ item, (toNode item).toJson.hasShortNumerals = (integers item).all Text.fitsNumeral)
    (items : List α)
    : (tuple (items.map toNode)).toJson.hasShortNumerals
        = (items.flatMap integers).all Text.fitsNumeral := by
  unfold toJson Json.hasShortNumerals
  rw [toJsons_eq_map, Json.haveShortNumerals_eq_all, List.all_map, List.all_map, List.all_flatMap]
  exact congrArg (items.all ·) (funext h)

end Node

theorem SourceLocation.hasShortNumerals_toNode (location : SourceLocation)
    : location.toNode.toJson.hasShortNumerals = Text.fitsNumeral location.line := by
  simp [toNode, Node.toJson, Json.hasShortNumerals, Json.membersHaveShortNumerals,
    Node.hasShortNumerals_ofOption_str]

theorem TextRun.hasShortNumerals_toNode (run : TextRun)
    : run.toNode.toJson.hasShortNumerals = [run.location.line].all Text.fitsNumeral := by
  simp [toNode, Node.toJson, Node.ofString, Node.ofBool, Json.hasShortNumerals,
    Json.membersHaveShortNumerals, SourceLocation.hasShortNumerals_toNode]

theorem Paragraph.hasShortNumerals_toNode (paragraph : Paragraph)
    : paragraph.toNode.toJson.hasShortNumerals = paragraph.integers.all Text.fitsNumeral := by
  unfold toNode Node.toJson Json.hasShortNumerals
  simp only [Json.membersHaveShortNumerals, Node.hasShortNumerals_tuple TextRun.hasShortNumerals_toNode]
  rw [SourceLocation.hasShortNumerals_toNode]
  unfold Node.toJson Node.ofBool
  rw [Amount.hasShortNumerals_toJson]
  unfold integers
  rw [List.all_cons, List.all_cons, List.map_eq_flatMap]
  simp only [Json.hasShortNumerals, Bool.true_and, Bool.and_true]
  rw [Bool.and_left_comm, Bool.and_comm (List.all _ _)]

theorem Diagnostic.hasShortNumerals_toNode (diagnostic : Diagnostic)
    : diagnostic.toNode.toJson.hasShortNumerals = diagnostic.line.toList.all Text.fitsNumeral := by
  simp [toNode, Node.toJson, Node.ofString, Json.hasShortNumerals, Json.membersHaveShortNumerals,
    Node.hasShortNumerals_ofOption_str, Node.hasShortNumerals_ofOption_int]

theorem Document.hasShortNumerals_toNode (document : Document)
    : document.toNode.toJson.hasShortNumerals = document.integers.all Text.fitsNumeral := by
  unfold toNode Node.toJson Json.hasShortNumerals
  simp only [Json.membersHaveShortNumerals,
    Node.hasShortNumerals_tuple Paragraph.hasShortNumerals_toNode,
    Node.hasShortNumerals_tuple Diagnostic.hasShortNumerals_toNode]
  unfold Node.toJson integers
  rw [Node.hasShortNumerals_ofOption_str, List.all_append, List.filterMap_eq_flatMap_toList]
  simp only [Json.hasShortNumerals, Bool.true_and, Bool.and_true]

theorem Html.hasShortNumeral_eq (paragraph : Paragraph)
    : hasShortNumeral paragraph = Text.fitsNumeral (points paragraph) := by
  unfold hasShortNumeral
  by_cases h : paragraph.indent.value = 0
  . have hpoints : points paragraph = 0 := by
      rw [points, h, Int.zero_mul]
    rw [h, hpoints]
    rfl
  . rw [beq_eq_false_iff_ne.2 h, Bool.false_or]

namespace Renderer

theorem html_toNode (options : Html.Options) (document : Document)
    : html options document.toNode =
        if (document.paragraphs.map Html.points).all Text.fitsNumeral then
          .ok {
            text := Html.write options (Html.blocks document)
            log := [Html.renderRecord document.paragraphs.length] }
        else .error (.value .tooLong) := by
  have hshort : document.paragraphs.all Html.hasShortNumeral
      = (document.paragraphs.map Html.points).all Text.fitsNumeral := by
    rw [List.all_map]
    exact congrArg _ (funext Html.hasShortNumeral_eq)
  unfold html Document.toNode
  simp only [Html.blocksOf_toNode, hshort]
  cases (document.paragraphs.map Html.points).all Text.fitsNumeral with
  | true => simp [Html.blocks]
  | false => rfl

theorem json_toNode (indentation : Json.Indentation) (document : Document)
    : json indentation document.toNode =
        if document.integers.all Text.fitsNumeral then
          .ok { text := String.ofList (Json.write indentation 1 document.toNode.toJson.sorted) ++ "\n" }
        else .error (.value .tooLong) := by
  unfold json Node.toText Json.print
  rw [Document.hasShortNumerals_toNode]
  cases document.integers.all Text.fitsNumeral with
  | true => rfl
  | false => rfl

-- Both forms fail in this way only, so what is said of one is said of the other.
theorem of_eq_ite_all {numbers : List Int} {rendering : Rendering}
    {result : Except RenderError Rendering}
    (h : result
      = if numbers.all Text.fitsNumeral then .ok rendering else .error (.value .tooLong))
    : ((∃ found, result = .ok found) ↔ ∀ n ∈ numbers, Text.fitsNumeral n = true)
      ∧ ∀ e, result = .error e ↔ e = .value .tooLong ∧ ∃ n ∈ numbers, Text.fitsNumeral n = false := by
  rw [← List.all_eq_true, h]
  cases hall : numbers.all Text.fitsNumeral with
  | true =>
    refine ⟨by simp, ?_⟩
    rintro e
    rw [List.all_eq_true] at hall
    simp only [if_true, reduceCtorEq, false_iff, not_and, not_exists]
    rintro _ n hn hfits
    rw [hall n hn] at hfits
    contradiction
  | false =>
    obtain ⟨n, hn, hfits⟩ := List.all_eq_false.1 hall
    rw [Bool.not_eq_true] at hfits
    refine ⟨by simp, ?_⟩
    intro e
    constructor
    . rintro ⟨⟩
      exact ⟨rfl, n, hn, hfits⟩
    . rintro ⟨rfl, _⟩
      rfl

end Renderer

/-! ### The numbers of a document -/

theorem Text.lt_ten_pow {n k : Nat} (hn : n < 10) (hk : k ≠ 0) : n < 10 ^ k :=
  Nat.lt_of_lt_of_le hn (Nat.le_self_pow hk 10)

theorem Text.fitsNumeral_of_le {n : Int} {bound : Nat} (hnonneg : 0 ≤ n) (hle : n ≤ bound)
    (hbound : bound < 10 ^ digitLimit) : fitsNumeral n = true := by
  rw [fitsNumeral_iff]
  apply Nat.lt_of_le_of_lt _ hbound
  omega

theorem Paragraph.Attainable.fitsNumeral_indent {padding : Amount Int} {paragraphs : List Paragraph}
    (h : Attainable padding paragraphs) (hnonneg : 0 ≤ padding.value)
    (hpadding : Text.fitsNumeral padding.value = true)
    : ∀ paragraph ∈ paragraphs,
        0 ≤ paragraph.indent.value ∧ Text.fitsNumeral paragraph.indent.value = true := by
  obtain ⟨first, hfirst, hindent, _⟩ := h.first
  apply h.layouts.induction
  . rintro previous next (⟨hnext, _⟩ | ⟨hnext, _⟩ | ⟨hnext, _⟩ | ⟨hunits, hnext, _⟩) hprevious
    . rw [hnext]
      exact ⟨Int.le_refl 0, rfl⟩
    . rw [hnext]
      exact ⟨hnonneg, hpadding⟩
    . rwa [hnext]
    . rw [hnext]
      exact ⟨Int.natCast_nonneg _, Text.fitsNumeral_iff.2 hunits⟩
  . intro hne
    rw [List.head_eq_iff_head?_eq_some hne |>.2 hfirst, hindent]
    exact ⟨Int.le_refl 0, rfl⟩

namespace Html

theorem fitsNumeral_points_iff {paragraph : Paragraph} (h : 0 ≤ paragraph.indent.value)
    : Text.fitsNumeral (points paragraph) = true
        ↔ paragraph.indent.value < 10 ^ (Text.digitLimit - 1) := by
  obtain ⟨units, hunits⟩ := Int.eq_ofNat_of_zero_le h
  have hpow : 10 ^ Text.digitLimit = 10 ^ (Text.digitLimit - 1) * 10 := by
    rw [← Nat.pow_succ, Nat.succ_eq_add_one, Nat.sub_add_cancel Text.digitLimit_pos]
  have hten : Int.natAbs 10 = 10 := rfl
  have hlt : units < 10 ^ (Text.digitLimit - 1)
      ↔ (units : Int) < 10 ^ (Text.digitLimit - 1) := by
    rw [← Int.ofNat_lt, Int.natCast_pow]
    rfl
  unfold points pointsPerIndentUnit
  rw [Text.fitsNumeral_iff, hunits, Int.natAbs_mul, hpow, hten, Nat.mul_lt_mul_right]
  . exact hlt
  . omega

theorem not_fitsNumeral_points_iff {paragraph : Paragraph} (h : 0 ≤ paragraph.indent.value)
    : Text.fitsNumeral (points paragraph) = false
        ↔ 10 ^ (Text.digitLimit - 1) ≤ paragraph.indent.value := by
  rw [← Bool.not_eq_true, fitsNumeral_points_iff h, Int.not_lt]

end Html

variable {config : Config} {sourceFile : Option String} {lines : List String} {document : Document}

theorem Line.bounds_of_mem_numbers {p : String → Bool} {number : Int} (h : number ∈ numbers p lines)
    : 0 ≤ number ∧ number ≤ lines.length := by
  obtain ⟨m, line, hline, _, rfl⟩ := exists_of_mem_numbers h
  obtain ⟨hlt, _⟩ := List.getElem?_eq_some_iff.1 hline
  omega

/--
The numbers of the lines in a document go up to the number of lines that were read.
-/
theorem bounds_of_interpret (h : (interpret config lines sourceFile).result = .ok document)
    {n : Int} (hn : n ∈ document.integers)
    : (0 ≤ n ∧ n ≤ lines.length) ∨ ∃ paragraph ∈ document.paragraphs, n = paragraph.indent.value := by
  have hlines : ∀ number ∈ document.paragraphs.flatMap Paragraph.lines,
      0 ≤ number ∧ number ≤ lines.length := by
    intro number hnumber
    rw [interpret_lines h] at hnumber
    rcases List.mem_cons.1 hnumber with rfl | hnumber
    . omega
    . exact Line.bounds_of_mem_numbers hnumber
  unfold Document.integers at hn
  rcases List.mem_append.1 hn with hn | hn
  . obtain ⟨paragraph, hparagraph, hn⟩ := List.mem_flatMap.1 hn
    rcases List.mem_cons.1 hn with rfl | hn
    . exact .inr ⟨paragraph, hparagraph, rfl⟩
    . exact .inl (hlines n (List.mem_flatMap.2 ⟨paragraph, hparagraph, hn⟩))
  . have hskipped : n ∈ document.skippedLines := hn
    rw [interpret_skippedLines h] at hskipped
    exact .inl (Line.bounds_of_mem_numbers hskipped)

section

variable {source : String} (hpadding : Text.fitsNumeral config.fillPadding.ofNat.value = true)
  (h : (interpretText config source sourceFile).result = .ok document)

include hpadding h

theorem interpretText_fitsNumeral_indent : ∀ paragraph ∈ document.paragraphs,
    0 ≤ paragraph.indent.value ∧ Text.fitsNumeral paragraph.indent.value = true := by
  apply (interpretText_attainable h).fitsNumeral_indent _ hpadding
  cases config.fillPadding with
  | number n => exact Int.natCast_nonneg n
  | flag b => exact Int.natCast_nonneg b.toNat

theorem interpretText_fitsNumeral (hlines : (Text.splitLines source).length < 10 ^ Text.digitLimit)
    : ∀ n ∈ document.integers, Text.fitsNumeral n = true := by
  intro n hn
  rcases bounds_of_interpret h hn with ⟨hnonneg, hle⟩ | ⟨paragraph, hparagraph, rfl⟩
  . exact Text.fitsNumeral_of_le hnonneg hle hlines
  . exact (interpretText_fitsNumeral_indent hpadding h paragraph hparagraph).2

end

/-! ### Documents with a rendering -/

namespace Json.Indentation

variable {indent : Option Int}

theorem ofJson_eq_tooWide_iff
    : ofJson (Node.ofOption Json.int indent) = .error .tooWide
        ↔ ∃ n ∈ indent, n < -widthLimit ∨ widthLimit ≤ n := by
  cases indent with
  | none => simp [Node.ofOption, ofJson]
  | some n =>
    simp only [Node.ofOption, ofJson, Bool.or_eq_true, decide_eq_true_eq, Option.mem_some_iff,
      exists_eq_left']
    split
    . next hwide => exact iff_of_true rfl hwide
    . next hwide => exact iff_of_false (by simp) hwide

theorem exists_ofJson_iff
    : (∃ indentation, ofJson (Node.ofOption Json.int indent) = .ok indentation)
        ↔ ∀ n ∈ indent, -widthLimit ≤ n ∧ n < widthLimit := by
  constructor
  . rintro ⟨indentation, hindentation⟩ n hn
    apply Classical.byContradiction
    intro hrange
    have hwide : ofJson (Node.ofOption Json.int indent) = .error .tooWide :=
      ofJson_eq_tooWide_iff.2 ⟨n, hn, by omega⟩
    rw [hindentation] at hwide
    contradiction
  . intro hrange
    obtain ⟨indentation, hindentation, _⟩ := ofJson_int hrange
    exact ⟨indentation, hindentation⟩

end Json.Indentation

theorem html_of_long_indent {units : Nat} (hunits : units < 10 ^ Text.digitLimit)
    (hlong : 10 ^ (Text.digitLimit - 1) ≤ units) (options : Html.Options)
    : ∃ document,
        (interpretText config (Text.joinLines [(Command.indent units).written]) sourceFile).result
            = .ok document
        ∧ Renderer.html options document.toNode = .error (.value .tooLong) := by
  have hwritable : (Command.indent units).IsWritable := by
    rintro _ ⟨⟩
    exact hunits
  have hlines : ∀ line ∈ [(Command.indent units).written], Line.IsAccepted config line := by
    intro line hline
    rw [List.mem_singleton.1 hline]
    apply Command.isAccepted_written hwritable
  refine ⟨_, interpretText_joinLines hlines, ?_⟩
  rw [(Renderer.of_eq_ite_all (Renderer.html_toNode options _)).2]
  refine ⟨rfl, units * Html.pointsPerIndentUnit, ?_, ?_⟩
  . unfold Interpretation.documentOf Interpretation.close
    rw [Machine.paragraphs_cons, Machine.advance_of_command (Line.command?_written hwritable)]
    exact List.mem_map.2 ⟨_, List.mem_append_right _ (List.mem_append_right _
      (List.mem_singleton_self _)), rfl⟩
  . have hindent : 0 ≤ ({ indent := .number units } : Paragraph).indent.value :=
      Int.natCast_nonneg units
    have hvalue := Int.ofNat_le.2 hlong
    rw [Int.natCast_pow] at hvalue
    exact (Html.not_fitsNumeral_points_iff hindent).2 hvalue

end DotFormat
