import DotFormat.Proofs.Json.RoundTrip
import DotFormat.Proofs.Node.Fields
import DotFormat.Renderer

/-!
This module contains the way back from the JSON text of a document to the document. In the tree of a
document no field holds an object without a type, so the order of the members, which the text changes,
does not matter.
-/

namespace DotFormat

namespace Node

/--
A tree whose text holds all of it.
-/
inductive Lossless : Node → Prop where
  | null : Lossless (.plain .null)
  | bool (b : Bool) : Lossless (.plain (.bool b))
  | int {n : Int} (h : Text.fitsNumeral n = true) : Lossless (.plain (.int n))
  | str (s : String) : Lossless (.plain (.str s))
  | tuple {items : List Node} (h : ∀ item ∈ items, Lossless item) : Lossless (.tuple items)
  | location {place : SourceLocation} (h : Text.fitsNumeral place.line = true) :
    Lossless place.toNode
  | textRun {content bold italic large place : Node} (hcontent : Lossless content)
    (hbold : Lossless bold) (hitalic : Lossless italic) (hlarge : Lossless large)
    (hplace : Lossless place) : Lossless (.textRun content bold italic large place)
  | paragraph {runs indent fill place : Node} (hruns : Lossless runs) (hindent : Lossless indent)
    (hfill : Lossless fill) (hplace : Lossless place) :
    Lossless (.paragraph runs indent fill place)
  | diagnostic {kind message line sourceFile : Node} (hkind : Lossless kind)
    (hmessage : Lossless message) (hline : Lossless line) (hsourceFile : Lossless sourceFile) :
    Lossless (.diagnostic kind message line sourceFile)
  | document {paragraphs sourceFile diagnostics : Node} (hparagraphs : Lossless paragraphs)
    (hsourceFile : Lossless sourceFile) (hdiagnostics : Lossless diagnostics) :
    Lossless (.document paragraphs sourceFile diagnostics)

theorem readable_ofOption_str (s : Option String) : (ofOption Json.str s).Readable := by
  cases s with
  | none => exact .null
  | some s => exact .str s

theorem Lossless.readable {node : Node} (h : Lossless node) : node.toJson.Readable := by
  induction h with
  | null => exact .null
  | bool b => exact .bool b
  | int h => exact .int h
  | str s => exact .str s
  | @tuple items _ ih =>
    unfold toJson
    rw [toJsons_eq_map]
    apply Json.Readable.arr
    intro item hitem
    obtain ⟨original, horiginal, rfl⟩ := List.mem_map.1 hitem
    exact ih original horiginal
  | location h =>
    apply Json.Readable.obj
    . simp [typeKey]
    . simp [Json.Readable.str, Json.Readable.int h, readable_ofOption_str]
  | textRun _ _ _ _ _ hcontent hbold hitalic hlarge hplace =>
    apply Json.Readable.obj
    . simp [typeKey]
    . simp [Json.Readable.str, hcontent, hbold, hitalic, hlarge, hplace]
  | paragraph _ _ _ _ hruns hindent hfill hplace =>
    apply Json.Readable.obj
    . simp [typeKey]
    . simp [Json.Readable.str, hruns, hindent, hfill, hplace]
  | diagnostic _ _ _ _ hkind hmessage hline hsourceFile =>
    apply Json.Readable.obj
    . simp [typeKey]
    . simp [Json.Readable.str, hkind, hmessage, hline, hsourceFile]
  | document _ _ _ hparagraphs hsourceFile hdiagnostics =>
    apply Json.Readable.obj
    . simp [typeKey]
    . simp [Json.Readable.str, hparagraphs, hsourceFile, hdiagnostics]

theorem sorted_ofOption_str (s : Option String)
    : (ofOption Json.str s).sorted = ofOption Json.str s := by
  cases s with
  | none => rfl
  | some s => rfl

-- A node is put together from its members by their keys, wherever they stand.
theorem Lossless.ofField_sorted {node : Node} (h : Lossless node)
    : ofField node.toJson.sorted = .ok node := by
  induction h with
  | null => rfl
  | bool b => rfl
  | int h => rfl
  | str s => rfl
  | @tuple items _ ih =>
    simp only [toJson, toJsons_eq_map, Json.sorted, Json.sortedItems_eq_map, List.map_map]
    have hitems := ofItems_map_eq_ok ih
    unfold ofField
    exact congrArg (Except.map Node.tuple) hitems
  | @location place h =>
    simp [SourceLocation.toNode, toJson, Json.sorted, Json.sortedMembers, Json.sortByKey,
      Json.insertByKey, sorted_ofOption_str, ofField, typeKey, namesLocation, locationName,
      locationOf, List.lookup_cons]
  | _ =>
    simp [toJson, Json.sorted, Json.sortedMembers, Json.sortByKey, Json.insertByKey, ofField,
      readMembers, typeKey, namesLocation, locationName, typeNamed, NodeType.ofName?, NodeType.all,
      NodeType.name, ofFields, Fields.find?, Fields.findD, require, List.lookup_cons, Except.map,
      bind, Except.bind, pure, Except.pure, *]

theorem ofJson_sorted_document (paragraphs sourceFile diagnostics : Node)
    : ofJson (document paragraphs sourceFile diagnostics).toJson.sorted
        = ofField (document paragraphs sourceFile diagnostics).toJson.sorted := by
  simp [toJson, Json.sorted, Json.sortedMembers, Json.sortByKey, Json.insertByKey, ofJson, ofField,
    typeKey, namesLocation, locationName, NodeType.name]

end Node

/-! ### The trees of documents -/

def Paragraph.integers (paragraph : Paragraph) : List Int :=
  paragraph.indent.value :: paragraph.location.line
    :: paragraph.runs.map fun run => run.location.line

def Document.integers (document : Document) : List Int :=
  document.paragraphs.flatMap Paragraph.integers ++ document.diagnostics.filterMap (·.line)

theorem TextRun.lossless {run : TextRun} (h : Text.fitsNumeral run.location.line = true)
    : run.toNode.Lossless :=
  .textRun (.str _) (.bool _) (.bool _) (.bool _) (.location h)

theorem Amount.lossless {amount : Amount Int} (h : Text.fitsNumeral amount.value = true)
    : (Node.plain amount.toJson).Lossless := by
  cases amount with
  | number n => exact .int h
  | flag b => exact .bool b

theorem Paragraph.lossless {paragraph : Paragraph}
    (h : ∀ n ∈ paragraph.integers, Text.fitsNumeral n = true) : paragraph.toNode.Lossless := by
  refine .paragraph (.tuple ?_) (Amount.lossless ?_) (.bool _) (.location ?_)
  . intro item hitem
    obtain ⟨run, hrun, rfl⟩ := List.mem_map.1 hitem
    apply TextRun.lossless
    apply h
    simp only [integers, List.mem_cons, List.mem_map]
    exact .inr (.inr ⟨run, hrun, rfl⟩)
  . apply h
    simp [integers]
  . apply h
    simp [integers]

theorem Node.lossless_ofOption_str (s : Option String)
    : (plain (ofOption Json.str s)).Lossless := by
  cases s with
  | none => exact .null
  | some s => exact .str s

theorem Diagnostic.lossless {diagnostic : Diagnostic}
    (h : ∀ n ∈ diagnostic.line, Text.fitsNumeral n = true) : diagnostic.toNode.Lossless := by
  refine .diagnostic (.str _) (.str _) ?_ (Node.lossless_ofOption_str _)
  cases hline : diagnostic.line with
  | none => exact .null
  | some n => exact .int (h n hline)

theorem Document.lossless {document : Document}
    (h : ∀ n ∈ document.integers, Text.fitsNumeral n = true) : document.toNode.Lossless := by
  refine .document (.tuple ?_) (Node.lossless_ofOption_str _) (.tuple ?_)
  . intro item hitem
    obtain ⟨paragraph, hparagraph, rfl⟩ := List.mem_map.1 hitem
    apply Paragraph.lossless
    intro n hn
    apply h
    exact List.mem_append_left _ (List.mem_flatMap.2 ⟨paragraph, hparagraph, hn⟩)
  . intro item hitem
    obtain ⟨diagnostic, hdiagnostic, rfl⟩ := List.mem_map.1 hitem
    apply Diagnostic.lossless
    intro n hn
    apply h
    exact List.mem_append_right _ (List.mem_filterMap.2 ⟨diagnostic, hdiagnostic, hn⟩)

/-! ### Different documents have different trees -/

theorem Node.ofOption_str_injective : Function.Injective (ofOption Json.str) := by
  rintro (_ | s) (_ | t) h <;> simp_all [ofOption]

theorem Node.ofOption_int_injective : Function.Injective (ofOption Json.int) := by
  rintro (_ | m) (_ | n) h <;> simp_all [ofOption]

theorem SourceLocation.toNode_injective : Function.Injective toNode := by
  rintro ⟨line, sourceFile⟩ ⟨otherLine, otherSourceFile⟩ h
  simp only [toNode, Node.location.injEq, Json.int.injEq] at h
  rw [h.1, Node.ofOption_str_injective h.2]

theorem TextRun.toNode_injective : Function.Injective toNode := by
  rintro ⟨content, bold, italic, large, place⟩ ⟨content', bold', italic', large', place'⟩ h
  simp only [toNode, Node.ofString, Node.ofBool, Node.textRun.injEq, Node.plain.injEq,
    Json.str.injEq, Json.bool.injEq] at h
  obtain ⟨rfl, rfl, rfl, rfl, hplace⟩ := h
  rw [SourceLocation.toNode_injective hplace]

theorem Amount.toJson_injective : Function.Injective toJson := by
  rintro (m | a) (n | b) h <;> simp_all [toJson]

theorem Paragraph.toNode_injective : Function.Injective toNode := by
  rintro ⟨runs, indent, fill, place⟩ ⟨runs', indent', fill', place'⟩ h
  simp only [toNode, Node.ofBool, Node.paragraph.injEq, Node.tuple.injEq, Node.plain.injEq,
    Json.bool.injEq] at h
  obtain ⟨hruns, hindent, rfl, hplace⟩ := h
  rw [List.map_injective_iff.2 TextRun.toNode_injective hruns, Amount.toJson_injective hindent,
    SourceLocation.toNode_injective hplace]

theorem Diagnostic.toNode_injective : Function.Injective toNode := by
  rintro ⟨kind, message, line, sourceFile⟩ ⟨kind', message', line', sourceFile'⟩ h
  simp only [toNode, Node.ofString, Node.diagnostic.injEq, Node.plain.injEq, Json.str.injEq] at h
  obtain ⟨rfl, rfl, hline, hsourceFile⟩ := h
  rw [Node.ofOption_int_injective hline, Node.ofOption_str_injective hsourceFile]

theorem Document.toNode_injective : Function.Injective toNode := by
  rintro ⟨paragraphs, sourceFile, diagnostics⟩ ⟨paragraphs', sourceFile', diagnostics'⟩ h
  simp only [toNode, Node.document.injEq, Node.tuple.injEq, Node.plain.injEq] at h
  obtain ⟨hparagraphs, hsourceFile, hdiagnostics⟩ := h
  rw [List.map_injective_iff.2 Paragraph.toNode_injective hparagraphs,
    Node.ofOption_str_injective hsourceFile,
    List.map_injective_iff.2 Diagnostic.toNode_injective hdiagnostics]

/-! ### Texts of documents -/

theorem Json.Indentation.ofJson_int {indent : Option Int}
    (h : ∀ n ∈ indent, -widthLimit ≤ n ∧ n < widthLimit)
    : ∃ indentation, ofJson (Node.ofOption Json.int indent) = .ok indentation
        ∧ indentation.IsBlank := by
  cases indent with
  | none => exact ⟨none, rfl, isBlank_none⟩
  | some n =>
    refine ⟨spaces n, ?_, isBlank_spaces n⟩
    have hn := h n rfl
    simp only [Node.ofOption, ofJson, Bool.or_eq_true, decide_eq_true_eq]
    rw [if_neg]
    omega

theorem Node.ofText_of_read {document : Document} {text : String}
    (h : ∀ n ∈ document.integers, Text.fitsNumeral n = true)
    (hread : Json.read text = .ok document.toNode.toJson.sorted)
    : ofText text = .ok document.toNode := by
  have hnode : ofJson document.toNode.toJson.sorted = .ok document.toNode := by
    rw [← (Document.lossless h).ofField_sorted]
    apply ofJson_sorted_document
  unfold ofText
  rw [hread]
  simp only
  rw [hnode]
  rfl

end DotFormat
