import DotFormat.Proofs.Ambient
import DotFormat.Proofs.LineEnd

/-!
This module contains that it does not matter how the lines of a text are ended. Lines that are written
below each other with any endings are read as the same lines, but for carriage returns at their ends,
and a run takes these off anyway.
-/

namespace DotFormat

namespace Text

inductive Ending where
  | feed
  | returnFeed
  deriving DecidableEq, Repr

/--
What an ending has in front of its line feed.
-/
def Ending.returns : Ending → List Char
  | feed => []
  | returnFeed => ['\r']

def Ending.text (ending : Ending) : String :=
  String.ofList (ending.returns ++ ['\n'])

/--
Lines below each other, each with an ending of its own, and behind them a text without one.
-/
def writeLines (ended : List (String × Ending)) (last : String) : String :=
  String.join (ended.map fun line => line.1 ++ line.2.text) ++ last

/-! ### Pieces -/

theorem pieces_of_not_mem {mark : Char} {piece : List Char} (h : mark ∉ piece)
    : pieces mark piece = [piece] := by
  induction piece with
  | nil => rfl
  | cons c piece ih =>
    rw [List.mem_cons, not_or] at h
    have hc : (c == mark) = false := beq_eq_false_iff_ne.2 (Ne.symm h.1)
    rw [pieces, hc, ih h.2]
    rfl

theorem pieces_append_cons {mark : Char} {piece : List Char} (h : mark ∉ piece) (rest : List Char)
    : pieces mark (piece ++ mark :: rest) = piece :: pieces mark rest := by
  induction piece with
  | nil => simp [pieces]
  | cons c piece ih =>
    rw [List.mem_cons, not_or] at h
    have hc : (c == mark) = false := by
      rw [beq_eq_false_iff_ne]
      exact Ne.symm h.1
    rw [List.cons_append, pieces, hc, ih h.2]
    rfl

theorem Ending.feed_not_mem_returns (ending : Ending) : '\n' ∉ ending.returns := by
  cases ending <;> decide

theorem pieces_writeLines {ended : List (String × Ending)} {last : String}
    (h : ∀ line ∈ ended, '\n' ∉ line.1.toList) (hlast : '\n' ∉ last.toList)
    : pieces '\n' (writeLines ended last).toList
        = (ended.map fun line => line.1.toList ++ line.2.returns) ++ [last.toList] := by
  induction ended with
  | nil =>
    have htext : (writeLines [] last).toList = last.toList := by simp [writeLines]
    rw [htext, pieces_of_not_mem hlast]
    rfl
  | cons line ended ih =>
    obtain ⟨hline, hended⟩ := List.forall_mem_cons.1 h
    have htext : (writeLines (line :: ended) last).toList
        = (line.1.toList ++ line.2.returns) ++ '\n' :: (writeLines ended last).toList := by
      simp [writeLines, Ending.text]
    have hpiece : '\n' ∉ line.1.toList ++ line.2.returns := by
      rw [List.mem_append, not_or]
      exact ⟨hline, line.2.feed_not_mem_returns⟩
    rw [htext, pieces_append_cons hpiece, ih hended]
    rfl

/-! ### Lines -/

/--
The lines of a text whose last line may lack its ending. That line must not be empty, since there would
be nothing left of it.
-/
theorem splitLines_writeLines {ended : List (String × Ending)} {last : Option String}
    (h : ∀ line ∈ ended.map (·.1) ++ last.toList, '\n' ∉ line.toList) (hlast : last ≠ some "")
    : splitLines (writeLines ended (last.getD ""))
        = (ended.map fun line => String.ofList (dropReturn (line.1.toList ++ line.2.returns)))
            ++ last.toList.map fun line => String.ofList (dropReturn line.toList) := by
  obtain ⟨hended, hopen⟩ := List.forall_mem_append.1 h
  have hfeeds : ∀ line ∈ ended, '\n' ∉ line.1.toList := by
    intro line hline
    exact hended line.1 (List.mem_map_of_mem hline)
  unfold splitLines dropFinalEmpty
  cases last with
  | none =>
    rw [pieces_writeLines hfeeds (by decide), Option.getD_none, List.getLast?_concat]
    simp
  | some last =>
    have hfeed : '\n' ∉ last.toList := hopen last (by simp)
    have hne : last.toList ≠ [] := by
      intro hnil
      apply hlast
      rw [String.toList_eq_nil_iff.1 hnil]
    rw [Option.getD_some, pieces_writeLines hfeeds hfeed, List.getLast?_concat,
      if_neg (mt Option.some.inj hne)]
    simp

theorem dropReturn_append_returns {line : List Char} (h : line.getLast? ≠ some '\r') (ending : Ending)
    : dropReturn (line ++ ending.returns) = line := by
  unfold dropReturn
  cases ending with
  | feed => simp [Ending.returns, h]
  | returnFeed => simp [Ending.returns]

/--
Lines without carriage returns at their ends are read as they were written.
-/
theorem splitLines_writeLines_eq {ended : List (String × Ending)} {last : Option String}
    (h : ∀ line ∈ ended.map (·.1) ++ last.toList, '\n' ∉ line.toList) (hlast : last ≠ some "")
    (hreturns : ∀ line ∈ ended.map (·.1) ++ last.toList, line.toList.getLast? ≠ some '\r')
    : splitLines (writeLines ended (last.getD "")) = ended.map (·.1) ++ last.toList := by
  obtain ⟨hended, hopen⟩ := List.forall_mem_append.1 hreturns
  have hlines : (ended.map fun line => String.ofList (dropReturn (line.1.toList ++ line.2.returns)))
      = ended.map (·.1) := by
    apply List.map_congr_left
    intro line hline
    rw [dropReturn_append_returns (hended line.1 (List.mem_map_of_mem hline)), String.ofList_toList]
  have hrest : (last.toList.map fun line => String.ofList (dropReturn line.toList)) = last.toList := by
    refine (List.map_congr_left ?_).trans (List.map_id _)
    intro line hline
    rw [dropReturn, if_neg (hopen line hline), String.ofList_toList, id_eq]
  rw [splitLines_writeLines h hlast, hlines, hrest]

theorem dropLineEnd_append_returns (line : String) (ending : Ending)
    : dropLineEnd (String.ofList (dropReturn (line.toList ++ ending.returns))) = dropLineEnd line := by
  rw [dropLineEnd_dropReturn]
  cases ending with
  | feed => rw [Ending.returns, List.append_nil, String.ofList_toList]
  | returnFeed =>
    unfold dropLineEnd
    rw [String.toList_ofList, Ending.returns, dropEndWhile_concat]
    rfl

theorem map_dropLineEnd_splitLines_writeLines {ended : List (String × Ending)} {last : Option String}
    (h : ∀ line ∈ ended.map (·.1) ++ last.toList, '\n' ∉ line.toList) (hlast : last ≠ some "")
    : (splitLines (writeLines ended (last.getD ""))).map dropLineEnd
        = (ended.map (·.1) ++ last.toList).map dropLineEnd := by
  rw [splitLines_writeLines h hlast, List.map_append, List.map_append]
  apply congrArg₂
  . rw [List.map_map, List.map_map]
    apply List.map_congr_left
    intro line _
    exact dropLineEnd_append_returns line.1 line.2
  . rw [List.map_map]
    apply List.map_congr_left
    intro line _
    rw [Function.comp_apply, dropLineEnd_dropReturn, String.ofList_toList]

end Text

/-! ### Runs -/

variable {config : Config} {sourceFile : Option String}

theorem Interpretation.go_map_dropLineEnd (seen : Nat) (machine : Machine) (draft : Draft)
    (lines : List String)
    : go config sourceFile seen machine draft (lines.map Text.dropLineEnd)
        = go config sourceFile seen machine draft lines := by
  induction lines generalizing seen machine draft with
  | nil => rfl
  | cons line lines ih =>
    rw [List.map_cons, go, go, Text.dropLineEnd_dropLineEnd]
    simp only [ih]

theorem interpret_congr {lines others : List String}
    (h : lines.map Text.dropLineEnd = others.map Text.dropLineEnd)
    : interpret config lines sourceFile = interpret config others sourceFile := by
  unfold interpret
  rw [← Interpretation.go_map_dropLineEnd, h, Interpretation.go_map_dropLineEnd]

/--
A text is read as the lines that are written in it, whatever their endings are: the run has the same
result and the same log. The last line may lack its ending unless it is empty. Lines that do not end in
a carriage return are found again as they are, and no line of any text holds a line feed.
-/
theorem interpretText_writeLines (config : Config) (sourceFile : Option String)
    : (∀ (ended : List (String × Text.Ending)) (last : Option String),
        let lines := ended.map (·.1) ++ last.toList
        let text := Text.writeLines ended (last.getD "")
        (∀ line ∈ lines, '\n' ∉ line.toList) → last ≠ some ""
          →
        interpretText config text sourceFile = interpret config lines sourceFile
          ∧ (Ambient.readText text sourceFile).under config
              = (Ambient.readLines lines sourceFile).under config
          ∧ ((∀ line ∈ lines, line.toList.getLast? ≠ some '\r') → Text.splitLines text = lines))
      ∧ ∀ text, ∀ line ∈ Text.splitLines text, '\n' ∉ line.toList := by
  constructor
  . intro ended last lines text hfeeds hlast
    have hrun : interpret config (Text.splitLines text) sourceFile
        = interpret config lines sourceFile := by
      apply interpret_congr
      exact Text.map_dropLineEnd_splitLines_writeLines hfeeds hlast
    refine ⟨hrun, ?_, ?_⟩
    . unfold Ambient.readText
      rw [Ambient.under_readLines, Ambient.under_readLines, hrun]
    . intro hreturns
      exact Text.splitLines_writeLines_eq hfeeds hlast hreturns
  . intro text line hline
    exact Text.lineFeed_not_mem_of_mem_splitLines hline

theorem interpretText_writeLines_of_returns
    : interpretText { strict := .bool false } ".bold\r\na\r\n\n.no\r\r\nb\r"
          = interpret { strict := .bool false } [".bold", "a\r", "", ".no\r", "b\r"]
      ∧ Text.splitLines "a\r\n\nb\rc" = ["a", "", "b\rc"] := by
  have hreturns := (interpretText_writeLines { strict := .bool false } none).1
    [(".bold", .returnFeed), ("a\r", .feed), ("", .feed), (".no\r", .returnFeed)] (some "b\r")
    (by decide) (by decide)
  have hlines := (interpretText_writeLines {} none).1 [("a", .returnFeed), ("", .feed)]
    (some "b\rc") (by decide) (by decide)
  exact ⟨hreturns.1, hlines.2.2 (by decide)⟩

end DotFormat
