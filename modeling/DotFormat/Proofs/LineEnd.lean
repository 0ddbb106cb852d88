import DotFormat.Proofs.Contents
import Mathlib.Data.List.DropRight

/-!
This module contains that the ending of a line does not matter for what the line says. A line reads
the same with its ending and without it, so dividing a text into lines and taking the endings off
changes nothing but the texts that are kept.
-/

namespace DotFormat

namespace Text

theorem dropEndWhile_concat (p : α → Bool) (l : List α) (a : α)
    : dropEndWhile p (l ++ [a]) = if p a then dropEndWhile p l else l ++ [a] := by
  induction l with
  | nil => simp [dropEndWhile]
  | cons b l ih =>
    rw [List.cons_append, dropEndWhile, ih]
    by_cases ha : p a = true
    . simp only [ha, ↓reduceIte]
      rfl
    . simp only [ha]
      cases l with
      | nil => rfl
      | cons c l => rfl

theorem dropEndWhile_eq_rdropWhile (p : α → Bool) (l : List α)
    : dropEndWhile p l = l.rdropWhile p := by
  induction l using List.reverseRecOn with
  | nil => rfl
  | append_singleton l a ih => rw [dropEndWhile_concat, List.rdropWhile_concat, ih]

theorem dropEndWhile_congr {p q : α → Bool} {l : List α} (h : ∀ a ∈ l, p a = q a)
    : dropEndWhile p l = dropEndWhile q l := by
  induction l with
  | nil => rfl
  | cons a l ih =>
    obtain ⟨ha, hl⟩ := List.forall_mem_cons.1 h
    unfold dropEndWhile
    rw [ih hl, ha]

theorem words_eq_nil {ending : List Char} (h : ∀ c ∈ ending, isBlank c = true)
    : words ending = [] := by
  induction ending with
  | nil => rfl
  | cons c ending ih =>
    obtain ⟨hc, hending⟩ := List.forall_mem_cons.1 h
    rw [words_cons_of_blank hc, ih hending]

theorem words.go_append_of_blank {ending : List Char} (h : ∀ c ∈ ending, isBlank c = true)
    (text : List Char) : go (text ++ ending) = go text := by
  induction text with
  | nil =>
    cases ending with
    | nil => rfl
    | cons c ending =>
      obtain ⟨hc, hending⟩ := List.forall_mem_cons.1 h
      rw [List.nil_append, go_of_blank hc, words_eq_nil hending]
      rfl
  | cons c text ih => rw [List.cons_append, go, ih, go]

theorem words_append_of_blank {ending : List Char} (h : ∀ c ∈ ending, isBlank c = true)
    (text : List Char) : words (text ++ ending) = words text := by
  unfold words
  rw [words.go_append_of_blank h]

/--
A line without the carriage returns at its end.
-/
def dropReturns (line : List Char) : List Char :=
  dropEndWhile (· == '\r') line

theorem dropLineEnd_dropLineEnd (line : String)
    : dropLineEnd (dropLineEnd line) = dropLineEnd line := by
  unfold dropLineEnd
  simp only [String.toList_ofList, dropEndWhile_eq_rdropWhile, List.rdropWhile_idempotent]

theorem dropLineEnd_dropReturn (line : List Char)
    : dropLineEnd (String.ofList (dropReturn line)) = dropLineEnd (String.ofList line) := by
  unfold dropLineEnd dropReturn
  simp only [String.toList_ofList]
  split
  . next h =>
    obtain ⟨front, rfl⟩ := List.getLast?_eq_some_iff.1 h
    rw [List.dropLast_concat, dropEndWhile_concat]
    rfl
  . rfl

theorem dropLineEnd_eq_dropReturns {line : List Char} (h : '\n' ∉ line)
    : dropLineEnd (String.ofList line) = String.ofList (dropReturns line) := by
  unfold dropLineEnd dropReturns
  rw [String.toList_ofList]
  congr 1
  apply dropEndWhile_congr
  intro c hc
  have hne : c ≠ '\n' := by
    rintro rfl
    contradiction
  simp [hne]

theorem exists_ending (line : String)
    : ∃ ending, line.toList = (dropLineEnd line).toList ++ ending
        ∧ ∀ c ∈ ending, isBlank c = true := by
  refine ⟨line.toList.rtakeWhile fun c => c == '\r' || c == '\n', ?_, ?_⟩
  . unfold dropLineEnd
    rw [String.toList_ofList, dropEndWhile_eq_rdropWhile, List.rdropWhile_append_rtakeWhile]
  . intro c hc
    have hend := List.mem_rtakeWhile_imp hc
    rw [Bool.or_eq_true, beq_iff_eq, beq_iff_eq] at hend
    rcases hend with rfl | rfl
    . rfl
    . rfl

/--
A line of a text stands in one of its pieces, and differs from it in carriage returns at the end only.
-/
theorem exists_piece_of_getElem?_splitLines {text line : String} {m : Nat}
    (h : (splitLines text)[m]? = some line)
    : ∃ piece, (pieces '\n' text.toList)[m]? = some piece
        ∧ m < (splitLines text).length
        ∧ dropLineEnd line = String.ofList (dropReturns piece)
        ∧ ∀ other ∈ [piece, dropReturns piece],
            dropLineEnd (String.ofList other) = dropLineEnd line := by
  have hlt := (List.getElem?_eq_some_iff.1 h).1
  unfold splitLines at h
  rw [List.getElem?_map, Option.map_eq_some_iff] at h
  obtain ⟨piece, hpiece, rfl⟩ := h
  have hpieces : (pieces '\n' text.toList)[m]? = some piece := by
    unfold dropFinalEmpty at hpiece
    split at hpiece
    . rw [List.getElem?_dropLast] at hpiece
      split at hpiece
      . exact hpiece
      . contradiction
    . exact hpiece
  have hreturns : dropLineEnd (String.ofList piece) = String.ofList (dropReturns piece) :=
    dropLineEnd_eq_dropReturns (not_mem_of_mem_pieces (List.mem_of_getElem? hpieces))
  rw [dropLineEnd_dropReturn]
  refine ⟨piece, hpieces, hlt, hreturns, ?_⟩
  intro other hother
  rcases List.mem_pair.1 hother with rfl | rfl
  . rfl
  . rw [← hreturns, dropLineEnd_dropLineEnd]

end Text

theorem Command.read_append_of_blank {ending : List Char}
    (h : ∀ c ∈ ending, Text.isBlank c = true) (rest : List Char) (acceptAlias : Bool)
    : read (rest ++ ending) acceptAlias = read rest acceptAlias := by
  unfold read
  rw [Text.words_append_of_blank h]
  cases rest with
  | nil => rfl
  | cons c rest => rfl

namespace Line

theorem read_tail_dropLineEnd {line : String} (h : isCommand line = true) (acceptAlias : Bool)
    : Command.read (Text.dropLineEnd line).toList.tail acceptAlias
        = Command.read line.toList.tail acceptAlias := by
  obtain ⟨ending, hline, hblank⟩ := Text.exists_ending line
  have hmark : isCommand (Text.dropLineEnd line) = true := by
    rw [isCommand_dropLineEnd, h]
  obtain ⟨rest, hrest⟩ := List.head?_eq_some_iff.1 (of_decide_eq_true hmark)
  rw [hline, hrest, List.cons_append, List.tail_cons, List.tail_cons,
    Command.read_append_of_blank hblank]

/--
Commands that differ in their line endings only read the same, but for the text that an error keeps.
-/
theorem read_of_dropLineEnd_eq {line other : String} (hline : isCommand line = true)
    (h : Text.dropLineEnd other = Text.dropLineEnd line) (location : SourceLocation)
    (acceptAlias : Bool)
    : read other location acceptAlias
        =
      (read (Text.dropLineEnd line) location acceptAlias).mapError
        (Refusal.map fun error => { error with lineText := some other }) := by
  have hother : isCommand other = true := by
    rw [← isCommand_dropLineEnd, h, isCommand_dropLineEnd, hline]
  rw [← h]
  unfold read
  rw [isCommand_dropLineEnd, hother, read_tail_dropLineEnd hother]
  cases Command.read other.toList.tail acceptAlias with
  | ok found => rfl
  | error refusal =>
    cases refusal with
    | malformed fault => rfl
    | tooLong => rfl

end Line

end DotFormat
