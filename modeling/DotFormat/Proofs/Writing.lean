import DotFormat.Proofs.Endings
import DotFormat.Proofs.Refusals

/-!
This module contains the writing of lines and of commands. Lines that are written below each other are
read as the same lines, and a command that is written as a line is read as the same command.
-/

namespace DotFormat

/-! ### Lines of a text -/

namespace Text

/--
A text that a line feed can be put behind to make a line of it.
-/
structure IsLine (line : String) : Prop where
  feed : '\n' ∉ line.toList
  last : line.toList.getLast? ≠ some '\r'

theorem IsLine.dropLineEnd_eq {line : String} (h : IsLine line) : dropLineEnd line = line := by
  apply dropLineEnd_eq_self
  intro c hc
  constructor
  . rintro rfl
    exact h.last hc
  . rintro rfl
    exact h.feed (List.mem_of_getLast? hc)

def joinLines (lines : List String) : String :=
  String.join (lines.map (· ++ "\n"))

theorem joinLines_eq_writeLines (lines : List String)
    : joinLines lines = writeLines (lines.map fun line => (line, .feed)) "" := by
  unfold joinLines writeLines
  rw [List.map_map, String.append_empty]
  rfl

theorem splitLines_joinLines {lines : List String} (h : ∀ line ∈ lines, IsLine line)
    : splitLines (joinLines lines) = lines := by
  have hlines : (lines.map fun line => (line, Ending.feed)).map (·.1) ++ (none : Option String).toList
      = lines := by
    simp [Function.comp_def]
  have hsplit := @splitLines_writeLines_eq (lines.map fun line => (line, .feed)) none
  rw [hlines] at hsplit
  rw [joinLines_eq_writeLines]
  apply hsplit
  . intro line hline
    exact (h line hline).feed
  . simp
  . intro line hline
    exact (h line hline).last

end Text

/-! ### Lines of commands -/

namespace Text

theorem isDigit_of_mem_repr {n : Nat} : ∀ c ∈ (Nat.repr n).toList, c.isDigit = true := by
  intro c hc
  rw [Nat.toList_repr] at hc
  apply Nat.isDigit_of_mem_toDigits _ _ hc
  . omega
  . omega

theorem toList_repr_ne_nil (n : Nat) : (Nat.repr n).toList ≠ [] := by
  rw [Nat.toList_repr]
  apply Nat.toDigits_ne_nil

theorem head?_repr_ne_minus (n : Nat) : (Nat.repr n).toList.head? ≠ some '-' := by
  intro h
  have hdigit := isDigit_of_mem_repr _ (List.mem_of_head? h)
  contradiction

end Text

namespace Command

/--
A line that says a command.
-/
def written (command : Command) : String :=
  "." ++ command.keyword.name ++ command.argument?.elim "" fun units => " " ++ Nat.repr units

/--
The amount of a command, if it has one, can be read.
-/
def IsWritable (command : Command) : Prop :=
  ∀ units ∈ command.argument?, units < 10 ^ Text.digitLimit

theorem written_indent (units : Nat)
    : (indent units).written = String.ofList (".indent ".toList ++ (Nat.repr units).toList) := by
  rw [String.ofList_append, String.ofList_toList, String.ofList_toList]
  rfl

theorem readUnits_repr {units : Nat} (h : units < 10 ^ Text.digitLimit) (directive : String)
    : readUnits directive (Nat.repr units).toList = .ok units := by
  have hlength : (Nat.repr units).length ≤ Text.digitLimit :=
    Text.length_repr_le_iff.2 h
  have hsign := Text.head?_repr_ne_minus units
  have hdigits : (Nat.repr units).toList.all Char.isDigit = true :=
    List.all_eq_true.2 Text.isDigit_of_mem_repr
  have hempty : (Nat.repr units).toList.isEmpty = false :=
    List.isEmpty_eq_false_iff.2 (Text.toList_repr_ne_nil units)
  unfold readUnits
  simp only [if_neg hsign, hdigits, hempty]
  rw [Text.readDigits_repr units hlength]
  rfl

theorem read_indent {units : Nat} (h : units < 10 ^ Text.digitLimit) (acceptAlias : Bool)
    : read ("indent".toList ++ ' ' :: (Nat.repr units).toList) acceptAlias = .ok (indent units) := by
  unfold read
  rw [Text.words_indent Text.isDigit_of_mem_repr (Text.toList_repr_ne_nil units)]
  have hkeyword : Keyword.ofName? (String.ofList "indent".toList) acceptAlias = some .indent := by
    rw [String.ofList_toList, Keyword.ofName?_eq_indent_iff]
  have hblank : ("indent".toList ++ ' ' :: (Nat.repr units).toList).head?.any Text.isBlank = false :=
    rfl
  simp only [hkeyword, hblank]
  unfold ofWords
  simp only [Keyword.command?, readUnits_repr h]
  rfl

end Command

theorem Line.command?_written {config : Config} {command : Command} (h : command.IsWritable)
    : command? config command.written = some command := by
  unfold command?
  cases command with
  | indent units =>
    have hread := Command.read_indent (h units rfl) config.acceptsAlias
    rw [Command.written_indent,
      dropLineEnd_indent Text.isDigit_of_mem_repr (Text.toList_repr_ne_nil units)]
    unfold read isCommand
    rw [String.toList_ofList]
    have htail : (".indent ".toList ++ (Nat.repr units).toList).tail
        = "indent".toList ++ ' ' :: (Nat.repr units).toList := rfl
    have hmark : (".indent ".toList ++ (Nat.repr units).toList).head? = some commandMark := rfl
    rw [htail, hread, hmark]
    rfl
  | _ =>
    cases config.acceptsAlias with
    | true => rfl
    | false => rfl

theorem Command.isLine_written (command : Command) : Text.IsLine command.written := by
  cases command with
  | indent units =>
    rw [written_indent]
    constructor
    . rw [String.toList_ofList, List.mem_append, not_or]
      constructor
      . decide
      . intro hfeed
        have hdigit := Text.isDigit_of_mem_repr _ hfeed
        contradiction
    . rw [String.toList_ofList, List.getLast?_append_of_ne_nil _ (Text.toList_repr_ne_nil units)]
      intro hlast
      have hdigit := Text.isDigit_of_mem_repr _ (List.mem_of_getLast? hlast)
      contradiction
  | _ => exact ⟨by decide, by decide⟩

/--
A line that a run gets from a text as it was written there, and that it accepts.
-/
structure Line.IsAccepted (config : Config) (line : String) : Prop where
  isLine : Text.IsLine line
  accepted : isRefused config line = false

theorem Command.isAccepted_written {config : Config} {command : Command} (h : command.IsWritable)
    : Line.IsAccepted config command.written where
  isLine := command.isLine_written
  accepted := by
    unfold Line.isRefused
    rw [Line.command?_written h]
    exact Bool.and_false _

end DotFormat
