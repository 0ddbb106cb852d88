import DotFormat.Proofs.Numeral
import DotFormat.Proofs.Run
import Mathlib.Data.String.Basic

/-!
This module contains which lines of an input are refused, and what that makes of a run. A strict run
ends with the first refusal. Any other run ends only with a number that is too long to be read, and
records every other refusal.
-/

namespace DotFormat

namespace Text

theorem dropEndWhile_eq_self {p : α → Bool} {l : List α} (h : ∀ a ∈ l.getLast?, p a = false)
    : dropEndWhile p l = l := by
  induction l with
  | nil => rfl
  | cons a l ih =>
    cases l with
    | nil => simpa [dropEndWhile] using h
    | cons b l =>
      rw [List.getLast?_cons_cons] at h
      unfold dropEndWhile
      rw [ih h]

theorem dropLineEnd_eq_self {line : String} (h : ∀ c ∈ line.toList.getLast?, c ≠ '\r' ∧ c ≠ '\n')
    : dropLineEnd line = line := by
  unfold dropLineEnd
  rw [dropEndWhile_eq_self]
  . apply String.ofList_toList
  . intro c hc
    rw [Bool.or_eq_false_iff, beq_eq_false_iff_ne, beq_eq_false_iff_ne]
    apply h c hc

theorem isBlank_of_isDigit {c : Char} (h : c.isDigit = true) : isBlank c = false := by
  have hrange := bounds_of_isDigit h
  simp only [isBlank, Bool.or_eq_false_iff, Bool.and_eq_false_iff, decide_eq_false_iff_not,
    beq_eq_false_iff_ne]
  omega

theorem words.go_append {word : List Char} (h : ∀ c ∈ word, isBlank c = false) (rest : List Char)
    : go (word ++ rest) = (word ++ (go rest).1, (go rest).2) := by
  induction word with
  | nil => rfl
  | cons c word ih =>
    obtain ⟨hc, hword⟩ := List.forall_mem_cons.1 h
    rw [List.cons_append, go, ih hword]
    simp [hc]

theorem words_append_cons {word : List Char} (h : ∀ c ∈ word, isBlank c = false)
    (hne : word ≠ []) {c : Char} (hc : isBlank c = true) (rest : List Char)
    : words (word ++ c :: rest) = word :: words rest := by
  unfold words
  rw [words.go_append h, words.go_of_blank hc]
  simp [words.cons, hne, words]

theorem words_eq_singleton {word : List Char} (h : ∀ c ∈ word, isBlank c = false)
    (hne : word ≠ []) : words word = [word] := by
  have := words.go_append h []
  rw [List.append_nil] at this
  unfold words
  rw [this]
  simp [words.go, words.cons, hne]

theorem words_indent {digits : List Char} (h : ∀ c ∈ digits, c.isDigit = true) (hne : digits ≠ [])
    : words ("indent".toList ++ ' ' :: digits) = ["indent".toList, digits] := by
  have hname : "indent".toList.all (fun c => !isBlank c) = true := by
    decide
  simp only [List.all_eq_true, Bool.not_eq_true'] at hname
  rw [words_append_cons hname (by simp) rfl, words_eq_singleton _ hne]
  intro c hc
  apply isBlank_of_isDigit (h c hc)

end Text

theorem Refusal.exists_map_malformed {α : Type} {refusals : List (Refusal α)}
    (h : tooLong ∉ refusals) : ∃ causes : List α, refusals = causes.map malformed := by
  induction refusals with
  | nil => exact ⟨[], rfl⟩
  | cons refusal refusals ih =>
    rw [List.mem_cons, not_or] at h
    obtain ⟨causes, rfl⟩ := ih h.2
    cases refusal with
    | malformed cause => exact ⟨cause :: causes, rfl⟩
    | tooLong => exact absurd rfl h.1

theorem Keyword.ofName?_eq_indent_iff (name : String) (acceptAlias : Bool)
    : ofName? name acceptAlias = some indent ↔ name = "indent" := by
  constructor
  . intro h
    unfold ofName? at h
    split at h
    . next keyword hkeyword =>
      have hname := List.find?_some hkeyword
      rw [Option.some.inj h] at hname
      exact (of_decide_eq_true hname).symm
    . unfold ofAlias? at h
      split at h
      . split at h
        . contradiction
        . contradiction
      . contradiction
  . rintro rfl
    exact ofName?_name indent acceptAlias

namespace Command

theorem readUnits_eq_tooLong_iff (directive : String) (argument : List Char)
    : readUnits directive argument = .error .tooLong
        ↔ argument.all Char.isDigit = true ∧ Text.digitLimit < argument.length := by
  unfold readUnits
  dsimp only
  split
  . next hsign =>
    have hdash : argument.all Char.isDigit = false := by
      obtain ⟨digits, rfl⟩ := List.head?_eq_some_iff.1 hsign
      rfl
    rw [hdash]
    split
    . simp
    . simp
  . split
    . next hother =>
      simp only [Bool.or_eq_true, List.isEmpty_iff, Bool.not_eq_true'] at hother
      rcases hother with rfl | hother
      . simp
      . simp [hother]
    . next hdigits =>
      simp only [Bool.or_eq_true, Bool.not_eq_true', not_or, Bool.not_eq_false] at hdigits
      unfold Text.readDigits
      by_cases hlength : argument.length ≤ Text.digitLimit
      . rw [if_pos hlength]
        simpa using fun _ => hlength
      . rw [if_neg hlength]
        simpa [hdigits.2] using hlength

theorem ofWords_eq_tooLong_iff {keyword : Keyword} {directive : String}
    {arguments : List (List Char)}
    : ofWords keyword directive arguments = .error .tooLong
        ↔
      keyword = .indent
        ∧ ∃ argument, arguments = [argument] ∧ argument.all Char.isDigit = true
            ∧ Text.digitLimit < argument.length := by
  cases keyword with
  | indent =>
    match arguments with
    | [] => simp [ofWords, Keyword.command?]
    | [argument] =>
      have := readUnits_eq_tooLong_iff directive argument
      cases h : readUnits directive argument <;>
        simp_all [ofWords, Keyword.command?, Except.map]
    | _ :: _ :: _ => simp [ofWords, Keyword.command?]
  | _ =>
    cases h : arguments.isEmpty <;> simp [ofWords, Keyword.command?, h]

theorem read_eq_tooLong_iff (rest : List Char) (acceptAlias : Bool)
    : read rest acceptAlias = .error .tooLong
        ↔
      rest.head?.any Text.isBlank = false
        ∧ ∃ argument, Text.words rest = ["indent".toList, argument]
            ∧ argument.all Char.isDigit = true ∧ Text.digitLimit < argument.length := by
  unfold read
  cases Text.words rest with
  | nil => simp
  | cons name arguments =>
    cases hblank : rest.head?.any Text.isBlank with
    | true => simp
    | false =>
      have hname : name = "indent".toList ↔ String.ofList name = "indent" :=
        String.ofList_eq.symm
      have hkeyword := Keyword.ofName?_eq_indent_iff (String.ofList name) acceptAlias
      simp only [Bool.false_eq_true, ↓reduceIte, List.cons.injEq, hname, ← hkeyword, true_and]
      cases Keyword.ofName? (String.ofList name) acceptAlias with
      | none => simp
      | some keyword =>
        simp only [ofWords_eq_tooLong_iff, Option.some.injEq]
        constructor
        . rintro ⟨hindent, argument, harguments, hdigits⟩
          exact ⟨argument, ⟨hindent, harguments⟩, hdigits⟩
        . rintro ⟨argument, ⟨hindent, harguments⟩, hdigits⟩
          exact ⟨hindent, argument, harguments, hdigits⟩

end Command

variable {config : Config} {sourceFile : Option String}

namespace Line

/--
An `.indent` whose number has more digits than can be read.
-/
def Overlong (line : String) : Prop :=
  isCommand line = true
    ∧ (Text.dropLineEnd line).toList.tail.head?.any Text.isBlank = false
    ∧ ∃ digits, Text.words (Text.dropLineEnd line).toList.tail = ["indent".toList, digits]
        ∧ digits.all Char.isDigit = true ∧ Text.digitLimit < digits.length

theorem dropLineEnd_indent {digits : List Char} (h : ∀ c ∈ digits, c.isDigit = true)
    (hne : digits ≠ [])
    : Text.dropLineEnd (String.ofList (".indent ".toList ++ digits))
        = String.ofList (".indent ".toList ++ digits) := by
  apply Text.dropLineEnd_eq_self
  intro c hc
  rw [String.toList_ofList, List.getLast?_append_of_ne_nil _ hne] at hc
  have hdigit := h c (List.mem_of_getLast? hc)
  constructor
  . rintro rfl
    contradiction
  . rintro rfl
    contradiction

theorem overlong_indent {digits : List Char} (hdigits : ∀ c ∈ digits, c.isDigit = true)
    (hlong : Text.digitLimit < digits.length)
    : Overlong (String.ofList (".indent ".toList ++ digits)) := by
  have hne : digits ≠ [] := by
    rintro rfl
    simp at hlong
  unfold Overlong
  rw [dropLineEnd_indent hdigits hne, isCommand, String.toList_ofList]
  exact ⟨rfl, rfl, digits, Text.words_indent hdigits hne, List.all_eq_true.2 hdigits, hlong⟩

/--
Why a run does not accept a line of its input, if it does not.
-/
def refusal? (config : Config) (line : String) (location : SourceLocation)
    : Option (Refusal ParseError) :=
  match read (Text.dropLineEnd line) location config.acceptsAlias with
  | .ok _ => none
  | .error refusal => some refusal

/--
Why a line of an input is not accepted, wherever it stands.
-/
def fault? (config : Config) (line : String) : Option (Refusal LineFault) :=
  if isCommand line then
    match Command.read (Text.dropLineEnd line).toList.tail config.acceptsAlias with
    | .ok _ => none
    | .error refusal => some refusal
  else none

theorem refusal?_eq_map_fault? (config : Config) (line : String) (location : SourceLocation)
    : refusal? config line location
        =
      (fault? config line).map (Refusal.map fun fault =>
        { fault, line := some location.line, sourceFile := location.sourceFile,
          lineText := some (Text.dropLineEnd line) }) := by
  unfold refusal? fault? read
  rw [isCommand_dropLineEnd]
  cases isCommand line with
  | false => rfl
  | true =>
    cases Command.read (Text.dropLineEnd line).toList.tail config.acceptsAlias with
    | ok found => rfl
    | error refusal => rfl

def isRefused (config : Config) (line : String) : Bool :=
  isCommand line && (command? config line).isNone

theorem isSome_refusal? (config : Config) (line : String) (location : SourceLocation)
    : (refusal? config line location).isSome = isRefused config line := by
  unfold refusal? isRefused
  rcases read_cases config line location
    with ⟨hline, hnone, hread⟩ | ⟨command, hline, hcommand, hread⟩ | ⟨refusal, hline, hnone, hread⟩
  . simp [hline, hread]
  . simp [hcommand, hread]
  . simp [hline, hnone, hread]

theorem exists_command_of_accepted {line : String} {location : SourceLocation}
    (hline : isCommand line = true) (h : refusal? config line location = none)
    : ∃ command, command? config line = some command := by
  have hrefused := isSome_refusal? config line location
  rw [h, isRefused, hline] at hrefused
  apply Option.ne_none_iff_exists'.1
  intro hnone
  rw [hnone] at hrefused
  contradiction

theorem read_of_command? {line : String} {command : Command}
    (h : command? config line = some command) (location : SourceLocation)
    : isCommand line = true
        ∧ read (Text.dropLineEnd line) location config.acceptsAlias
            = .ok (.command command location) := by
  rcases read_cases config line location
    with ⟨_, hnone, _⟩ | ⟨found, hline, hfound, hread⟩ | ⟨_, _, hnone, _⟩
  . rw [h] at hnone
    contradiction
  . rw [h] at hfound
    injection hfound with hfound
    rw [hfound]
    exact ⟨hline, hread⟩
  . rw [h] at hnone
    contradiction

theorem read_of_refusal? {line : String} {location : SourceLocation}
    {refusal : Refusal ParseError} (h : refusal? config line location = some refusal)
    : isCommand line = true
        ∧ read (Text.dropLineEnd line) location config.acceptsAlias = .error refusal := by
  unfold refusal? at h
  rcases read_cases config line location
    with ⟨_, _, hread⟩ | ⟨_, _, _, hread⟩ | ⟨other, hline, _, hread⟩
  . rw [hread] at h
    contradiction
  . rw [hread] at h
    contradiction
  . rw [hread] at h ⊢
    injection h with h
    exact ⟨hline, congrArg _ h⟩

theorem place_of_refusal? {line : String} {location : SourceLocation} {error : ParseError}
    (h : refusal? config line location = some (.malformed error))
    : error.line = some location.line ∧ error.sourceFile = location.sourceFile := by
  rw [refusal?_eq_map_fault?, Option.map_eq_some_iff] at h
  obtain ⟨refusal, _, h⟩ := h
  cases refusal with
  | malformed fault =>
    injection h with h
    subst h
    exact ⟨rfl, rfl⟩
  | tooLong => contradiction

theorem refusal?_eq_tooLong_iff {line : String} {location : SourceLocation}
    : refusal? config line location = some .tooLong ↔ Overlong line := by
  unfold refusal? Overlong read
  rw [isCommand_dropLineEnd, ← Command.read_eq_tooLong_iff _ config.acceptsAlias]
  cases isCommand line with
  | false => simp
  | true =>
    cases Command.read (Text.dropLineEnd line).toList.tail config.acceptsAlias with
    | ok found => simp
    | error refusal => cases refusal <;> simp [Refusal.map]

end Line

namespace Machine

variable {line : String} {location : SourceLocation}

theorem process_of_refused {refusal : Refusal ParseError}
    (h : Line.refusal? config line location = some refusal) (machine : Machine)
    : machine.process config (Text.dropLineEnd line) location = .error refusal := by
  unfold process
  rw [(Line.read_of_refusal? h).2]
  rfl

theorem process_of_accepted (h : Line.refusal? config line location = none) (machine : Machine)
    : machine.process config (Text.dropLineEnd line) location
        = .ok (machine.advance config line location) := by
  cases hprocess : machine.process config (Text.dropLineEnd line) location with
  | ok move => rw [advance_of_ok config hprocess]
  | error refusal =>
    unfold process at hprocess
    unfold Line.refusal? at h
    cases hread : Line.read (Text.dropLineEnd line) location config.acceptsAlias with
    | ok found => simp [hread, Except.map] at hprocess
    | error other => simp [hread] at h

theorem advance_of_command {command : Command} (h : Line.command? config line = some command)
    (machine : Machine) (location : SourceLocation)
    : machine.advance config line location = machine.perform config command location := by
  apply advance_of_ok
  unfold process
  rw [(Line.read_of_command? h location).2]
  rfl

theorem advance_of_refused {refusal : Refusal ParseError}
    (h : Line.refusal? config line location = some refusal) (machine : Machine)
    : machine.advance config line location = { machine } :=
  advance_of_error config (process_of_refused h machine)

end Machine

namespace Interpretation

/--
The refusals of some lines in order, the first of them standing behind `seen` others.
-/
def refusals (config : Config) (sourceFile : Option String) (seen : Nat)
    : List String → List (Refusal ParseError)
  | [] => []
  | line :: lines =>
    (Line.refusal? config line (Machine.place sourceFile seen)).toList
      ++ refusals config sourceFile (seen + 1) lines

theorem refusals_append (seen : Nat) (lines others : List String)
    : refusals config sourceFile seen (lines ++ others)
        =
      refusals config sourceFile seen lines
        ++ refusals config sourceFile (seen + lines.length) others := by
  induction lines generalizing seen with
  | nil => rfl
  | cons line lines ih =>
    simp only [List.cons_append, refusals, List.length_cons]
    rw [ih, List.append_assoc, Nat.add_right_comm, Nat.add_assoc]

theorem length_refusals (sourceFile : Option String) (seen : Nat) (lines : List String)
    : (refusals config sourceFile seen lines).length = lines.countP (Line.isRefused config) := by
  induction lines generalizing seen with
  | nil => rfl
  | cons line lines ih =>
    simp only [refusals, List.length_append]
    rw [ih, List.countP_cons, ← Line.isSome_refusal? config line (Machine.place sourceFile seen)]
    cases Line.refusal? config line (Machine.place sourceFile seen) with
    | none => simp
    | some refusal =>
      simp only [Option.toList_some, List.length_singleton, Option.isSome_some, ↓reduceIte]
      omega

theorem tooLong_mem_refusals_iff {seen : Nat} {lines : List String}
    : .tooLong ∈ refusals config sourceFile seen lines ↔ ∃ line ∈ lines, Line.Overlong line := by
  induction lines generalizing seen with
  | nil => simp [refusals]
  | cons line lines ih =>
    simp [refusals, ih, Line.refusal?_eq_tooLong_iff]

/-! ### The end of a run -/

/--
The document that a draft becomes if some paragraphs and some errors are still to come.
-/
def close (draft : Draft) (paragraphs : List Paragraph) (errors : List ParseError) : Document :=
  { paragraphs := draft.paragraphs ++ paragraphs
    sourceFile := draft.sourceFile
    diagnostics := draft.diagnostics ++ errors.map diagnostic }

theorem close_append (draft : Draft) (emitted : Option Paragraph) (paragraphs : List Paragraph)
    (errors : List ParseError)
    : close (emitted.elim draft draft.append) paragraphs errors
        = close draft (emitted.toList ++ paragraphs) errors := by
  cases emitted with
  | none => rfl
  | some paragraph => simp [close, Draft.append]

theorem close_record (draft : Draft) (paragraphs : List Paragraph) (error : ParseError)
    (errors : List ParseError)
    : close (draft.record (diagnostic error)) paragraphs errors
        = close draft paragraphs (error :: errors) := by
  simp [close, Draft.record]

variable {seen : Nat} {machine : Machine} {draft : Draft} {line : String} {lines : List String}

theorem go_nil
    : (go config sourceFile seen machine draft []).result
        = .ok (close draft (Machine.paragraphs config sourceFile seen machine []) []) := by
  simp [go, close, Draft.document, Draft.append, Machine.paragraphs, Machine.emitted, Machine.after]

theorem go_cons_eq_of_accepted
    (h : Line.refusal? config line (Machine.place sourceFile seen) = none)
    : go config sourceFile seen machine draft (line :: lines)
        =
      (go config sourceFile (seen + 1)
        (machine.advance config line (Machine.place sourceFile seen)).machine
        ((machine.advance config line (Machine.place sourceFile seen)).emitted.elim draft
          draft.append)
        lines).after (machine.advance config line (Machine.place sourceFile seen)).log := by
  have hprocess := Machine.process_of_accepted h machine
  generalize machine.advance config line (Machine.place sourceFile seen) = move at hprocess ⊢
  obtain ⟨next, emitted, log⟩ := move
  unfold Machine.place at hprocess
  rw [go, hprocess]
  cases emitted with
  | none => rfl
  | some paragraph => rfl

theorem go_cons_eq_of_tooLong
    (h : Line.refusal? config line (Machine.place sourceFile seen) = some .tooLong)
    : go config sourceFile seen machine draft (line :: lines)
        = { result := .error .tooLong, log := [] } := by
  have hprocess := Machine.process_of_refused h machine
  unfold Machine.place at hprocess
  rw [go, hprocess]

theorem go_cons_eq_of_malformed {error : ParseError}
    (h : Line.refusal? config line (Machine.place sourceFile seen) = some (.malformed error))
    : go config sourceFile seen machine draft (line :: lines)
        =
      if config.isStrict then { result := .error (.malformed error), log := [] }
      else
        (go config sourceFile (seen + 1) machine (draft.record (diagnostic error)) lines).after
          [skipRecord error] := by
  have hprocess := Machine.process_of_refused h machine
  unfold Machine.place at hprocess
  rw [go, hprocess]

theorem go_cons_of_accepted
    (h : Line.refusal? config line (Machine.place sourceFile seen) = none)
    : (go config sourceFile seen machine draft (line :: lines)).result
        =
      (go config sourceFile (seen + 1)
        (machine.advance config line (Machine.place sourceFile seen)).machine
        ((machine.advance config line (Machine.place sourceFile seen)).emitted.elim draft
          draft.append)
        lines).result := by
  rw [go_cons_eq_of_accepted h]
  rfl

theorem go_cons_of_tooLong
    (h : Line.refusal? config line (Machine.place sourceFile seen) = some .tooLong)
    : (go config sourceFile seen machine draft (line :: lines)).result = .error .tooLong := by
  rw [go_cons_eq_of_tooLong h]

theorem go_cons_of_malformed {error : ParseError}
    (h : Line.refusal? config line (Machine.place sourceFile seen) = some (.malformed error))
    : (go config sourceFile seen machine draft (line :: lines)).result
        =
      if config.isStrict then .error (.malformed error)
      else
        (go config sourceFile (seen + 1) machine (draft.record (diagnostic error)) lines).result := by
  rw [go_cons_eq_of_malformed h]
  split
  . rfl
  . rfl

theorem go_of_strict (hstrict : config.isStrict = true)
    : (go config sourceFile seen machine draft lines).result
        =
      match refusals config sourceFile seen lines with
      | [] => .ok (close draft (Machine.paragraphs config sourceFile seen machine lines) [])
      | refusal :: _ => .error refusal := by
  induction lines generalizing seen machine draft with
  | nil => exact go_nil
  | cons line lines ih =>
    unfold refusals
    cases h : Line.refusal? config line (Machine.place sourceFile seen) with
    | none =>
      rw [go_cons_of_accepted h, ih, close_append, Machine.paragraphs_cons]
      rfl
    | some refusal =>
      cases refusal with
      | tooLong => rw [go_cons_of_tooLong h]; rfl
      | malformed error => rw [go_cons_of_malformed h, if_pos hstrict]; rfl

theorem go_of_lenient (hlenient : config.isStrict = false) {errors : List ParseError}
    (h : refusals config sourceFile seen lines = errors.map .malformed)
    : (go config sourceFile seen machine draft lines).result
        = .ok (close draft (Machine.paragraphs config sourceFile seen machine lines) errors) := by
  induction lines generalizing seen machine draft errors with
  | nil =>
    obtain rfl : errors = [] := by simpa [refusals] using h.symm
    exact go_nil
  | cons line lines ih =>
    unfold refusals at h
    rw [Machine.paragraphs_cons]
    cases hrefusal : Line.refusal? config line (Machine.place sourceFile seen) with
    | none =>
      rw [hrefusal] at h
      rw [go_cons_of_accepted hrefusal, ih h, close_append]
    | some refusal =>
      rw [hrefusal, Option.toList_some, List.singleton_append] at h
      obtain ⟨error, others, rfl, rfl, hothers⟩ := List.map_eq_cons_iff.1 h.symm
      rw [go_cons_of_malformed hrefusal, hlenient, Machine.advance_of_refused hrefusal]
      exact (ih hothers.symm).trans (congrArg _ (close_record ..))

theorem go_of_lenient_of_tooLong (hlenient : config.isStrict = false)
    (h : .tooLong ∈ refusals config sourceFile seen lines)
    : (go config sourceFile seen machine draft lines).result = .error .tooLong := by
  induction lines generalizing seen machine draft with
  | nil => simp [refusals] at h
  | cons line lines ih =>
    unfold refusals at h
    cases hrefusal : Line.refusal? config line (Machine.place sourceFile seen) with
    | none =>
      rw [hrefusal] at h
      rw [go_cons_of_accepted hrefusal, ih h]
    | some refusal =>
      cases refusal with
      | tooLong => exact go_cons_of_tooLong hrefusal
      | malformed error =>
        rw [go_cons_of_malformed hrefusal, hlenient]
        apply ih
        simpa [hrefusal] using h

/--
The document of some lines if the given errors are those that the run has met.
-/
def documentOf (config : Config) (sourceFile : Option String) (lines : List String)
    (errors : List ParseError) : Document :=
  close { sourceFile } (Machine.paragraphs config sourceFile 0 (.start sourceFile) lines) errors

end Interpretation

end DotFormat
