import DotFormat.Proofs.Grammar
import DotFormat.Proofs.Quoted

/-!
This module contains what the message about a malformed line tells. It consists of printable characters,
so it stays on one line whatever the line says, and among the messages of one kind no two faults share
theirs. Names of commands stand in a message as they are, since they come from a fixed list; everything
else from the line is quoted.
-/

namespace DotFormat

namespace Keyword.IsSpelled

variable {acceptAlias : Bool} {keyword : Keyword} {name : String}

theorem allPrintable (h : keyword.IsSpelled acceptAlias name) : Text.AllPrintable name := by
  rcases h with rfl | ⟨_, _, rfl⟩
  . cases keyword <;> exact .of_all (by decide)
  . exact .of_all (by decide)

theorem mark_not_mem (h : keyword.IsSpelled acceptAlias name) : '\'' ∉ name.toList := by
  rcases h with rfl | ⟨_, _, rfl⟩
  . cases keyword <;> decide
  . decide

end Keyword.IsSpelled

namespace ArgumentFault

/--
The reasons with words of their own.
-/
def fixed : List ArgumentFault :=
  [takesNone, notSingle, notInteger, negative]

theorem allPrintable_text {reason : ArgumentFault} (h : reason ∈ fixed)
    : Text.AllPrintable reason.text := by
  have hall : fixed.all (fun reason => reason.text.toList.all Text.isPrintable) = true := by decide
  exact .of_all (List.all_eq_true.1 hall reason h)

theorem text_inj {reason other : ArgumentFault} (hreason : reason ∈ fixed) (hother : other ∈ fixed)
    (h : reason.text = other.text) : reason = other := by
  have hinj : ∀ reason ∈ fixed, ∀ other ∈ fixed, reason.text = other.text → reason = other := by
    decide
  exact hinj reason hreason other hother h

end ArgumentFault

namespace LineFault

/--
A fault that a line can have: the directive in it is the name of a command.
-/
inductive IsFound (acceptAlias : Bool) : LineFault → Prop where
  | unknown (name : String) : IsFound acceptAlias (.unknownDirective name)
  | missing {directive : String} {keyword : Keyword} : keyword.IsSpelled acceptAlias directive →
    IsFound acceptAlias (.missingArgument directive)
  | invalid {directive : String} {keyword : Keyword} (argument : String) {reason : ArgumentFault} :
    keyword.IsSpelled acceptAlias directive → reason ∈ ArgumentFault.fixed →
    IsFound acceptAlias (.invalidArgument directive argument reason)

variable {acceptAlias acceptOther : Bool} {fault other : LineFault}

theorem isFound_of_says {rest : List Char}
    (h : Command.Says acceptAlias rest (.error (.malformed fault))) : fault.IsFound acceptAlias := by
  have hindent : Keyword.indent.IsSpelled acceptAlias "indent" := .inl rfl
  cases h with
  | unnamed => exact .unknown ""
  | @unknown name => exact .unknown name
  | excess hname => exact .invalid _ hname (by decide)
  | missing => exact .missing hindent
  | several => exact .invalid _ hindent (by decide)
  | invalid _ _ _ _ hbad =>
    cases hbad with
    | negative => exact .invalid _ hindent (by decide)
    | notInteger => exact .invalid _ hindent (by decide)

theorem isFound_of_read {line : String} {location : SourceLocation} {error : ParseError}
    (h : Line.read line location acceptAlias = .error (.malformed error))
    : error.fault.IsFound acceptAlias := by
  obtain ⟨rest, fault, _, hsays, rfl⟩ := Line.read_eq_malformed_iff.1 h
  exact isFound_of_says hsays

theorem IsFound.allPrintable_message (h : fault.IsFound acceptAlias)
    : Text.AllPrintable fault.message := by
  cases h with
  | unknown name => exact .append (.of_all (by decide)) (Text.allPrintable_quote _)
  | missing hdirective =>
    exact .append (.append (.of_all (by decide)) hdirective.allPrintable) (.of_all (by decide))
  | invalid argument hdirective hreason =>
    exact .append
      (.append
        (.append
          (.append (.append (.of_all (by decide)) (Text.allPrintable_quote argument))
            (.of_all (by decide)))
          hdirective.allPrintable)
        (.of_all (by decide)))
      (ArgumentFault.allPrintable_text hreason)

/-! ### Telling faults apart -/

theorem unknownDirective_inj_of_message {name other : String}
    (h : (unknownDirective name).message = (unknownDirective other).message) : name = other := by
  have hquoted : Text.quote ("." ++ name) = Text.quote ("." ++ other) := (String.append_right_inj _).1 h
  have hlist := congrArg (String.toList · ++ []) hquoted
  exact (String.append_right_inj _).1 (Text.quote_append_inj hlist).1

theorem missingArgument_inj_of_message {directive other : String}
    (h : (missingArgument directive).message = (missingArgument other).message)
    : directive = other :=
  (String.append_right_inj _).1 ((String.append_left_inj _).1 h)

theorem toList_message_invalidArgument (directive argument : String) (reason : ArgumentFault)
    : (invalidArgument directive argument reason).message.toList
        = "invalid argument ".toList ++ ((Text.quote argument).toList ++ (" for '.".toList
          ++ (directive.toList ++ '\'' :: (": ".toList ++ reason.text.toList)))) := by
  unfold message argumentMessage
  simp only [String.toList_append, List.append_assoc]
  rfl

-- No directive has a mark in it, so the mark behind the directive is where the directive ends.
theorem invalidArgument_inj_of_message {directive other argument otherArgument : String}
    {reason otherReason : ArgumentFault} (hdirective : '\'' ∉ directive.toList)
    (hother : '\'' ∉ other.toList)
    (h : (invalidArgument directive argument reason).message
      = (invalidArgument other otherArgument otherReason).message)
    : directive = other ∧ argument = otherArgument ∧ reason.text = otherReason.text := by
  have hlist := congrArg String.toList h
  rw [toList_message_invalidArgument, toList_message_invalidArgument] at hlist
  obtain ⟨hargument, hbehind⟩ := Text.quote_append_inj (List.append_cancel_left hlist)
  obtain ⟨hname, hwords⟩ :=
    (Text.append_cons_inj hdirective hother).1 (List.append_cancel_left hbehind)
  exact ⟨String.toList_inj.1 hname, hargument, String.toList_inj.1 (List.append_cancel_left hwords)⟩

theorem IsFound.eq_of_message_eq (hfault : fault.IsFound acceptAlias)
    (hother : other.IsFound acceptOther) (hkind : fault.kind = other.kind)
    (h : fault.message = other.message) : fault = other := by
  cases hfault with
  | unknown name =>
    cases hother with
    | unknown other => exact congrArg _ (unknownDirective_inj_of_message h)
    | missing | invalid => simp [kind] at hkind
  | missing =>
    cases hother with
    | missing => exact congrArg _ (missingArgument_inj_of_message h)
    | unknown | invalid => simp [kind] at hkind
  | invalid argument hdirective hreason =>
    cases hother with
    | invalid otherArgument hotherDirective hotherReason =>
      obtain ⟨rfl, rfl, hwords⟩ :=
        invalidArgument_inj_of_message hdirective.mark_not_mem hotherDirective.mark_not_mem h
      rw [ArgumentFault.text_inj hreason hotherReason hwords]
    | unknown | missing => simp [kind] at hkind

end LineFault

/--
The message about a malformed line is a single line, since every character in it is printable and none
but the space is blank, and it tells the fault apart from every other one of its kind: the name that is
unknown, the directive that lacks an argument, or the directive, its argument and the reason.
-/
theorem message_tells_fault
    : (∀ (line : String) (location : SourceLocation) (acceptAlias : Bool) (error : ParseError),
          Line.read line location acceptAlias = .error (.malformed error)
            →
          ∀ c ∈ error.fault.message.toList,
            Text.isPrintable c = true ∧ (Text.isBlank c = true → c = ' '))
      ∧ ∀ (line other : String) (location elsewhere : SourceLocation) (acceptAlias acceptOther : Bool)
          (error second : ParseError),
          Line.read line location acceptAlias = .error (.malformed error)
            →
          Line.read other elsewhere acceptOther = .error (.malformed second)
            →
          error.fault.kind = second.fault.kind
            →
          error.fault.message = second.fault.message
            →
          error.fault = second.fault := by
  constructor
  . intro line location acceptAlias error hread c hc
    have hprintable := (LineFault.isFound_of_read hread).allPrintable_message c hc
    exact ⟨hprintable, fun hblank => Text.eq_space_of_isBlank hblank hprintable⟩
  . intro line other location elsewhere acceptAlias acceptOther error second hread hsecond hkind h
    exact (LineFault.isFound_of_read hread).eq_of_message_eq (LineFault.isFound_of_read hsecond) hkind h

theorem message_tells_fault_of_escapes
    : ∃ error second,
        Line.read ".indent\t'4\u200b'" { line := 1 } = .error (.malformed error)
        ∧ Line.read ".indent '4\u200b' " { line := 7, sourceFile := some "a" } true
          = .error (.malformed second)
        ∧ error.fault.message = "invalid argument \"'4\\u200b'\" for '.indent': not an integer"
        ∧ (∀ c ∈ error.fault.message.toList, Text.isPrintable c = true)
        ∧ error.fault = second.fault := by
  obtain ⟨hprintable, htelling⟩ := message_tells_fault
  obtain ⟨error, hread, hfault⟩ : ∃ error,
      Line.read ".indent\t'4\u200b'" { line := 1 } = .error (.malformed error)
      ∧ error.fault = .invalidArgument "indent" "'4\u200b'" .notInteger := ⟨_, rfl, rfl⟩
  obtain ⟨second, hsecond, hother⟩ : ∃ second,
      Line.read ".indent '4\u200b' " { line := 7, sourceFile := some "a" } true
        = .error (.malformed second)
      ∧ second.fault = .invalidArgument "indent" "'4\u200b'" .notInteger := ⟨_, rfl, rfl⟩
  have hmessage : error.fault.message
      = "invalid argument \"'4\\u200b'\" for '.indent': not an integer" := by
    rw [hfault]
    decide +kernel
  have hkind : error.fault.kind = second.fault.kind := by rw [hfault, hother]
  have hsame : error.fault.message = second.fault.message := by rw [hfault, hother]
  exact ⟨error, second, hread, hsecond, hmessage, fun c hc => (hprintable _ _ _ _ hread c hc).1,
    htelling _ _ _ _ _ _ _ _ hread hsecond hkind hsame⟩

end DotFormat
