import DotFormat.Proofs.Segments
import DotFormat.Proofs.Strictness
import Mathlib.Data.List.DropRight

/-!
This module contains what a run records of what it does. The records follow the lines: one for each
command that ends a paragraph and one for each line that is skipped, up to the line that stops the
run. They are made while there is no document yet, but what they say is true of the one that the run
ends with.
-/

namespace DotFormat

variable {config : Config} {sourceFile : Option String}

namespace Line

/--
The number of runs in the paragraph that is open behind some lines. They are the lines of text
behind the last command that ended a paragraph.
-/
def openRuns (config : Config) (lines : List String) : Nat :=
  (lines.rtakeWhile fun line => !endsParagraph config line).countP fun line => !isCommand line

/--
The record that a line leaves if the run does not stop at it, given the lines before it.
-/
def record? (config : Config) (sourceFile : Option String) (before : List String) (line : String)
    : Option Log.Record :=
  let location := Machine.place sourceFile before.length
  match command? config line with
  | some found =>
    if found.endsParagraph then
      some {
        level := .debug
        log := Log.qualify "interpreter"
        message := location.text ++ ": ." ++ found.keyword.name ++ " sealed paragraph with "
          ++ Nat.repr (openRuns config before) ++ " run(s)" }
    else none
  | none =>
    match refusal? config line location with
    | some (.malformed error) =>
      some {
        level := .warning
        log := Log.qualify "interpreter"
        message := "Skipping line: " ++ error.text }
    | _ => none

def records (config : Config) (sourceFile : Option String) (before : List String)
    : List String → List Log.Record
  | [] => []
  | line :: lines =>
    (record? config sourceFile before line).toList
      ++ records config sourceFile (before ++ [line]) lines

/--
The run does not stop at the line. A number that is too long to be read stops every run.
-/
def Passes (config : Config) (line : String) : Prop :=
  ¬Overlong line ∧ (config.isStrict = true → isRefused config line = false)

theorem openRuns_concat (lines : List String) (line : String)
    : openRuns config (lines ++ [line]) =
        if endsParagraph config line then 0
        else if isCommand line then openRuns config lines
        else openRuns config lines + 1 := by
  unfold openRuns
  rw [List.rtakeWhile_concat]
  cases endsParagraph config line with
  | true => rfl
  | false =>
    cases hline : isCommand line with
    | true => simp [hline]
    | false => simp [hline]

theorem record?_of_command {line : String} {found : Command} (h : command? config line = some found)
    (before : List String)
    : record? config sourceFile before line =
        if found.endsParagraph then
          some {
            level := .debug
            log := Log.qualify "interpreter"
            message := (Machine.place sourceFile before.length).text ++ ": ." ++ found.keyword.name
              ++ " sealed paragraph with " ++ Nat.repr (openRuns config before) ++ " run(s)" }
        else none := by
  unfold record?
  rw [h]

theorem record?_of_text {line : String} {before : List String} (hline : command? config line = none)
    (h : refusal? config line (Machine.place sourceFile before.length) = none)
    : record? config sourceFile before line = none := by
  unfold record?
  dsimp only
  rw [hline, h]

theorem record?_of_malformed {line : String} {before : List String} {error : ParseError}
    (h : refusal? config line (Machine.place sourceFile before.length) = some (.malformed error))
    : record? config sourceFile before line = some (Interpretation.skipRecord error) := by
  have hrefused := isSome_refusal? config line (Machine.place sourceFile before.length)
  rw [h, isRefused, Option.isSome_some, eq_comm, Bool.and_eq_true, Option.isNone_iff_eq_none]
    at hrefused
  unfold record?
  dsimp only
  rw [hrefused.2, h]
  rfl

theorem record?_eq_none {line : String} (hends : endsParagraph config line = false)
    (hline : isRefused config line = false) (before : List String)
    : record? config sourceFile before line = none := by
  rw [← isSome_refusal? config line (Machine.place sourceFile before.length),
    Option.isSome_eq_false_iff, Option.isNone_iff_eq_none] at hline
  cases hcommand : command? config line with
  | none => exact record?_of_text hcommand hline
  | some found =>
    rw [endsParagraph, hcommand, Option.any_some] at hends
    rw [record?_of_command hcommand, hends]
    rfl

theorem level_of_record? {line : String} {before : List String} {record : Log.Record}
    (h : record? config sourceFile before line = some record)
    : record.level = if endsParagraph config line then .debug else .warning := by
  cases hcommand : command? config line with
  | some found =>
    rw [record?_of_command hcommand] at h
    rw [endsParagraph, hcommand, Option.any_some]
    split at h
    . next hends =>
      injection h with h
      rw [← h, hends]
      rfl
    . contradiction
  | none =>
    unfold record? at h
    dsimp only at h
    rw [hcommand] at h
    rw [endsParagraph, hcommand]
    dsimp only at h
    split at h
    . injection h with h
      rw [← h]
      rfl
    . contradiction

theorem level_of_accepted {line : String} {before : List String} {record : Log.Record}
    (hline : isRefused config line = false)
    (h : record? config sourceFile before line = some record)
    : record.level = .debug := by
  cases hends : endsParagraph config line with
  | true => rw [level_of_record? h, hends, if_pos rfl]
  | false =>
    rw [record?_eq_none hends hline] at h
    contradiction

theorem level_of_mem_records {before lines : List String} {record : Log.Record}
    (hlines : ∀ line ∈ lines, isRefused config line = false)
    (h : record ∈ records config sourceFile before lines)
    : record.level = .debug := by
  induction lines generalizing before with
  | nil => contradiction
  | cons line lines ih =>
    obtain ⟨hline, hlines⟩ := List.forall_mem_cons.1 hlines
    rcases List.mem_append.1 h with h | h
    . exact level_of_accepted hline (Option.mem_toList.1 h)
    . exact ih hlines h

/-! ### Commands that end a paragraph -/

theorem length_filter_commands (lines : List String)
    : ((commands config lines).filter Command.endsParagraph).length
        = lines.countP (endsParagraph config) := by
  rw [← List.countP_eq_length_filter, commands, List.countP_filterMap]
  apply List.countP_congr
  intro line _
  unfold endsParagraph
  cases command? config line <;> rfl

theorem filter_commands_cons_of_ends {line : String} {found : Command}
    (hline : command? config line = some found) (hends : found.endsParagraph = true)
    (lines : List String)
    : (commands config (line :: lines)).filter Command.endsParagraph
        = found :: (commands config lines).filter Command.endsParagraph := by
  unfold commands
  rw [List.filterMap_cons_some hline, List.filter_cons_of_pos hends]

theorem filter_commands_cons {line : String} (h : endsParagraph config line = false)
    (lines : List String)
    : (commands config (line :: lines)).filter Command.endsParagraph
        = (commands config lines).filter Command.endsParagraph := by
  unfold commands
  cases hline : command? config line with
  | none => rw [List.filterMap_cons_none hline]
  | some found =>
    rw [endsParagraph, hline, Option.any_some] at h
    rw [List.filterMap_cons_some hline, List.filter_cons_of_neg (by rw [h]; decide)]

end Line

namespace Machine

theorem perform_log (machine : Machine) (command : Command) (location : SourceLocation)
    : (machine.perform config command location).log =
        if command.endsParagraph then
          [sealRecord command.keyword location machine.paragraph.sealed]
        else [] := by
  cases command <;> rfl

/--
The open paragraph has as many runs as it has to have behind some lines.
-/
def IsBehind (machine : Machine) (config : Config) (before : List String) : Prop :=
  machine.paragraph.runs.length = Line.openRuns config before

theorem isBehind_start (sourceFile : Option String)
    : (start sourceFile).IsBehind config [] :=
  rfl

theorem IsBehind.advance {machine : Machine} {before : List String}
    (h : machine.IsBehind config before) (line : String) (location : SourceLocation)
    : (machine.advance config line location).machine.IsBehind config (before ++ [line]) := by
  unfold IsBehind at h ⊢
  rw [advance_paragraph, Line.openRuns_concat]
  cases Line.endsParagraph config line with
  | true => rfl
  | false =>
    cases Line.isCommand line with
    | true => exact h
    | false => simp [h]

theorem IsBehind.record?_eq {machine : Machine} {before : List String}
    (h : machine.IsBehind config before) {line : String} {found : Command}
    (hline : Line.command? config line = some found)
    : Line.record? config sourceFile before line =
        if found.endsParagraph then
          some (sealRecord found.keyword (place sourceFile before.length) machine.paragraph.sealed)
        else none := by
  rw [Line.record?_of_command hline, ← h]
  rfl

theorem IsBehind.advance_log {machine : Machine} {before : List String}
    (h : machine.IsBehind config before) {line : String}
    (hline : Line.refusal? config line (place sourceFile before.length) = none)
    : (machine.advance config line (place sourceFile before.length)).log
        = (Line.record? config sourceFile before line).toList := by
  rcases advance_cases config machine line (place sourceFile before.length)
    with ⟨_, hnone, hadvance⟩ | ⟨found, _, hfound, hadvance⟩ | ⟨_, hnone, hadvance⟩
  . rw [hadvance, Line.record?_of_text hnone hline]
    rfl
  . rw [hadvance, perform_log, h.record?_eq hfound]
    split
    . rfl
    . rfl
  . rw [hadvance, Line.record?_of_text hnone hline]
    rfl

end Machine

namespace Interpretation

variable {machine : Machine} {draft : Draft} {before lines : List String}

-- A run that goes on leaves the record of the line, and the machine is then behind it.
theorem go_cons_cases (hmachine : machine.IsBehind config before) (draft : Draft) (line : String)
    (lines : List String)
    : (Line.Passes config line
        ∧ ∃ (next : Machine) (others : Draft), next.IsBehind config (before ++ [line])
          ∧ go config sourceFile before.length machine draft (line :: lines)
              =
            (go config sourceFile (before ++ [line]).length next others lines).after
              (Line.record? config sourceFile before line).toList)
      ∨ ∃ refusal,
          Line.refusal? config line (Machine.place sourceFile before.length) = some refusal
          ∧ go config sourceFile before.length machine draft (line :: lines)
              = { result := .error refusal, log := [] } := by
  have hnext := hmachine.advance line (Machine.place sourceFile before.length)
  rw [List.length_append, List.length_singleton]
  cases hrefusal : Line.refusal? config line (Machine.place sourceFile before.length) with
  | none =>
    left
    rw [go_cons_eq_of_accepted hrefusal, hmachine.advance_log hrefusal]
    refine ⟨⟨?_, ?_⟩, _, _, hnext, rfl⟩
    . rw [← Line.refusal?_eq_tooLong_iff, hrefusal]
      exact nofun
    . intro _
      rw [← Line.isSome_refusal?, hrefusal]
      rfl
  | some refusal =>
    rw [Machine.advance_of_refused hrefusal] at hnext
    cases refusal with
    | tooLong => exact .inr ⟨_, rfl, go_cons_eq_of_tooLong hrefusal⟩
    | malformed error =>
      rw [go_cons_eq_of_malformed hrefusal]
      cases hstrict : config.isStrict with
      | true => exact .inr ⟨_, rfl, rfl⟩
      | false =>
        left
        rw [Line.record?_of_malformed hrefusal]
        refine ⟨⟨?_, ?_⟩, _, _, hnext, rfl⟩
        . rw [← Line.refusal?_eq_tooLong_iff, hrefusal]
          exact nofun
        . rw [hstrict]
          exact nofun

theorem log_go_of_ok (hmachine : machine.IsBehind config before) {document : Document}
    (h : (go config sourceFile before.length machine draft lines).result = .ok document)
    : (go config sourceFile before.length machine draft lines).log
        =
      Line.records config sourceFile before lines
        ++ [doneRecord (before.length + lines.length) document] := by
  induction lines generalizing before machine draft with
  | nil =>
    simp only [go, Except.ok.injEq] at h ⊢
    rw [h]
    rfl
  | cons line lines ih =>
    rcases go_cons_cases hmachine draft line lines
      with ⟨_, next, others, hnext, hgo⟩ | ⟨refusal, _, hgo⟩
    . have hlength : (before ++ [line]).length + lines.length
          = before.length + (line :: lines).length := by
        rw [List.length_append, List.length_singleton, List.length_cons]
        omega
      rw [hgo] at h ⊢
      unfold after Line.records
      dsimp only
      rw [ih hnext h, List.append_assoc, hlength]
    . rw [hgo] at h
      contradiction

theorem log_go_of_error (hmachine : machine.IsBehind config before)
    {refusal : Refusal ParseError}
    (h : (go config sourceFile before.length machine draft lines).result = .error refusal)
    : ∃ seen line behind, lines = seen ++ line :: behind
        ∧ (∀ other ∈ seen, Line.Passes config other)
        ∧ Line.refusal? config line (Machine.place sourceFile (before ++ seen).length)
            = some refusal
        ∧ (go config sourceFile before.length machine draft lines).log
            = Line.records config sourceFile before seen := by
  induction lines generalizing before machine draft with
  | nil => contradiction
  | cons line lines ih =>
    rcases go_cons_cases hmachine draft line lines
      with ⟨hline, next, others, hnext, hgo⟩ | ⟨found, hfound, hgo⟩
    . rw [hgo] at h ⊢
      obtain ⟨seen, last, behind, rfl, hseen, hlast, hlog⟩ := ih hnext h
      rw [List.append_assoc] at hlast
      refine ⟨line :: seen, last, behind, rfl, List.forall_mem_cons.2 ⟨hline, hseen⟩, hlast, ?_⟩
      unfold after Line.records
      dsimp only
      rw [hlog]
    . rw [hgo] at h ⊢
      injection h with h
      subst h
      rw [← List.append_nil before] at hfound
      exact ⟨[], line, lines, rfl, by simp, hfound, rfl⟩

/-! ### What the records say of the document -/

-- The next paragraph opens at the command that seals the open one.
theorem debug_records (hmachine : machine.IsBehind config before)
    : (Line.records config sourceFile before lines).filter (·.level == .debug)
        =
      List.zipWith
        (fun pair command => Machine.sealRecord command.keyword pair.2.location pair.1)
        ((Machine.paragraphs config sourceFile before.length machine lines).zip
          (Machine.paragraphs config sourceFile before.length machine lines).tail)
        ((Line.commands config lines).filter Command.endsParagraph) := by
  induction lines generalizing before machine with
  | nil => rfl
  | cons line lines ih =>
    have hnext := ih (hmachine.advance line (Machine.place sourceFile before.length))
    rw [List.length_append, List.length_singleton] at hnext
    unfold Line.records
    rw [List.filter_append, hnext, Machine.paragraphs_cons, Machine.advance_emitted]
    cases hends : Line.endsParagraph config line with
    | true =>
      obtain ⟨found, hfound, hfoundEnds⟩ := (Option.any_eq_true _ _).1 hends
      obtain ⟨added, others, hparagraphs⟩ := Machine.exists_paragraphs_eq_cons config sourceFile
        (before.length + 1)
        (machine.advance config line (Machine.place sourceFile before.length)).machine lines
      have hlocation : (machine.advance config line
          (Machine.place sourceFile before.length)).machine.finish.location
            = Machine.place sourceFile before.length := by
        rw [Machine.finish, OpenParagraph.sealed, Machine.advance_paragraph, hends]
        rfl
      rw [Line.filter_commands_cons_of_ends hfound hfoundEnds, hmachine.record?_eq hfound,
        if_pos hfoundEnds, hparagraphs]
      simp [Machine.sealRecord, hlocation]
    | false =>
      have hnone : (Line.record? config sourceFile before line).toList.filter (·.level == .debug)
          = [] := by
        rw [List.filter_eq_nil_iff]
        intro record hrecord
        rw [Line.level_of_record? (Option.mem_toList.1 hrecord), hends]
        decide
      rw [Line.filter_commands_cons hends, hnone]
      rfl

theorem warning_records {errors : List ParseError}
    (h : refusals config sourceFile before.length lines = errors.map .malformed)
    : (Line.records config sourceFile before lines).filter (·.level == .warning)
        = errors.map skipRecord := by
  induction lines generalizing before errors with
  | nil =>
    obtain rfl : errors = [] := List.map_eq_nil_iff.1 h.symm
    rfl
  | cons line lines ih =>
    have hlength : before.length + 1 = (before ++ [line]).length := by simp
    unfold refusals at h
    unfold Line.records
    rw [hlength] at h
    rw [List.filter_append]
    cases hrefusal : Line.refusal? config line (Machine.place sourceFile before.length) with
    | none =>
      have hnone : (Line.record? config sourceFile before line).toList.filter (·.level == .warning)
          = [] := by
        rw [List.filter_eq_nil_iff]
        intro record hrecord
        rw [Line.level_of_accepted _ (Option.mem_toList.1 hrecord)]
        . decide
        . rw [← Line.isSome_refusal?, hrefusal]
          rfl
      rw [hrefusal, Option.toList_none, List.nil_append] at h
      rw [hnone, ih h]
      rfl
    | some refusal =>
      rw [hrefusal, Option.toList_some, List.singleton_append] at h
      obtain ⟨error, others, rfl, rfl, hothers⟩ := List.map_eq_cons_iff.1 h.symm
      rw [Line.record?_of_malformed hrefusal, ih hothers.symm]
      rfl

/--
The records of a run at one level.
-/
def recorded (run : Interpretation) (level : Log.Level) : List Log.Record :=
  run.log.filter (·.level == level)

end Interpretation

variable {lines : List String} {document : Document}

theorem interpret_log_eq (h : (interpret config lines sourceFile).result = .ok document)
    : (interpret config lines sourceFile).log
        =
      Line.records config sourceFile [] lines
        ++ [Interpretation.doneRecord lines.length document] := by
  rw [← Nat.zero_add lines.length]
  exact Interpretation.log_go_of_ok (Machine.isBehind_start sourceFile) h

theorem recorded_debug (h : (interpret config lines sourceFile).result = .ok document)
    : (interpret config lines sourceFile).recorded .debug
        =
      List.zipWith
        (fun pair command => Machine.sealRecord command.keyword pair.2.location pair.1)
        (document.paragraphs.zip document.paragraphs.tail)
        ((Line.commands config lines).filter Command.endsParagraph) := by
  rw [Interpretation.recorded, interpret_log_eq h, List.filter_append,
    Interpretation.debug_records (Machine.isBehind_start sourceFile), interpret_paragraphs h]
  exact List.append_nil _

theorem length_recorded_debug (h : (interpret config lines sourceFile).result = .ok document)
    : ((interpret config lines sourceFile).recorded .debug).length + 1
        = document.paragraphs.length := by
  rw [recorded_debug h, List.length_zipWith, List.length_zip, List.length_tail,
    Line.length_filter_commands, interpret_paragraphs h, Machine.length_paragraphs]
  omega

theorem getElem?_recorded_debug (h : (interpret config lines sourceFile).result = .ok document)
    {i : Nat} {earlier later : Paragraph} (hearlier : document.paragraphs[i]? = some earlier)
    (hlater : document.paragraphs[i + 1]? = some later)
    : ∃ command, ((Line.commands config lines).filter Command.endsParagraph)[i]? = some command
        ∧ ((interpret config lines sourceFile).recorded .debug)[i]?
            = some (Machine.sealRecord command.keyword later.location earlier) := by
  have hi : i < ((Line.commands config lines).filter Command.endsParagraph).length := by
    obtain ⟨hlt, _⟩ := List.getElem?_eq_some_iff.1 hlater
    rw [interpret_paragraphs h, Machine.length_paragraphs] at hlt
    rw [Line.length_filter_commands]
    omega
  have hpair : (document.paragraphs.zip document.paragraphs.tail)[i]? = some (earlier, later) := by
    rw [List.getElem?_zip_eq_some, List.getElem?_tail]
    exact ⟨hearlier, hlater⟩
  refine ⟨_, List.getElem?_eq_getElem hi, ?_⟩
  rw [recorded_debug h, List.getElem?_zipWith, hpair, List.getElem?_eq_getElem hi]

theorem message_recorded_warning (h : (interpret config lines sourceFile).result = .ok document)
    : ((interpret config lines sourceFile).recorded .warning).map (·.message)
        = document.diagnostics.map fun diagnostic => "Skipping line: " ++ diagnostic.message := by
  obtain ⟨errors, herrors, _, rfl⟩ := interpret_eq_ok_iff.1 h
  rw [Interpretation.recorded, interpret_log_eq h, List.filter_append,
    Interpretation.warning_records herrors]
  simp [Interpretation.documentOf, Interpretation.close, Interpretation.doneRecord,
    Interpretation.skipRecord, Interpretation.diagnostic]

/--
A run that makes a document records each command that ends a paragraph and each line that it skips,
in the order of the lines, and then what it made. What it records of a paragraph is the number of
its runs and where the next one begins. A run that stops at a line has recorded what came before
that line, which is nothing but the commands that end a paragraph if the run is strict.
-/
theorem interpret_log (config : Config) (lines : List String) (sourceFile : Option String)
    : (∀ document,
          (interpret config lines sourceFile).result = .ok document
            →
          (interpret config lines sourceFile).log
              =
            Line.records config sourceFile [] lines ++ [{
              level := .info
              log := Log.qualify "interpreter"
              message := "Interpreted " ++ Nat.repr lines.length ++ " line(s) into "
                ++ Nat.repr document.paragraphs.length ++ " paragraph(s)"
                ++ (if document.diagnostics = [] then ""
                  else ", " ++ Nat.repr document.diagnostics.length ++ " line(s) skipped") }]
          ∧ ((interpret config lines sourceFile).recorded .debug).length + 1
              = document.paragraphs.length
          ∧ (∀ (i : Nat) (earlier later : Paragraph),
              document.paragraphs[i]? = some earlier
                →
              document.paragraphs[i + 1]? = some later
                →
              ∃ command,
                ((Line.commands config lines).filter Command.endsParagraph)[i]? = some command
                ∧ ((interpret config lines sourceFile).recorded .debug)[i]? = some {
                    level := .debug
                    log := Log.qualify "interpreter"
                    message := later.location.text ++ ": ." ++ command.keyword.name
                      ++ " sealed paragraph with " ++ Nat.repr earlier.runs.length ++ " run(s)" })
          ∧ ((interpret config lines sourceFile).recorded .warning).map (·.message)
              = document.diagnostics.map fun diagnostic => "Skipping line: " ++ diagnostic.message)
      ∧ ∀ refusal,
          (interpret config lines sourceFile).result = .error refusal
            →
          ∃ before line behind, lines = before ++ line :: behind
            ∧ (∀ other ∈ before, Line.Passes config other)
            ∧ Line.refusal? config line (Machine.place sourceFile before.length) = some refusal
            ∧ (interpret config lines sourceFile).log = Line.records config sourceFile [] before
            ∧ (config.isStrict = true
                → ∀ record ∈ (interpret config lines sourceFile).log, record.level = .debug) := by
  have hstart : (Machine.start sourceFile).IsBehind config [] := Machine.isBehind_start sourceFile
  constructor
  . intro document h
    refine ⟨?_, length_recorded_debug h, ?_, message_recorded_warning h⟩
    . simp only [interpret_log_eq h, Interpretation.doneRecord, List.isEmpty_iff]
    . intro i earlier later hearlier hlater
      exact getElem?_recorded_debug h hearlier hlater
  . intro refusal h
    obtain ⟨before, line, behind, hlines, hbefore, hline, hlog⟩ :=
      Interpretation.log_go_of_error hstart h
    change (interpret config lines sourceFile).log = _ at hlog
    refine ⟨before, line, behind, hlines, hbefore, hline, hlog, ?_⟩
    intro hstrict record hrecord
    rw [hlog] at hrecord
    exact Line.level_of_mem_records (fun other hother => (hbefore other hother).2 hstrict) hrecord

theorem interpret_log_of_skipped_line
    : ∃ document,
        (interpret { strict := .bool false } ["a", ".no", ".indent 2", "b"] (some "f")).result
            = .ok document
        ∧ document.paragraphs.length = 2
        ∧ (interpret { strict := .bool false } ["a", ".no", ".indent 2", "b"] (some "f")).log.map
              (·.message)
            = ["Skipping line: f:2: unknown directive '.no'",
                "f:3: .indent sealed paragraph with 1 run(s)",
                "Interpreted 4 line(s) into 2 paragraph(s), 1 line(s) skipped"] := by
  obtain ⟨document, h, hlength, hdiagnostics⟩ : ∃ document,
      (interpret { strict := .bool false } ["a", ".no", ".indent 2", "b"] (some "f")).result
          = .ok document
      ∧ document.paragraphs.length = 2
      ∧ document.diagnostics.length = 1 := ⟨_, rfl, rfl, rfl⟩
  obtain ⟨hlog, _⟩ := (interpret_log { strict := .bool false } ["a", ".no", ".indent 2", "b"]
    (some "f")).1 document h
  have hne : document.diagnostics ≠ [] := by
    rw [← List.length_pos_iff, hdiagnostics]
    decide
  refine ⟨document, h, hlength, ?_⟩
  rw [hlog, hlength, hdiagnostics, if_neg hne]
  rfl

end DotFormat
