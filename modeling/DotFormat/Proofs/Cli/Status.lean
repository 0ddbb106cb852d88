import DotFormat.Proofs.Cli.Exit
import DotFormat.Proofs.LineEnd

/-!
This module contains which status a run of the command line ends with, and what it says. Several
things can be wrong at once, and the first one that the run comes to decides: first the paths, then
the input, then its lines, and the output last.
-/

namespace DotFormat

theorem Text.repr_inj {m n : Nat} : Nat.repr m = Nat.repr n ↔ m = n := by
  rw [Nat.repr_eq_ofList_toDigits, Nat.repr_eq_ofList_toDigits, String.ofList_inj,
    Json.toDigits_injective.eq_iff]

theorem Path.parent_eq_self {path : Path} (h : path.parts = []) : path.parent = path := by
  unfold Path.parent
  rw [h, List.dropLast_nil, ← h]

namespace Disk

variable {disk : Disk} {path : Path}

/--
A path leads to a folder, however long it is.
-/
def leadsToFolder (disk : Disk) (path : Path) : Bool :=
  (disk.tree.walk (path.start disk.current) path.parts).any disk.tree.isFolder

/--
The name of a path is too long for an output, or the path is too long to be followed.
-/
def isTooLong (path : Path) : Bool :=
  nameLimit < path.name.utf8ByteSize || pathLimit < path.text.utf8ByteSize

theorem isTooLong_eq_false_iff
    : isTooLong path = false
        ↔ path.name.utf8ByteSize ≤ nameLimit ∧ path.text.utf8ByteSize ≤ pathLimit := by
  unfold isTooLong
  rw [Bool.or_eq_false_iff, decide_eq_false_iff_not, decide_eq_false_iff_not, Nat.not_lt,
    Nat.not_lt]

theorem isFolder_of_leadsToFolder (h : disk.leadsToFolder path = true)
    : disk.tree.isFolder (path.resolve disk.current) = true := by
  obtain ⟨place, hwalk, hplace⟩ := (Option.any_eq_true _ _).1 h
  rw [FileTree.eq_foldl_of_walk hwalk] at hplace
  exact hplace

theorem exists_takes_iff
    : (∃ place, disk.Takes path place)
        ↔
      path.text.utf8ByteSize ≤ pathLimit
        ∧ (disk.tree.walk (path.start disk.current) path.parts).isSome = true
        ∧ disk.leadsToFolder path = false := by
  unfold Takes locate leadsToFolder
  split
  . next hlength =>
    cases disk.tree.walk (path.start disk.current) path.parts <;> simp [hlength]
  . next hlength => simp [hlength]

/--
An output can be opened and moved into place exactly if its parent is a folder and it is none
itself, as far as its name and its path are not too long.
-/
theorem opens_and_takes_iff
    : (disk.Opens path ∧ ∃ place, disk.Takes path place)
        ↔
      path.hasNul = false ∧ disk.leadsToFolder path.parent = true
        ∧ disk.leadsToFolder path = false ∧ isTooLong path = false := by
  rw [exists_takes_iff, isTooLong_eq_false_iff]
  by_cases hparts : path.parts = []
  . have hself : disk.leadsToFolder path = disk.tree.isFolder (path.resolve disk.current) := by
      unfold leadsToFolder Path.resolve
      rw [hparts]
      rfl
    have hparent := Path.parent_eq_self hparts
    constructor
    . rintro ⟨⟨_, hopens, _⟩, _, _, hfolder⟩
      rw [hparent, ← hself, hfolder] at hopens
      contradiction
    . rintro ⟨_, hopens, hfolder, _⟩
      rw [hparent, hfolder] at hopens
      contradiction
  . rw [FileTree.isSome_walk hparts]
    constructor
    . rintro ⟨⟨hnul, _, hname⟩, hpath, hparent, hfolder⟩
      exact ⟨hnul, hparent, hfolder, hname, hpath⟩
    . rintro ⟨hnul, hparent, hfolder, hname, hpath⟩
      exact ⟨⟨hnul, isFolder_of_leadsToFolder hparent, hname⟩, hpath, hparent, hfolder⟩

end Disk

namespace Line

/--
The line begins with a dot and is no command.
-/
def isRejected (line : String) : Bool :=
  !(read line .beforeFirst).isOk

theorem isRejected_eq {config : Config} (halias : config.acceptsAlias = true) (line : String)
    : isRejected line = isRefused config line := by
  unfold isRejected
  rw [← isSome_refusal? config line .beforeFirst, refusal?, halias]
  cases hline : isCommand line with
  | true =>
    rw [read_of_dropLineEnd_eq hline rfl]
    cases read (Text.dropLineEnd line) .beforeFirst true with
    | ok found => rfl
    | error refusal => rfl
  | false =>
    unfold read
    rw [isCommand_dropLineEnd, hline]
    rfl

end Line

namespace Cli

namespace Order

/--
The text of the input, if the input is a file with a text.
-/
def input? (order : Order) (disk : Disk) : Option String :=
  match disk.find? order.source with
  | some (.file bytes) => String.fromUTF8? bytes
  | _ => none

/--
A run that is not lenient stops if some line is rejected.
-/
def stopsAt (order : Order) (lines : List String) : Bool :=
  !order.lenient && lines.any Line.isRejected

/--
The status that a run ends with if it ends with one. An output in the place of the input is looked
at first, then whether the input is there, then its lines unless the run is lenient, and then
whether the output can be written.
-/
def status (order : Order) (disk : Disk) (output : Path) : Status :=
  if output.resolve disk.current = order.source.resolve disk.current then .failure
  else
    match order.input? disk with
    | none => .failure
    | some input =>
      if order.stopsAt (Text.splitLines input) then .malformedInput
      else if !disk.leadsToFolder output.parent || disk.leadsToFolder output then .failure
      else if Disk.isTooLong output then .failure
      else .ok

theorem input?_eq_some_iff {order : Order} {disk : Disk} {input : String}
    : order.input? disk = some input ↔ order.Reads disk input := by
  unfold input? Reads
  cases disk.find? order.source with
  | none => simp
  | some entry =>
    cases entry with
    | file bytes => simp
    | folder => simp

end Order

/--
What a run says that ends with a failure: its output is empty, and among its errors is one line
that says what is wrong.
-/
structure Outcome.Complains (outcome : Outcome) : Prop where
  output : outcome.output = []
  error : ∃ message, "dotpress: error: " ++ message ∈ outcome.errors

/--
What a run says that ends well: the path of the output, and how many lines it has skipped if there
are any.
-/
structure Order.Announces (order : Order) (disk : Disk) (output : Path) (outcome : Outcome) :
    Prop where
  output : outcome.output = ["Document successfully compiled at " ++ output.text]
  skipped : ∃ config input document,
    order.config = .ok config
      ∧ order.Reads disk input
      ∧ (interpretText config input (some order.source.text)).result = .ok document
      ∧ ∀ n : Nat, "dotpress: " ++ Nat.repr n ++ " line(s) skipped" ∈ outcome.errors
          ↔ n = document.diagnostics.length ∧ 0 < n

/--
How a run of an order ends that ends with a status.
-/
structure Order.Ends (order : Order) (disk : Disk) (output : Path) (outcome : Outcome) : Prop where
  exit : outcome.exit = .ok (order.status disk output)
  announces : order.status disk output = .ok → order.Announces disk output outcome
  complains : order.status disk output ≠ .ok → outcome.Complains

variable {order : Order} {config : Config} {disk : Disk} {output : Path}

/-! ### What is said -/

theorem errorLine_eq (message : String) : errorLine message = "dotpress: error: " ++ message := by
  unfold errorLine Log.family
  rfl

theorem complains_of_errorLine {outcome : Outcome} {message : String} {log : List String}
    (houtput : outcome.output = []) (h : outcome.errors = log ++ [errorLine message])
    : outcome.Complains := by
  refine ⟨houtput, message, ?_⟩
  rw [h, ← errorLine_eq]
  exact List.mem_append_right _ (List.mem_singleton_self _)

-- A record is shown behind its level, which stands in brackets.
theorem head?_of_mem_logLines {records : List Log.Record} {line : String}
    (h : line ∈ order.logLines records) : line.toList.head? = some '[' := by
  obtain ⟨record, _, rfl⟩ := List.mem_map.1 h
  unfold Log.Record.text
  simp only [String.toList_append]
  rfl

theorem skipped_not_mem_logLines (records : List Log.Record) (n : Nat)
    : "dotpress: " ++ Nat.repr n ++ " line(s) skipped" ∉ order.logLines records := by
  intro h
  have hrecord := head?_of_mem_logLines h
  have hskipped : ("dotpress: " ++ Nat.repr n ++ " line(s) skipped").toList.head? = some 'd' := by
    simp only [String.toList_append]
    rfl
  rw [hskipped] at hrecord
  contradiction

theorem skipped_mem_iff (document : Document) (log : List Log.Record) (tree : FileTree) (n : Nat)
    : "dotpress: " ++ Nat.repr n ++ " line(s) skipped"
          ∈ (doneOutcome order output document log tree).errors
        ↔ n = document.diagnostics.length ∧ 0 < n := by
  have hfamily : Log.family ++ ": " = "dotpress: " := by
    rfl
  unfold doneOutcome
  dsimp only
  rw [List.mem_append, or_iff_right (skipped_not_mem_logLines log n), hfamily]
  cases hdiagnostics : document.diagnostics with
  | nil =>
    simp only [List.isEmpty_nil, if_true, List.not_mem_nil, List.length_nil, false_iff]
    omega
  | cons diagnostic others =>
    simp only [List.isEmpty_cons, Bool.false_eq_true, if_false, List.mem_singleton,
      String.append_left_inj, String.append_right_inj, Text.repr_inj, List.length_cons]
    omega

theorem ends_of_complains {outcome : Outcome} (status : Status) (hexit : outcome.exit = .ok status)
    (hstatus : order.status disk output = status) (hne : status ≠ .ok) (h : outcome.Complains)
    : order.Ends disk output outcome := by
  refine ⟨?_, ?_, fun _ => h⟩
  . rw [hstatus]
    exact hexit
  . intro hok
    exact absurd (hstatus.symm.trans hok) hne

/-! ### The status -/

theorem status_of_unread (hproceeds : order.Proceeds disk output) {failure : FileFailure ε}
    (h : disk.readText order.source = .error failure) : order.status disk output = .failure := by
  unfold Order.status
  rw [if_neg hproceeds.ne]
  cases hinput : order.input? disk with
  | none => rfl
  | some input =>
    rw [(Order.input?_eq_some_iff.1 hinput).readText hproceeds.source] at h
    contradiction

theorem status_of_input (hne : output.resolve disk.current ≠ order.source.resolve disk.current)
    {input : String} (hreads : order.Reads disk input)
    : order.status disk output =
        if order.stopsAt (Text.splitLines input) then .malformedInput
        else if !disk.leadsToFolder output.parent || disk.leadsToFolder output then .failure
        else if Disk.isTooLong output then .failure
        else .ok := by
  unfold Order.status
  rw [if_neg hne, Order.input?_eq_some_iff.2 hreads]

theorem stopsAt_eq (hconfig : order.config = .ok config) (lines : List String)
    (sourceFile : Option String)
    : order.stopsAt lines
        = (config.isStrict
          && !(Interpretation.refusals config sourceFile 0 lines).isEmpty) := by
  have hrejected : Line.isRejected = Line.isRefused config := by
    obtain ⟨units, _, rfl⟩ := Order.config_eq_ok hconfig
    exact funext (Line.isRejected_eq rfl)
  have hlines : lines.any Line.isRejected
      = !(Interpretation.refusals config sourceFile 0 lines).isEmpty := by
    rw [hrejected, Bool.eq_iff_iff, List.any_eq_true, ← List.countP_pos_iff,
      ← Interpretation.length_refusals sourceFile 0, List.length_pos_iff, Bool.not_eq_true',
      List.isEmpty_eq_false_iff]
  unfold Order.stopsAt
  rw [hlines, Order.isStrict_of_config hconfig]

theorem stopsAt_of_ok (hconfig : order.config = .ok config) {lines : List String}
    {document : Document} {sourceFile : Option String}
    (h : (interpret config lines sourceFile).result = .ok document)
    : order.stopsAt lines = false := by
  obtain ⟨errors, herrors, hnil, _⟩ := interpret_eq_ok_iff.1 h
  rw [stopsAt_eq hconfig lines sourceFile, herrors]
  cases hstrict : config.isStrict with
  | true =>
    rw [hnil hstrict]
    rfl
  | false => rfl

theorem stopsAt_of_malformed (hconfig : order.config = .ok config) {lines : List String}
    {error : ParseError} {sourceFile : Option String}
    (h : (interpret config lines sourceFile).result = .error (.malformed error))
    : order.stopsAt lines = true := by
  rw [stopsAt_eq hconfig lines sourceFile]
  cases hstrict : config.isStrict with
  | true =>
    rw [interpret_of_strict hstrict] at h
    cases hrefusals : Interpretation.refusals config sourceFile 0 lines with
    | nil =>
      rw [hrefusals] at h
      contradiction
    | cons refusal others => rfl
  | false =>
    by_cases hlong : .tooLong ∈ Interpretation.refusals config sourceFile 0 lines
    . rw [interpret_of_lenient_of_tooLong hstrict hlong] at h
      cases h
    . obtain ⟨errors, herrors⟩ := Refusal.exists_map_malformed hlong
      rw [interpret_of_lenient hstrict herrors] at h
      contradiction

section

variable {input : String} (hproceeds : order.Proceeds disk output) (hreads : order.Reads disk input)
  (hlines : order.stopsAt (Text.splitLines input) = false)
include hproceeds hreads hlines

theorem status_of_written (h : disk.Opens output ∧ ∃ place, disk.Takes output place)
    : order.status disk output = .ok := by
  obtain ⟨_, hparent, hfolder, hlong⟩ := Disk.opens_and_takes_iff.1 h
  rw [status_of_input hproceeds.ne hreads, hlines, hparent, hfolder, hlong]
  rfl

theorem status_of_unwritten (h : ¬(disk.Opens output ∧ ∃ place, disk.Takes output place))
    : order.status disk output = .failure := by
  rw [Disk.opens_and_takes_iff] at h
  rw [status_of_input hproceeds.ne hreads, hlines]
  cases hparent : disk.leadsToFolder output.parent with
  | false => rfl
  | true =>
    cases hfolder : disk.leadsToFolder output with
    | true => rfl
    | false =>
      cases hlong : Disk.isTooLong output with
      | true => rfl
      | false => exact absurd ⟨hproceeds.output, hparent, hfolder, hlong⟩ h

end

/-! ### The end of a run -/

-- The renderer is the only part of an output that can end a run without a status.
theorem nodeFails_cases {document : Document} {e : FileFailure RenderError}
    (hnul : output.hasNul = false)
    (h : Disk.NodeFails disk output (order.renderer document.toNode) e)
    : e = .inside (.value .tooLong)
        ∨ e = Disk.unwritable output
          ∧ ¬(disk.Opens output ∧ ∃ place, disk.Takes output place) := by
  generalize houtcome : order.renderer document.toNode = outcome at h
  cases h with
  | nul htrue =>
    rw [hnul] at htrue
    contradiction
  | unopened _ hopens => exact .inr ⟨rfl, fun h => hopens h.1⟩
  | device hopens =>
    obtain ⟨hdevice, _⟩ := Order.renderer_eq_error_iff.1 houtcome
    contradiction
  | raised hopens hdevice =>
    obtain ⟨rfl, _⟩ := Order.renderer_eq_error_iff.1 houtcome
    exact .inl rfl
  | taken hopens htaken => exact .inr ⟨rfl, fun h => not_exists.2 htaken h.2⟩

theorem format_ends (hconfig : order.config = .ok config) (hproceeds : order.Proceeds disk output)
    {status : Status}
    (hexit : (format order config order.source output disk).exit = .ok status)
    : order.Ends disk output (format order config order.source output disk) := by
  unfold format at hexit ⊢
  rcases disk.readText_cases hproceeds.source with ⟨input, hread⟩ | ⟨error, hread⟩
  . have hreads : order.Reads disk input := fromUTF8?_of_readText hread
    rw [hread] at hexit ⊢
    dsimp only at hexit ⊢
    split at hexit
    . next refusal hresult =>
      cases refusal with
      | tooLong => contradiction
      | malformed error =>
        apply ends_of_complains .malformedInput rfl _ nofun (complains_of_errorLine rfl rfl)
        rw [status_of_input hproceeds.ne hreads, stopsAt_of_malformed hconfig hresult]
        rfl
    . next document hresult =>
      have hlines := stopsAt_of_ok hconfig hresult
      cases hwritten : (disk.writeNode output order.renderer document.toNode).result with
      | error e =>
        rw [hwritten] at hexit
        rcases nodeFails_cases hproceeds.output (Disk.writeNode_error_iff.1 ⟨rfl, hwritten⟩).2
          with rfl | ⟨rfl, hunwritten⟩
        . contradiction
        . apply ends_of_complains .failure rfl _ nofun (complains_of_errorLine rfl rfl)
          exact status_of_unwritten hproceeds hreads hlines hunwritten
      | ok _ =>
        have hcommits := Disk.writeNode_ok_iff.1 ⟨rfl, hwritten⟩
        obtain ⟨_, place, _, htakes, _⟩ := hcommits.target
        have hstatus := status_of_written hproceeds hreads hlines ⟨hcommits.opens, place, htakes⟩
        refine ⟨?_, ?_, ?_⟩
        . rw [hstatus]
          rfl
        . intro _
          exact ⟨rfl, config, input, document, hconfig, hreads, hresult,
            skipped_mem_iff document _ _⟩
        . intro hne
          exact absurd hstatus hne
  . rw [hread]
    apply ends_of_complains .failure rfl _ nofun (complains_of_errorLine rfl rfl)
    exact status_of_unread hproceeds hread

theorem carryOut_ends (hconfig : order.config = .ok config) {status : Status}
    (hexit : (carryOut order config disk).exit = .ok status)
    : ∃ output, order.outputPath order.source = .ok output
        ∧ order.Ends disk output (carryOut order config disk) := by
  unfold carryOut at hexit ⊢
  dsimp only at hexit ⊢
  split at hexit
  . contradiction
  . next output hpath =>
    split at hexit
    . contradiction
    . next hnul =>
      rw [if_neg hnul]
      refine ⟨output, hpath, ?_⟩
      split at hexit
      . next heq =>
        rw [if_pos heq]
        apply ends_of_complains .failure rfl _ nofun
        . exact complains_of_errorLine rfl (List.nil_append _).symm
        . exact if_pos heq
      . next hne =>
        simp only [Bool.or_eq_true, not_or, Bool.not_eq_true] at hnul
        rw [if_neg hne]
        exact format_ends hconfig ⟨hpath, hne, hnul.1, hnul.2⟩ hexit

end Cli

end DotFormat
