import DotFormat.Proofs.Cli.Run
import DotFormat.Proofs.Renderable

/-!
This module contains how the command line ends. A run ends with one of three statuses unless one of four
things happens: the input has no name that an output could be named after, a path has a character that
no file name has, a line has a number that is too long to be read, or the document has one that is too
long to be written.
-/

namespace DotFormat.Cli

/--
The numbers of a document that a form of output has.
-/
def OutputForm.integers (form : OutputForm) (document : Document) : List Int :=
  match form with
  | .html => document.paragraphs.map Html.points
  | .json => document.integers

namespace Order

/--
A run goes on to its input: it has an output in a place of its own, and both paths can name files.
-/
structure Proceeds (order : Order) (disk : Disk) (output : Path) : Prop where
  path : order.outputPath order.source = .ok output
  ne : output.resolve disk.current ≠ order.source.resolve disk.current
  output : output.hasNul = false
  source : order.source.hasNul = false

/--
The input is there and is a text.
-/
def Reads (order : Order) (disk : Disk) (input : String) : Prop :=
  ∃ bytes, disk.find? order.source = some (.file bytes) ∧ String.fromUTF8? bytes = some input

/--
What makes a run end without a status.
-/
inductive Escapes (order : Order) (disk : Disk) : Escape → Prop where
  | emptyName (hname : order.source.name = "")
    (houtput : order.output = none ∨ order.output = some "") : Escapes order disk .emptyName
  | nul {output : Path} (hpath : order.outputPath order.source = .ok output)
    (hnul : output.hasNul = true ∨ order.source.hasNul = true) : Escapes order disk .nul
  /-- A strict run comes to the line only if it accepts those before it. -/
  | tooLong {config : Config} {output : Path} {input line : String} {before behind : List String}
    (hconfig : order.config = .ok config) (hproceeds : order.Proceeds disk output)
    (hreads : order.Reads disk input) (hlines : Text.splitLines input = before ++ line :: behind)
    (hline : Line.Overlong line)
    (hbefore : order.lenient = false → ∀ other ∈ before, Line.isRefused config other = false)
    : Escapes order disk .tooLong
  /-- The document is rendered only if the output can be opened. -/
  | value {config : Config} {output : Path} {input : String} {document : Document}
    {temporary : Place} {n : Int} (hconfig : order.config = .ok config)
    (hproceeds : order.Proceeds disk output) (hreads : order.Reads disk input)
    (hdocument : (interpretText config input (some order.source.text)).result = .ok document)
    (htemporary : disk.temporary? output = some temporary)
    (hn : n ∈ order.form.integers document) (hlong : Text.fitsNumeral n = false)
    : Escapes order disk (.value .tooLong)

variable {order : Order} {config : Config} {disk : Disk} {output : Path}

theorem outputPath_eq_error_iff
    : order.outputPath order.source = .error .emptyName
        ↔ order.source.name = "" ∧ (order.output = none ∨ order.output = some "") := by
  have hsuffix : order.source.withSuffix order.form.suffix = .error .emptyName
      ↔ order.source.name = "" := by
    unfold Path.withSuffix
    rw [← String.isEmpty_iff]
    cases order.source.name.isEmpty with
    | true => simp
    | false => simp
  unfold outputPath
  split
  . next hnone => simp [hsuffix, hnone]
  . next hempty => simp [hsuffix, hempty]
  . next written hempty hwritten =>
    refine iff_of_false (by simp) ?_
    rintro ⟨_, hnone | hsome⟩
    . rw [hwritten] at hnone
      contradiction
    . rw [hwritten] at hsome
      exact hempty (Option.some.inj hsome)

theorem exists_config (h : ∀ units ∈ order.fillPadding, 0 ≤ units)
    : ∃ config, order.config = .ok config := by
  unfold Order.config
  split
  . exact ⟨_, rfl⟩
  . exact ⟨_, rfl⟩
  . next units hpadding =>
    have hunits := h _ hpadding
    omega

theorem isStrict_of_config (h : order.config = .ok config) : config.isStrict = !order.lenient := by
  obtain ⟨units, _, rfl⟩ := config_eq_ok h
  rfl

theorem renderer_eq_error_iff {document : Document} {e : RenderError}
    : order.renderer document.toNode = .error e
        ↔ e = .value .tooLong ∧ ∃ n ∈ order.form.integers document, Text.fitsNumeral n = false := by
  unfold renderer
  cases order.form with
  | html => exact (Renderer.of_eq_ite_all (Renderer.html_toNode {} document)).2 e
  | json => exact (Renderer.of_eq_ite_all (Renderer.json_toNode _ document)).2 e

theorem Reads.readText {ε : Type} {input : String} (h : order.Reads disk input)
    (hnul : order.source.hasNul = false)
    : disk.readText order.source = (.ok input : Except (FileFailure ε) String) := by
  obtain ⟨bytes, hfind, hdecode⟩ := h
  unfold Disk.readText Text.Encoding.decode?
  rw [hnul, hfind]
  simp only [hdecode]
  rfl

end Order

variable {order : Order} {config : Config} {disk : Disk} {output : Path} {escape : Escape}

theorem escapes_of_format (hconfig : order.config = .ok config)
    (hproceeds : order.Proceeds disk output)
    (h : (format order config order.source output disk).exit = .error escape)
    : order.Escapes disk escape := by
  unfold format at h
  rcases disk.readText_cases hproceeds.source with ⟨input, hread⟩ | ⟨error, hread⟩
  . have hreads : order.Reads disk input := fromUTF8?_of_readText hread
    rw [hread] at h
    dsimp only at h
    split at h
    . next refusal hresult =>
      cases refusal with
      | malformed error => contradiction
      | tooLong =>
        obtain ⟨before, line, behind, hlines, hline, hbefore⟩ := interpret_eq_tooLong_iff.1 hresult
        obtain rfl : Escape.tooLong = escape := Except.error.inj h
        refine .tooLong hconfig hproceeds hreads hlines hline ?_
        intro hlenient
        apply hbefore
        rw [Order.isStrict_of_config hconfig, hlenient]
        rfl
    . next document hdocument =>
      rcases disk.writeNode_result_cases hproceeds.output with
        hok | ⟨error, herror⟩ | ⟨temporary, e, htemporary, he⟩
      . rw [hok] at h
        contradiction
      . rw [herror] at h
        contradiction
      . rw [Disk.writeNode_result_of_error hproceeds.output htemporary he] at h
        obtain ⟨rfl, n, hn, hlong⟩ := Order.renderer_eq_error_iff.1 he
        obtain rfl : Escape.value .tooLong = escape := Except.error.inj h
        exact .value hconfig hproceeds hreads hdocument htemporary hn hlong
  . rw [hread] at h
    contradiction

theorem escapes_of_carryOut (hconfig : order.config = .ok config)
    (h : (carryOut order config disk).exit = .error escape) : order.Escapes disk escape := by
  unfold carryOut at h
  dsimp only at h
  split at h
  . next hpath =>
    obtain ⟨hname, houtput⟩ := Order.outputPath_eq_error_iff.1 hpath
    obtain rfl : Escape.emptyName = escape := Except.error.inj h
    exact .emptyName hname houtput
  . next output hpath =>
    split at h
    . next hnul =>
      obtain rfl : Escape.nul = escape := Except.error.inj h
      rw [Bool.or_eq_true] at hnul
      exact .nul hpath hnul
    . next hnul =>
      split at h
      . contradiction
      . next hne =>
        simp only [Bool.or_eq_true, not_or, Bool.not_eq_true] at hnul
        exact escapes_of_format hconfig ⟨hpath, hne, hnul.1, hnul.2⟩ h

theorem Order.Proceeds.carryOut_eq (h : order.Proceeds disk output)
    : carryOut order config disk = format order config order.source output disk := by
  have hpath : order.outputPath (Path.ofString order.input) = .ok output := h.path
  have hnul : (output.hasNul || (Path.ofString order.input).hasNul) = false := by
    rw [h.output]
    exact h.source
  unfold carryOut
  simp only [hpath, hnul]
  exact if_neg h.ne

theorem exit_of_escapes (hconfig : order.config = .ok config) (h : order.Escapes disk escape)
    : (carryOut order config disk).exit = .error escape := by
  cases h with
  | emptyName hname houtput =>
    have hpath : order.outputPath (Path.ofString order.input) = .error .emptyName :=
      Order.outputPath_eq_error_iff.2 ⟨hname, houtput⟩
    unfold carryOut
    simp only [hpath]
  | @nul output hpath hnul =>
    have hpath : order.outputPath (Path.ofString order.input) = .ok output := hpath
    have hnul : (output.hasNul || (Path.ofString order.input).hasNul) = true := by
      rw [Bool.or_eq_true]
      exact hnul
    unfold carryOut
    simp only [hpath, hnul, if_true]
  | tooLong hfound hproceeds hreads hlines hline hbefore =>
    obtain rfl := Except.ok.inj (hfound.symm.trans hconfig)
    rw [hproceeds.carryOut_eq]
    unfold format
    rw [hreads.readText hproceeds.source]
    dsimp only
    rw [interpret_eq_tooLong_iff.2 ⟨_, _, _, hlines, hline, ?_⟩]
    . rfl
    . rw [Order.isStrict_of_config hconfig, Bool.not_eq_true']
      exact hbefore
  | value hfound hproceeds hreads hdocument htemporary hn hlong =>
    obtain rfl := Except.ok.inj (hfound.symm.trans hconfig)
    rw [hproceeds.carryOut_eq]
    unfold format
    rw [hreads.readText hproceeds.source]
    unfold interpretText at hdocument
    dsimp only
    rw [hdocument]
    dsimp only
    rw [Disk.writeNode_result_of_error hproceeds.output htemporary
      (Order.renderer_eq_error_iff.2 ⟨rfl, _, hn, hlong⟩)]
    rfl

theorem run_eq_carryOut {arguments : List String} (h : Order.ofArguments arguments = .ok order)
    (hconfig : order.config = .ok config)
    : run disk arguments = carryOut order config disk := by
  unfold run
  rw [h]
  dsimp only
  rw [hconfig]

theorem Status.code_mem (status : Status) : status.code ∈ [0, 1, 2] := by
  cases status with
  | ok => decide
  | malformedInput => decide
  | failure => decide

end DotFormat.Cli
