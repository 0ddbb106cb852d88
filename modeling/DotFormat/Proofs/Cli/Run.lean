import DotFormat.Cli.Run
import DotFormat.Proofs.Output

/-!
This module contains what the command line does to the files. A run that is done has put the text that
was asked for into the place of the output; a run that ends in any other way has changed nothing. The
input stays as it was, since an output in its place is refused however it is spelled.
-/

namespace DotFormat.Cli

namespace Order

def source (order : Order) : Path :=
  Path.ofString order.input

/--
A text that an order asks for: the input, decoded and divided into lines, is read with the strictness
and the padding of the order, and the document is rendered in the form of the order.
-/
def Makes (order : Order) (disk : Disk) (text : String) : Prop :=
  ∃ (units : Nat) (bytes : ByteArray) (input : String) (document : Document) (rendering : Rendering),
    order.fillPadding.getD 10 = units
      ∧ disk.find? order.source = some (.file bytes)
      ∧ String.fromUTF8? bytes = some input
      ∧ (interpret { strict := .bool !order.lenient, fillPadding := .number units }
            (Text.splitLines input) (some order.source.text)).result = .ok document
      ∧ order.renderer document.toNode = .ok rendering
      ∧ rendering.text = text

/--
An outcome of an order that is carried out: the output has the text that was asked for, and nothing else
is different.
-/
structure IsDone (order : Order) (disk : Disk) (outcome : Outcome) : Prop where
  exit : outcome.exit = .ok .ok
  written : ∃ output place text,
    order.outputPath order.source = .ok output
      ∧ output.resolve disk.current ≠ order.source.resolve disk.current
      ∧ disk.locate output = some place
      ∧ disk.tree.isFolder place = false
      ∧ order.Makes disk text
      ∧ outcome.tree = disk.tree.put place (.file text.toUTF8)

theorem config_eq_ok {order : Order} {config : Config} (h : order.config = .ok config)
    : ∃ units : Nat, order.fillPadding.getD 10 = units
        ∧ config = { strict := .bool !order.lenient, fillPadding := .number units } := by
  unfold Order.config at h
  split at h
  . next hpadding =>
    rw [hpadding]
    exact ⟨10, rfl, (Except.ok.inj h).symm⟩
  . next units hpadding =>
    rw [hpadding]
    exact ⟨units, rfl, (Except.ok.inj h).symm⟩
  . contradiction

end Order

/--
An outcome that is no success and has left the tree as it was.
-/
structure Outcome.IsFailure (outcome : Outcome) (tree : FileTree) : Prop where
  exit : outcome.exit ≠ .ok .ok
  tree : outcome.tree = tree

variable {order : Order} {config : Config} {disk : Disk}

theorem failureOutcome_isFailure (tree : FileTree) (log : List Log.Record)
    (failure : FileFailure RenderError)
    : (failureOutcome order tree log failure).IsFailure tree := by
  unfold failureOutcome
  split <;> exact ⟨by simp [failureOutcome.escaped], rfl⟩

theorem refusalOutcome_isFailure (log : List Log.Record) (refusal : Refusal ParseError)
    : (refusalOutcome order disk log refusal).IsFailure disk.tree := by
  unfold refusalOutcome
  split <;> exact ⟨by simp, rfl⟩

theorem fromUTF8?_of_readText {path : Path} {text : String}
    (h : disk.readText path = (.ok text : Except (FileFailure ε) String))
    : ∃ bytes, disk.find? path = some (.file bytes) ∧ String.fromUTF8? bytes = some text := by
  unfold Disk.readText at h
  split at h
  . contradiction
  . split at h
    . next bytes hfind =>
      split at h
      . next hdecode =>
        cases h
        exact ⟨bytes, hfind, hdecode⟩
      . contradiction
    . contradiction

theorem format_cases (hconfig : order.config = .ok config) {output : Path}
    (houtput : order.outputPath order.source = .ok output)
    (hne : output.resolve disk.current ≠ order.source.resolve disk.current)
    : (format order config order.source output disk).IsFailure disk.tree
        ∨ order.IsDone disk (format order config order.source output disk) := by
  unfold format
  split
  . exact .inl (failureOutcome_isFailure _ _ _)
  . next input hread =>
    dsimp only
    split
    . exact .inl (refusalOutcome_isFailure _ _)
    . next document hresult =>
      rcases disk.writeNode_cases output order.renderer document.toNode with
        ⟨e, hwritten, htree⟩ | ⟨hwritten, hcommits⟩
      . rw [hwritten, htree]
        exact .inl (failureOutcome_isFailure _ _ _)
      . obtain ⟨rendering, place, hrendering, ⟨hlocate, hplace⟩, htree⟩ := hcommits.target
        rw [hwritten, htree]
        obtain ⟨bytes, hfind, hdecode⟩ := fromUTF8?_of_readText hread
        obtain ⟨units, hunits, rfl⟩ := Order.config_eq_ok hconfig
        refine .inr ⟨rfl, output, place, rendering.text, houtput, hne, hlocate, hplace, ?_, rfl⟩
        exact ⟨units, bytes, input, document, rendering, hunits, hfind, hdecode, hresult, hrendering,
          rfl⟩

theorem carryOut_cases (hconfig : order.config = .ok config)
    : (carryOut order config disk).IsFailure disk.tree
        ∨ order.IsDone disk (carryOut order config disk) := by
  unfold carryOut
  dsimp only
  split
  . exact .inl ⟨by simp, rfl⟩
  . next output houtput =>
    split
    . exact .inl ⟨by simp, rfl⟩
    . split
      . exact .inl ⟨by simp, rfl⟩
      . next hne => exact format_cases hconfig houtput hne

theorem run_cases (disk : Disk) {arguments : List String}
    (h : Order.ofArguments arguments = .ok order)
    : (run disk arguments).IsFailure disk.tree ∨ order.IsDone disk (run disk arguments) := by
  unfold run
  rw [h]
  dsimp only
  split
  . exact .inl ⟨by simp [usageOutcome], rfl⟩
  . next config hconfig => exact carryOut_cases hconfig

theorem Order.IsDone.find?_source {outcome : Outcome} (h : order.IsDone disk outcome)
    : { disk with tree := outcome.tree }.find? order.source = disk.find? order.source := by
  obtain ⟨output, place, text, -, hne, hlocate, hplace, -, htree⟩ := h.written
  rw [htree, Disk.find?_put_file hplace]
  rw [Disk.eq_resolve_of_locate hlocate]
  exact hne.symm

end DotFormat.Cli
