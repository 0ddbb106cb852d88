import DotFormat.Proofs.Files

/-!
This module contains that an output is written completely or not at all. What becomes of an output is
described by the disk, the path and what is done while the output is open: either it is in its place and
nothing else has changed, or nothing has changed and there is one failure that is reported.
-/

namespace DotFormat

namespace Disk

variable {ε : Type} {disk : Disk} {path : Path}

namespace OutputStep

def written? : OutputStep ε → Option String
  | write text => some text
  | _ => none

def cause? : OutputStep ε → Option ε
  | fail cause => some cause
  | _ => none

def isDrop : OutputStep ε → Bool
  | drop => true
  | _ => false

end OutputStep

/--
The texts that are written while an output is open, one behind the other.
-/
def writtenText (steps : List (OutputStep ε)) : String :=
  String.join (steps.filterMap OutputStep.written?)

/-! ### Outcomes of an output -/

/--
A temporary file can be made for an output: the folder that the output is to stand in is there.
-/
structure Opens (disk : Disk) (path : Path) : Prop where
  nul : path.hasNul = false
  folder : disk.tree.isFolder (path.parent.resolve disk.current) = true
  name : path.name.utf8ByteSize ≤ nameLimit

/--
A path can be taken by a file: it leads to a place, and no folder is there.
-/
def Takes (disk : Disk) (path : Path) (place : Place) : Prop :=
  disk.locate path = some place ∧ disk.tree.isFolder place = false

/--
The tree behind an output that was written. Nothing was raised while it was open.
-/
structure Commits (disk : Disk) (path : Path) (steps : List (OutputStep ε)) (tree : FileTree) :
    Prop where
  opens : disk.Opens path
  raised : steps.findSome? OutputStep.cause? = none
  kept : steps.any OutputStep.isDrop = false
  target : ∃ place, disk.Takes path place
    ∧ tree = disk.tree.put place (.file (writtenText steps).toUTF8)

/--
A failure of the file system at an output. It names the path of the output.
-/
def unwritable (path : Path) : FileFailure ε :=
  .file { path := path.text, problem := .write }

/--
Why an output was not written. What is raised while it is open comes before what is found at its end.
-/
inductive Fails (disk : Disk) (path : Path) (steps : List (OutputStep ε)) : FileFailure ε → Prop where
  | nul (hnul : path.hasNul = true) : Fails disk path steps .nul
  | unopened (hnul : path.hasNul = false) (hopens : ¬ disk.Opens path) :
    Fails disk path steps (unwritable path)
  | raised (hopens : disk.Opens path) {cause : ε}
    (hraised : steps.findSome? OutputStep.cause? = some cause) : Fails disk path steps (.inside cause)
  | dropped (hopens : disk.Opens path) (hraised : steps.findSome? OutputStep.cause? = none)
    (hdropped : steps.any OutputStep.isDrop = true) : Fails disk path steps (unwritable path)
  | taken (hopens : disk.Opens path) (hraised : steps.findSome? OutputStep.cause? = none)
    (htaken : ∀ place, ¬ disk.Takes path place) : Fails disk path steps (unwritable path)

/--
The tree behind a document that was written, by what the renderer makes of it.
-/
structure NodeCommits (disk : Disk) (path : Path) (outcome : Except RenderError Rendering)
    (tree : FileTree) : Prop where
  opens : disk.Opens path
  target : ∃ rendering place, outcome = .ok rendering ∧ disk.Takes path place
    ∧ tree = disk.tree.put place (.file rendering.text.toUTF8)

/--
Why a document was not written, by what the renderer makes of it. A device that fails under the renderer
is a failure of the file system; other failures of the renderer are reported as they are.
-/
inductive NodeFails (disk : Disk) (path : Path) :
    Except RenderError Rendering → FileFailure RenderError → Prop where
  | nul {outcome : Except RenderError Rendering} (hnul : path.hasNul = true) :
    NodeFails disk path outcome .nul
  | unopened {outcome : Except RenderError Rendering} (hnul : path.hasNul = false)
    (hopens : ¬ disk.Opens path) : NodeFails disk path outcome (unwritable path)
  | device (hopens : disk.Opens path) : NodeFails disk path (.error .device) (unwritable path)
  | raised (hopens : disk.Opens path) {e : RenderError} (hdevice : e ≠ .device) :
    NodeFails disk path (.error e) (.inside e)
  | taken (hopens : disk.Opens path) {rendering : Rendering}
    (htaken : ∀ place, ¬ disk.Takes path place) :
    NodeFails disk path (.ok rendering) (unwritable path)

/-! ### Opening -/

theorem exists_temporary_of_opens (h : disk.Opens path)
    : ∃ temporary, disk.temporary? path = some temporary := by
  unfold temporary?
  simp [h.folder, h.name]

theorem temporary?_eq_none (hnul : path.hasNul = false) (h : ¬ disk.Opens path)
    : disk.temporary? path = none := by
  unfold temporary?
  apply if_neg
  rw [Bool.and_eq_true, decide_eq_true_iff]
  rintro ⟨hfolder, hname⟩
  exact h ⟨hnul, hfolder, hname⟩

/-! ### While the output is open -/

variable {temporary : Place} {steps : List (OutputStep ε)}

theorem collect_of_raised {cause : ε} (h : steps.findSome? OutputStep.cause? = some cause)
    (temporary : Place) (tree : FileTree) (written : ByteArray)
    : (collect .utf8 temporary tree written steps).2 = .error (.inside cause) := by
  induction steps generalizing tree written with
  | nil => contradiction
  | cons step steps ih =>
    cases step with
    | write text => exact ih h tree _
    | drop => exact ih h _ written
    | fail first =>
      obtain rfl : first = cause := Option.some.inj h
      rfl

-- Once the temporary file is taken away, it stays away.
theorem collect_of_not_raised (h : steps.findSome? OutputStep.cause? = none) (temporary : Place)
    (tree : FileTree) (written : ByteArray)
    : collect .utf8 temporary tree written steps
        = (if steps.any OutputStep.isDrop then tree.erase temporary else tree,
            .ok (written ++ (writtenText steps).toUTF8)) := by
  induction steps generalizing tree written with
  | nil =>
    have hempty : written ++ (writtenText ([] : List (OutputStep ε))).toUTF8 = written :=
      ByteArray.append_empty
    rw [hempty]
    rfl
  | cons step steps ih =>
    cases step with
    | write text =>
      have htext : writtenText (.write text :: steps) = text ++ writtenText steps :=
        String.join_cons
      have hbytes : written ++ (text ++ writtenText steps).toUTF8
          = written ++ text.toUTF8 ++ (writtenText steps).toUTF8 := by
        rw [ByteArray.append_assoc]
        rfl
      rw [htext, hbytes]
      exact ih h tree (written ++ text.toUTF8)
    | drop =>
      have hdropped := ih h (tree.erase temporary) written
      rw [FileTree.erase_erase, ite_self] at hdropped
      exact hdropped
    | fail cause => contradiction

/-! ### Outputs -/

theorem writeOutput_eq_writeThrough (hnul : path.hasNul = false)
    (htemporary : disk.temporary? path = some temporary)
    : disk.writeOutput path .utf8 steps = disk.writeThrough path .utf8 temporary steps := by
  unfold writeOutput
  rw [hnul, htemporary]
  rfl

theorem writeOutput_of_raised (hopens : disk.Opens path) {cause : ε}
    (h : steps.findSome? OutputStep.cause? = some cause)
    : disk.writeOutput path .utf8 steps = (disk.tree, .error (.inside cause)) := by
  obtain ⟨temporary, htemporary⟩ := exists_temporary_of_opens hopens
  have hresult := collect_of_raised h temporary (disk.tree.put temporary (.file .empty)) .empty
  rw [writeOutput_eq_writeThrough hopens.nul htemporary]
  unfold writeThrough
  dsimp only
  cases hcollect : collect .utf8 temporary (disk.tree.put temporary (.file .empty)) .empty steps with
  | mk tree result =>
    rw [hcollect] at hresult
    dsimp only at hresult
    subst hresult
    exact Prod.ext (cleanable_of_collect htemporary hcollect).1 rfl

theorem find?_temporary_isNone (htemporary : disk.temporary? path = some temporary) (dropped : Bool)
    : ((if dropped then (disk.tree.put temporary (.file .empty)).erase temporary
          else disk.tree.put temporary (.file .empty)).find? temporary).isNone = dropped := by
  obtain ⟨hne, hunbound⟩ := unbound_temporary htemporary
  cases dropped with
  | true =>
    rw [if_pos rfl, FileTree.erase_put disk.tree temporary _ hunbound,
      FileTree.find?_eq_none_of_unbound hne hunbound]
    rfl
  | false =>
    rw [if_neg (by simp), FileTree.find?_put _ hne, if_pos rfl]
    rfl

theorem writeOutput_of_not_raised (hopens : disk.Opens path)
    (h : steps.findSome? OutputStep.cause? = none)
    : disk.writeOutput path .utf8 steps =
        match disk.locate path with
        | none => (disk.tree, .error (unwritable path))
        | some place =>
          if disk.tree.isFolder place || steps.any OutputStep.isDrop then
            (disk.tree, .error (unwritable path))
          else (disk.tree.put place (.file (writtenText steps).toUTF8), .ok ()) := by
  obtain ⟨temporary, htemporary⟩ := exists_temporary_of_opens hopens
  have hcollect := collect_of_not_raised h temporary (disk.tree.put temporary (.file .empty)) .empty
  obtain ⟨herase, hfolder⟩ := cleanable_of_collect htemporary hcollect
  rw [writeOutput_eq_writeThrough hopens.nul htemporary]
  unfold writeThrough
  dsimp only
  rw [hcollect]
  dsimp only
  rw [commit_eq herase hfolder, find?_temporary_isNone htemporary, ByteArray.empty_append]
  rfl

theorem writeOutput_of_commits {tree : FileTree} (h : Commits disk path steps tree)
    : disk.writeOutput path .utf8 steps = (tree, .ok ()) := by
  obtain ⟨place, ⟨hlocate, hplace⟩, rfl⟩ := h.target
  rw [writeOutput_of_not_raised h.opens h.raised, hlocate, h.kept]
  simp [hplace]

theorem writeOutput_of_fails {e : FileFailure ε} (h : Fails disk path steps e)
    : disk.writeOutput path .utf8 steps = (disk.tree, .error e) := by
  cases h with
  | nul hnul =>
    unfold writeOutput
    rw [if_pos hnul]
  | unopened hnul hopens =>
    unfold writeOutput
    rw [hnul, temporary?_eq_none hnul hopens]
    rfl
  | raised hopens hraised => exact writeOutput_of_raised hopens hraised
  | dropped hopens hraised hdropped =>
    rw [writeOutput_of_not_raised hopens hraised, hdropped]
    cases disk.locate path with
    | none => rfl
    | some place => simp
  | taken hopens hraised htaken =>
    rw [writeOutput_of_not_raised hopens hraised]
    cases hlocate : disk.locate path with
    | none => rfl
    | some place =>
      have hplace : disk.tree.isFolder place = true := by
        simpa [Takes, hlocate] using htaken place
      simp [hplace]

theorem commits_or_fails (disk : Disk) (path : Path) (steps : List (OutputStep ε))
    : (∃ tree, Commits disk path steps tree) ∨ ∃ e, Fails disk path steps e := by
  cases hnul : path.hasNul with
  | true => exact .inr ⟨_, .nul hnul⟩
  | false =>
    by_cases hopens : disk.Opens path
    . cases hraised : steps.findSome? OutputStep.cause? with
      | some cause => exact .inr ⟨_, .raised hopens hraised⟩
      | none =>
        cases hdropped : steps.any OutputStep.isDrop with
        | true => exact .inr ⟨_, .dropped hopens hraised hdropped⟩
        | false =>
          by_cases htakes : ∃ place, disk.Takes path place
          . obtain ⟨place, hplace⟩ := htakes
            exact .inl ⟨_, hopens, hraised, hdropped, place, hplace, rfl⟩
          . exact .inr ⟨_, .taken hopens hraised (not_exists.1 htakes)⟩
    . exact .inr ⟨_, .unopened hnul hopens⟩

theorem writeOutput_eq_ok_iff {tree : FileTree}
    : disk.writeOutput path .utf8 steps = (tree, .ok ()) ↔ Commits disk path steps tree := by
  constructor
  . intro h
    rcases commits_or_fails disk path steps with ⟨other, hcommits⟩ | ⟨e, hfails⟩
    . rw [writeOutput_of_commits hcommits] at h
      cases h
      exact hcommits
    . rw [writeOutput_of_fails hfails] at h
      cases h
  . exact writeOutput_of_commits

theorem writeOutput_eq_error_iff {tree : FileTree} {e : FileFailure ε}
    : disk.writeOutput path .utf8 steps = (tree, .error e)
        ↔ tree = disk.tree ∧ Fails disk path steps e := by
  constructor
  . intro h
    rcases commits_or_fails disk path steps with ⟨other, hcommits⟩ | ⟨failure, hfails⟩
    . rw [writeOutput_of_commits hcommits] at h
      cases h
    . rw [writeOutput_of_fails hfails] at h
      cases h
      exact ⟨rfl, hfails⟩
  . rintro ⟨rfl, hfails⟩
    exact writeOutput_of_fails hfails

/--
What was written is read back from the path.
-/
theorem Commits.readText_eq {tree : FileTree} (h : Commits disk path steps tree)
    : ({ disk with tree }.readText path : Except (FileFailure ε) String)
        = .ok (writtenText steps) := by
  obtain ⟨place, ⟨hlocate, hplace⟩, rfl⟩ := h.target
  have hfind : { disk with tree := disk.tree.put place (.file (writtenText steps).toUTF8) }.find? path
      = some (.file (writtenText steps).toUTF8) := by
    unfold find?
    rw [locate_congr (FileTree.isFolder_put_file hplace _), hlocate, Option.bind_some,
      FileTree.find?_put _ (FileTree.ne_nil_of_not_isFolder hplace), if_pos rfl]
  have hdecode : Text.Encoding.utf8.decode? (writtenText steps).toUTF8 = some (writtenText steps) :=
    dif_pos (writtenText steps).isValidUTF8
  unfold readText
  rw [h.opens.nul, hfind]
  simp only [hdecode]
  rfl

/-! ### Documents -/

variable {outcome : Except RenderError Rendering}

theorem writeNode_eq_writeOutput (disk : Disk) (path : Path) (renderer : Renderer) (node : Node)
    : (disk.writeNode path renderer node).tree
          = (disk.writeOutput path .utf8 (outputSteps (renderer node))).1
        ∧ (disk.writeNode path renderer node).result
          = (disk.writeOutput path .utf8 (outputSteps (renderer node))).2.mapError
              (deviceFailure path) := by
  unfold writeNode writeOutput
  split
  . exact ⟨rfl, rfl⟩
  . split
    . exact ⟨rfl, rfl⟩
    . exact ⟨rfl, rfl⟩

theorem commits_outputSteps_iff {tree : FileTree}
    : Commits disk path (outputSteps outcome) tree ↔ NodeCommits disk path outcome tree := by
  cases outcome with
  | error e =>
    constructor
    . intro h
      cases h.raised
    . intro h
      obtain ⟨rendering, place, houtcome, -⟩ := h.target
      cases houtcome
  | ok rendering =>
    have htext : writtenText (outputSteps (.ok rendering)) = rendering.text := by
      simp [writtenText, outputSteps, OutputStep.written?]
    constructor
    . intro h
      obtain ⟨place, htakes, htree⟩ := h.target
      rw [htext] at htree
      exact ⟨h.opens, rendering, place, rfl, htakes, htree⟩
    . rintro ⟨hopens, _, place, ⟨⟩, htakes, htree⟩
      rw [← htext] at htree
      exact ⟨hopens, rfl, rfl, place, htakes, htree⟩

theorem nodeFails_iff {e : FileFailure RenderError}
    : NodeFails disk path outcome e
        ↔ ∃ failure, Fails disk path (outputSteps outcome) failure
            ∧ deviceFailure path failure = e := by
  constructor
  . intro h
    cases h with
    | nul hnul => exact ⟨_, .nul hnul, rfl⟩
    | unopened hnul hopens => exact ⟨_, .unopened hnul hopens, rfl⟩
    | device hopens => exact ⟨_, .raised hopens rfl, rfl⟩
    | @raised hopens e hdevice =>
      refine ⟨_, .raised hopens rfl, ?_⟩
      cases e with
      | device => contradiction
      | _ => rfl
    | taken hopens htaken => exact ⟨_, .taken hopens rfl htaken, rfl⟩
  . rintro ⟨failure, hfails, rfl⟩
    cases hfails with
    | nul hnul => exact .nul hnul
    | unopened hnul hopens => exact .unopened hnul hopens
    | raised hopens hraised =>
      cases outcome with
      | error e =>
        obtain rfl := Option.some.inj hraised
        cases e with
        | device => exact .device hopens
        | _ => exact .raised hopens nofun
      | ok rendering => contradiction
    | dropped hopens hraised hdropped => cases outcome <;> contradiction
    | taken hopens hraised htaken =>
      cases outcome with
      | error e => contradiction
      | ok rendering => exact .taken hopens htaken

theorem mapError_eq_ok_iff {α β γ : Type} {f : α → β} {result : Except α γ} {c : γ}
    : result.mapError f = .ok c ↔ result = .ok c := by
  cases result with
  | error a => exact iff_of_false nofun nofun
  | ok other =>
    change Except.ok other = Except.ok c ↔ Except.ok other = Except.ok c
    rw [Except.ok.injEq, Except.ok.injEq]

theorem mapError_eq_error_iff {α β γ : Type} {f : α → β} {result : Except α γ} {b : β}
    : result.mapError f = .error b ↔ ∃ a, result = .error a ∧ f a = b := by
  cases result with
  | error a =>
    change Except.error (f a) = Except.error b ↔ _
    simp
  | ok other => exact iff_of_false nofun (by simp)

section

variable {renderer : Renderer} {node : Node}

theorem writeNode_ok_iff {tree : FileTree}
    : (disk.writeNode path renderer node).tree = tree
          ∧ (disk.writeNode path renderer node).result = .ok ()
        ↔ NodeCommits disk path (renderer node) tree := by
  obtain ⟨htree, hresult⟩ := disk.writeNode_eq_writeOutput path renderer node
  rw [htree, hresult, mapError_eq_ok_iff, ← commits_outputSteps_iff, ← writeOutput_eq_ok_iff,
    Prod.ext_iff]

theorem writeNode_error_iff {tree : FileTree} {e : FileFailure RenderError}
    : (disk.writeNode path renderer node).tree = tree
          ∧ (disk.writeNode path renderer node).result = .error e
        ↔ tree = disk.tree ∧ NodeFails disk path (renderer node) e := by
  obtain ⟨htree, hresult⟩ := disk.writeNode_eq_writeOutput path renderer node
  rw [htree, hresult, mapError_eq_error_iff, nodeFails_iff]
  simp only [← exists_and_left, ← and_assoc, ← writeOutput_eq_error_iff, Prod.ext_iff]

theorem writeNode_cases (disk : Disk) (path : Path) (renderer : Renderer) (node : Node)
    : (∃ e, (disk.writeNode path renderer node).result = .error e
          ∧ (disk.writeNode path renderer node).tree = disk.tree)
        ∨ ((disk.writeNode path renderer node).result = .ok ()
          ∧ NodeCommits disk path (renderer node) (disk.writeNode path renderer node).tree) := by
  cases hresult : (disk.writeNode path renderer node).result with
  | error e => exact .inl ⟨e, rfl, (writeNode_error_iff.1 ⟨rfl, hresult⟩).1⟩
  | ok _ => exact .inr ⟨rfl, writeNode_ok_iff.1 ⟨rfl, hresult⟩⟩

-- The renderer runs while the output is open, so its failure counts only if the output can be opened.
theorem writeNode_result_cases (hnul : path.hasNul = false)
    : (disk.writeNode path renderer node).result = .ok ()
        ∨ (∃ error, (disk.writeNode path renderer node).result = .error (.file error))
        ∨ ∃ temporary e, disk.temporary? path = some temporary ∧ renderer node = .error e := by
  cases hresult : (disk.writeNode path renderer node).result with
  | ok _ => exact .inl rfl
  | error e =>
    have hfails : NodeFails disk path (renderer node) e := (writeNode_error_iff.1 ⟨rfl, hresult⟩).2
    generalize renderer node = outcome at hfails
    cases hfails with
    | nul hnul' =>
      rw [hnul] at hnul'
      contradiction
    | unopened _ hopens => exact .inr (.inl ⟨_, rfl⟩)
    | device hopens => exact .inr (.inl ⟨_, rfl⟩)
    | raised hopens hdevice =>
      obtain ⟨temporary, htemporary⟩ := exists_temporary_of_opens hopens
      exact .inr (.inr ⟨temporary, _, htemporary, rfl⟩)
    | taken hopens htaken => exact .inr (.inl ⟨_, rfl⟩)

end

/--
An output is written completely or not at all. It is written if it can be opened, nothing is raised while
it is open, the temporary file is kept, and its path can be taken by a file; then the tree has what was
written at the place of the path and is otherwise the same. In all other cases the tree is the one of the
beginning. A document is an output of the one text that the renderer makes of it.
-/
theorem output_all_or_nothing (disk : Disk) (path : Path)
    : (∀ (steps : List (OutputStep ε)) (tree : FileTree),
          disk.writeOutput path .utf8 steps = (tree, .ok ()) ↔ Commits disk path steps tree)
        ∧ (∀ (steps : List (OutputStep ε)) (tree : FileTree) (e : FileFailure ε),
          disk.writeOutput path .utf8 steps = (tree, .error e)
            ↔ tree = disk.tree ∧ Fails disk path steps e)
        ∧ ∀ (renderer : Renderer) (node : Node) (tree : FileTree),
          ((disk.writeNode path renderer node).tree = tree
                ∧ (disk.writeNode path renderer node).result = .ok ()
              ↔ NodeCommits disk path (renderer node) tree)
            ∧ ∀ e, (disk.writeNode path renderer node).tree = tree
                  ∧ (disk.writeNode path renderer node).result = .error e
                ↔ tree = disk.tree ∧ NodeFails disk path (renderer node) e := by
  refine ⟨?_, ?_, ?_⟩
  . intro steps tree
    exact writeOutput_eq_ok_iff
  . intro steps tree e
    exact writeOutput_eq_error_iff
  . intro renderer node tree
    exact ⟨writeNode_ok_iff, fun e => writeNode_error_iff⟩

-- The file that was there stays if the temporary file is taken away before the end.
example :
    let tree : FileTree := { entries := [(["a"], .file "old".toUTF8)] }
    ({ tree } : Disk).writeOutput { parts := ["a"] } .utf8 [.write "new", .drop]
      = (tree, .error (unwritable { parts := ["a"] } : FileFailure Empty)) := by
  rfl

end Disk

end DotFormat
