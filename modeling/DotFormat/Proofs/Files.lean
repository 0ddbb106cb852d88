import DotFormat.Files
import DotFormat.Proofs.FileTree

/-!
This module contains the parts of an output: its temporary file, what is collected in it, and how it is
moved into place. The temporary file has a place that nothing was bound to, so taking it away gives back
the tree of the beginning.
-/

namespace DotFormat

namespace Disk

/-! ### The temporary file -/

theorem length_lt_length_unusedName {tree : FileTree} {bound : Place × Entry}
    (h : bound ∈ tree.entries) (name : String)
    : (bound.1.getLast?.getD "").length < (unusedName tree name).length := by
  have hmem : (bound.1.getLast?.getD "").length
      ∈ tree.entries.map fun bound => (bound.1.getLast?.getD "").length :=
    List.mem_map_of_mem h
  have hle := List.le_max_of_mem hmem
  unfold unusedName
  rw [List.foldl_max_eq_max (List.ne_nil_of_mem hmem)]
  simp only [String.length_append, String.length_ofList, List.length_replicate]
  omega

theorem unbound_unusedName (tree : FileTree) (folder : Place) (name : String)
    : ∀ bound ∈ tree.entries, bound.1 ≠ folder ++ [unusedName tree name] := by
  intro bound hbound h
  have hlength := length_lt_length_unusedName hbound name
  rw [h] at hlength
  simp at hlength

variable {ε : Type} {disk : Disk} {path : Path} {temporary : Place}

theorem unbound_temporary (h : disk.temporary? path = some temporary)
    : temporary ≠ [] ∧ ∀ bound ∈ disk.tree.entries, bound.1 ≠ temporary := by
  unfold temporary? at h
  simp only at h
  split at h
  . cases h
    exact ⟨by simp, unbound_unusedName disk.tree _ path.name⟩
  . contradiction

theorem not_isFolder_temporary (h : disk.temporary? path = some temporary)
    : disk.tree.isFolder temporary = false := by
  obtain ⟨hne, hunbound⟩ := unbound_temporary h
  simp [FileTree.isFolder, FileTree.find?_eq_none_of_unbound hne hunbound]

/-! ### Moving into place -/

theorem commit_eq {tree : FileTree} (herase : tree.erase temporary = disk.tree)
    (hfolder : ∀ place, tree.isFolder place = disk.tree.isFolder place) (bytes : ByteArray)
    : ({ disk with tree }.commit path temporary bytes : FileTree × Except (FileFailure ε) Unit) =
        match disk.locate path with
        | none => (disk.tree, .error (.file { path := path.text, problem := .write }))
        | some place =>
          if disk.tree.isFolder place || (tree.find? temporary).isNone then
            (disk.tree, .error (.file { path := path.text, problem := .write }))
          else (disk.tree.put place (.file bytes), .ok ()) := by
  unfold commit
  rw [herase, locate_congr hfolder]
  cases disk.locate path with
  | none => rfl
  | some place => simp only [hfolder]

/-! ### Open outputs -/

-- Taking the temporary file away once more changes nothing.
theorem collect_tree (encoding : Text.Encoding) (temporary : Place) (tree : FileTree)
    (written : ByteArray) (steps : List (OutputStep ε))
    : (collect encoding temporary tree written steps).1 = tree
        ∨ (collect encoding temporary tree written steps).1 = tree.erase temporary := by
  induction steps generalizing tree written with
  | nil => exact .inl rfl
  | cons step steps ih =>
    cases step with
    | write text =>
      unfold collect
      split
      . exact ih tree _
      . exact .inl rfl
    | drop =>
      have hdropped := ih (tree.erase temporary) written
      rw [FileTree.erase_erase] at hdropped
      unfold collect
      exact .inr (or_self_iff.1 hdropped)
    | fail cause => exact .inl rfl

theorem cleanable_of_collect (h : disk.temporary? path = some temporary) {encoding : Text.Encoding}
    {steps : List (OutputStep ε)} {tree : FileTree} {result : Except (FileFailure ε) ByteArray}
    (hcollect : collect encoding temporary (disk.tree.put temporary (.file .empty)) .empty steps
      = (tree, result))
    : tree.erase temporary = disk.tree ∧ ∀ place, tree.isFolder place = disk.tree.isFolder place := by
  have hunbound := (unbound_temporary h).2
  have hput : (disk.tree.put temporary (.file .empty)).erase temporary = disk.tree :=
    FileTree.erase_put disk.tree temporary _ hunbound
  have htree := collect_tree encoding temporary (disk.tree.put temporary (.file .empty)) .empty steps
  rw [hcollect, hput] at htree
  rcases htree with rfl | rfl
  . exact ⟨hput, FileTree.isFolder_put_file (not_isFolder_temporary h) .empty⟩
  . exact ⟨FileTree.erase_of_unbound hunbound, fun _ => rfl⟩

/-! ### What can fail -/

theorem readText_cases (h : path.hasNul = false)
    : (∃ input, disk.readText path = (.ok input : Except (FileFailure ε) String))
        ∨ ∃ error, disk.readText path = (.error (.file error) : Except (FileFailure ε) String) := by
  unfold readText
  rw [h]
  simp only [Bool.false_eq_true, if_false]
  split
  . split
    . exact .inl ⟨_, rfl⟩
    . exact .inr ⟨_, rfl⟩
  . exact .inr ⟨_, rfl⟩

theorem writeNode_result_of_error {renderer : Renderer} {node : Node} {e : RenderError}
    (hnul : path.hasNul = false) (htemporary : disk.temporary? path = some temporary)
    (h : renderer node = .error e)
    : (disk.writeNode path renderer node).result = .error (deviceFailure path (.inside e)) := by
  unfold writeNode
  rw [hnul, htemporary, h]
  rfl

end Disk

end DotFormat
