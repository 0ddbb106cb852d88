import DotFormat.FileTree

/-!
This module contains how a file tree changes. A file that is put where no folder is changes what is found
at its place only, and the same folders are there to walk through as before.
-/

namespace DotFormat

namespace FileTree

variable {tree : FileTree} {place : Place}

theorem lookup_cons_eq_ite (bound : Place × Entry) (entries : List (Place × Entry)) (other : Place)
    : (bound :: entries).lookup other
        = if other = bound.1 then some bound.2 else entries.lookup other := by
  rw [List.lookup_cons]
  by_cases h : other = bound.1
  . simp [h]
  . rw [beq_false_of_ne h, if_neg h]

theorem lookup_put_go (entry : Entry) (entries : List (Place × Entry)) (other : Place)
    : (put.go place entry entries).lookup other
        = if other = place then some entry else entries.lookup other := by
  induction entries with
  | nil => exact lookup_cons_eq_ite (place, entry) [] other
  | cons bound entries ih =>
    unfold put.go
    split
    . next h =>
      rw [lookup_cons_eq_ite, lookup_cons_eq_ite, h]
      split
      . rfl
      . rfl
    . next h =>
      rw [lookup_cons_eq_ite, lookup_cons_eq_ite, ih]
      by_cases hother : other = bound.1
      . rw [if_pos hother, if_pos hother, if_neg (hother ▸ h)]
      . rw [if_neg hother, if_neg hother]

theorem find?_put (entry : Entry) {other : Place} (h : other ≠ [])
    : (tree.put place entry).find? other
        = if other = place then some entry else tree.find? other := by
  unfold find?
  rw [if_neg h, if_neg h]
  exact lookup_put_go entry tree.entries other

theorem find?_nil : tree.find? [] = some .folder :=
  rfl

theorem find?_put_of_ne (entry : Entry) {other : Place} (h : other ≠ place)
    : (tree.put place entry).find? other = tree.find? other := by
  by_cases hother : other = []
  . subst hother
    rfl
  . rw [find?_put entry hother, if_neg h]

theorem find?_eq_none_of_unbound (hplace : place ≠ [])
    (h : ∀ bound ∈ tree.entries, bound.1 ≠ place) : tree.find? place = none := by
  unfold find?
  rw [if_neg hplace, List.lookup_eq_none_iff]
  intro bound hbound
  simpa using (h bound hbound).symm

theorem erase_of_unbound (h : ∀ bound ∈ tree.entries, bound.1 ≠ place) : tree.erase place = tree := by
  unfold erase
  rw [List.filter_eq_self.2 (by simpa using h)]

@[simp]
theorem erase_erase (tree : FileTree) (place : Place)
    : (tree.erase place).erase place = tree.erase place := by
  simp [erase]

theorem ne_nil_of_not_isFolder (h : tree.isFolder place = false) : place ≠ [] := by
  rintro rfl
  simp [isFolder, find?_nil] at h

theorem isFolder_put_file (h : tree.isFolder place = false) (bytes : ByteArray) (other : Place)
    : (tree.put place (.file bytes)).isFolder other = tree.isFolder other := by
  by_cases hother : other = place
  . subst hother
    rw [h]
    unfold isFolder
    rw [find?_put _ (ne_nil_of_not_isFolder h)]
    simp
  . unfold isFolder
    rw [find?_put_of_ne _ hother]

/-! ### Walks -/

theorem walk_congr {other : FileTree} (h : ∀ place, tree.isFolder place = other.isFolder place)
    (parts : List String) : tree.walk place parts = other.walk place parts := by
  induction parts generalizing place with
  | nil => rfl
  | cons part parts ih =>
    unfold walk
    rw [h, ih]

theorem eq_foldl_of_walk {parts : List String} {last : Place} (h : tree.walk place parts = some last)
    : last = parts.foldl Path.enter place := by
  induction parts generalizing place with
  | nil => exact (Option.some.inj h).symm
  | cons part parts ih =>
    unfold walk at h
    split at h
    . exact ih h
    . contradiction

theorem walk_concat (tree : FileTree) (place : Place) (parts : List String) (part : String)
    : tree.walk place (parts ++ [part])
        =
      (tree.walk place parts).bind fun folder =>
        if tree.isFolder folder then some (Path.enter folder part) else none := by
  induction parts generalizing place with
  | nil => rfl
  | cons first parts ih =>
    rw [List.cons_append]
    unfold walk
    rw [ih]
    split
    . rfl
    . rfl

-- The last part may lead anywhere, so what counts is where the others lead.
theorem isSome_walk {parts : List String} (h : parts ≠ [])
    : (tree.walk place parts).isSome = (tree.walk place parts.dropLast).any tree.isFolder := by
  obtain ⟨front, last, rfl⟩ : ∃ front last, parts = front ++ [last] :=
    ⟨_, _, (List.dropLast_concat_getLast h).symm⟩
  rw [walk_concat, List.dropLast_concat]
  cases tree.walk place front with
  | none => rfl
  | some folder =>
    rw [Option.bind_some, Option.any_some]
    cases tree.isFolder folder with
    | true => rfl
    | false => rfl

end FileTree

namespace Disk

variable {disk : Disk} {path : Path} {place : Place}

theorem eq_resolve_of_locate (h : disk.locate path = some place)
    : place = path.resolve disk.current := by
  unfold locate at h
  split at h
  . exact FileTree.eq_foldl_of_walk h
  . contradiction

theorem locate_congr {tree : FileTree}
    (h : ∀ place, tree.isFolder place = disk.tree.isFolder place) (path : Path)
    : { disk with tree }.locate path = disk.locate path := by
  unfold locate
  rw [FileTree.walk_congr h]

theorem find?_put_file (h : disk.tree.isFolder place = false) (bytes : ByteArray)
    (hpath : path.resolve disk.current ≠ place)
    : { disk with tree := disk.tree.put place (.file bytes) }.find? path = disk.find? path := by
  unfold find?
  rw [locate_congr (FileTree.isFolder_put_file h bytes)]
  cases hlocate : disk.locate path with
  | none => rfl
  | some last =>
    rw [Option.bind_some, Option.bind_some]
    apply FileTree.find?_put_of_ne
    rw [eq_resolve_of_locate hlocate]
    exact hpath

end Disk

end DotFormat
