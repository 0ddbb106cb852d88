import DotFormat.OpenParagraph

/-!
This module contains that open paragraphs share their runs without any harm. However paragraphs are
made from one another, each of them has the runs that were added on the way from the making of an
empty paragraph to it, and keeps them whatever is made from it later.
-/

namespace DotFormat

namespace OpenParagraph

/--
How an open paragraph is made: from nothing, or from one that was made earlier, which is known by
its number.
-/
inductive Making where
  | new (layout : Layout := .standard) (location : Option SourceLocation := none)
  | append (earlier : Nat) (added : TextRun)
  | reopen (earlier : Nat) (layout : Layout) (location : Option SourceLocation := none)

/--
The paragraph that is made when some paragraphs are there, if the one that it needs is among them.
-/
def Making.make? (made : List OpenParagraph) : Making → Option OpenParagraph
  | new layout none => some { layout }
  | new layout (some location) => some { layout, location }
  | append earlier added => made[earlier]?.map (·.append added)
  | reopen earlier layout location => made[earlier]?.map (·.reopen layout location)

/--
The paragraphs that are there behind some makings.
-/
def makeAll? (made : List OpenParagraph) : List Making → Option (List OpenParagraph)
  | [] => some made
  | making :: makings => do
    let paragraph ← making.make? made
    makeAll? (made ++ [paragraph]) makings

variable {makings : List Making} {made before : List OpenParagraph} {n : Nat}

/-! ### What was made -/

theorem exists_of_makeAll?_cons {making : Making}
    (h : makeAll? before (making :: makings) = some made)
    : ∃ paragraph, making.make? before = some paragraph
        ∧ makeAll? (before ++ [paragraph]) makings = some made :=
  Option.bind_eq_some_iff.1 h

theorem prefix_of_makeAll? (h : makeAll? before makings = some made) : before <+: made := by
  induction makings generalizing before with
  | nil =>
    obtain rfl : before = made := Option.some.inj h
    exact List.prefix_rfl
  | cons making makings ih =>
    obtain ⟨paragraph, _, hrest⟩ := exists_of_makeAll?_cons h
    exact (List.prefix_append before [paragraph]).trans (ih hrest)

theorem length_of_makeAll? (h : makeAll? before makings = some made)
    : made.length = before.length + makings.length := by
  induction makings generalizing before with
  | nil => rw [← Option.some.inj h, List.length_nil, Nat.add_zero]
  | cons making makings ih =>
    obtain ⟨paragraph, _, hrest⟩ := exists_of_makeAll?_cons h
    rw [ih hrest, List.length_append, List.length_singleton, List.length_cons]
    omega

-- Each paragraph is made from those that stand before it.
theorem make?_take (h : makeAll? before makings = some made) {making : Making}
    (hmaking : makings[n]? = some making)
    : making.make? (made.take (before.length + n)) = made[before.length + n]? := by
  induction makings generalizing before n with
  | nil => contradiction
  | cons first makings ih =>
    obtain ⟨paragraph, hfirst, hrest⟩ := exists_of_makeAll?_cons h
    cases n with
    | zero =>
      obtain rfl : first = making := Option.some.inj hmaking
      obtain ⟨others, rfl⟩ := prefix_of_makeAll? hrest
      simp [hfirst]
    | succ n =>
      have hothers := ih hrest hmaking
      rwa [List.length_append, List.length_singleton, Nat.add_assoc, Nat.add_comm 1] at hothers

theorem exists_made (h : makeAll? [] makings = some made) {making : Making}
    (hmaking : makings[n]? = some making)
    : ∃ paragraph, made[n]? = some paragraph ∧ making.make? (made.take n) = some paragraph := by
  have hlt : n < made.length := by
    rw [length_of_makeAll? h, List.length_nil, Nat.zero_add]
    exact (List.getElem?_eq_some_iff.1 hmaking).1
  have hmade := make?_take h hmaking
  rw [List.length_nil, Nat.zero_add, List.getElem?_eq_getElem hlt] at hmade
  exact ⟨made[n], List.getElem?_eq_getElem hlt, hmade⟩

theorem exists_earlier {earlier : Nat} {paragraph : OpenParagraph}
    {make : OpenParagraph → OpenParagraph}
    (h : (made.take n)[earlier]?.map make = some paragraph)
    : earlier < n ∧ ∃ old, made[earlier]? = some old ∧ make old = paragraph := by
  obtain ⟨old, hold, hmake⟩ := Option.map_eq_some_iff.1 h
  rw [List.getElem?_take] at hold
  split at hold
  . next hlt => exact ⟨hlt, old, hold, hmake⟩
  . contradiction

/-! ### Where a paragraph comes from -/

/--
A paragraph, by its number, stems from the one that was last made empty on the way to it. The runs
are those that were added on the way from there.
-/
inductive Stems (makings : List Making) : Nat → Nat → List TextRun → Prop where
  | new {n : Nat} {layout : Layout} {location : Option SourceLocation} :
    makings[n]? = some (.new layout location) → Stems makings n n []
  | reopen {n earlier : Nat} {layout : Layout} {location : Option SourceLocation} :
    makings[n]? = some (.reopen earlier layout location) → Stems makings n n []
  | append {n earlier origin : Nat} {added : TextRun} {runs : List TextRun} :
    makings[n]? = some (.append earlier added) → Stems makings earlier origin runs →
    Stems makings n origin (runs ++ [added])

/--
The layout and the place that an empty paragraph is given when it is made. One without a place of
its own stands before the first line, and stays in the file of the paragraph that it was reopened
from.
-/
inductive Gives (made : List OpenParagraph) : Making → Layout → SourceLocation → Prop where
  | new (layout : Layout) (location : Option SourceLocation) :
    Gives made (.new layout location) layout (location.getD { line := 0 })
  | reopen {earlier : Nat} {old : OpenParagraph} (layout : Layout)
    (location : Option SourceLocation) : made[earlier]? = some old →
    Gives made (.reopen earlier layout location) layout
      (location.getD { line := 0, sourceFile := old.location.sourceFile })

theorem exists_stems (h : makeAll? [] makings = some made) (hn : n < makings.length)
    : ∃ origin runs, Stems makings n origin runs := by
  induction n using Nat.strongRecOn with
  | ind n ih =>
    obtain ⟨making, hmaking⟩ : ∃ making, makings[n]? = some making :=
      ⟨_, List.getElem?_eq_getElem hn⟩
    cases making with
    | new layout location => exact ⟨n, [], .new hmaking⟩
    | reopen earlier layout location => exact ⟨n, [], .reopen hmaking⟩
    | append earlier added =>
      obtain ⟨paragraph, _, hmake⟩ := exists_made h hmaking
      obtain ⟨hearlier, _⟩ := exists_earlier hmake
      obtain ⟨origin, runs, hstems⟩ := ih earlier hearlier (by omega)
      exact ⟨origin, runs ++ [added], .append hmaking hstems⟩

theorem Stems.describes {origin : Nat} {runs : List TextRun} (hstems : Stems makings n origin runs)
    (h : makeAll? [] makings = some made) {paragraph : OpenParagraph}
    (hparagraph : made[n]? = some paragraph)
    : paragraph.runs = runs ∧ paragraph.count = runs.length
        ∧ ∃ making, makings[origin]? = some making
          ∧ Gives made making paragraph.layout paragraph.location := by
  induction hstems generalizing paragraph with
  | @new n layout location hmaking =>
    obtain ⟨found, hfound, hmake⟩ := exists_made h hmaking
    obtain rfl := Option.some.inj (hfound.symm.trans hparagraph)
    cases location with
    | none =>
      obtain rfl := Option.some.inj hmake
      exact ⟨rfl, rfl, _, hmaking, .new layout none⟩
    | some location =>
      obtain rfl := Option.some.inj hmake
      exact ⟨rfl, rfl, _, hmaking, .new layout (some location)⟩
  | @reopen n earlier layout location hmaking =>
    obtain ⟨found, hfound, hmake⟩ := exists_made h hmaking
    obtain rfl := Option.some.inj (hfound.symm.trans hparagraph)
    obtain ⟨_, old, hold, rfl⟩ := exists_earlier hmake
    exact ⟨rfl, rfl, _, hmaking, .reopen layout location hold⟩
  | append hmaking _ ih =>
    obtain ⟨found, hfound, hmake⟩ := exists_made h hmaking
    obtain rfl := Option.some.inj (hfound.symm.trans hparagraph)
    obtain ⟨_, old, hold, rfl⟩ := exists_earlier hmake
    obtain ⟨hruns, hcount, horigin⟩ := ih hold
    refine ⟨?_, ?_, horigin⟩
    . rw [runs_append, hruns]
    . rw [List.length_append, ← hcount]
      rfl

/--
Every paragraph that was ever made stays as it was made. Its runs are those that were added on the
way to it from the last paragraph that was made empty, in order, and its layout and its place are
those that were given there. Sealing it, at any time, gives a paragraph with just these.
-/
theorem runs_of_stems {later : List Making} {all : List OpenParagraph}
    (h : makeAll? [] makings = some made) (hlater : makeAll? made later = some all)
    : made.length = makings.length
      ∧ ∀ (n : Nat) (paragraph : OpenParagraph),
          made[n]? = some paragraph
            →
          all[n]? = some paragraph
          ∧ (∃ origin runs, Stems makings n origin runs)
          ∧ ∀ origin runs,
              Stems makings n origin runs
                →
              ∃ making layout location,
                makings[origin]? = some making
                ∧ Gives made making layout location
                ∧ paragraph.runs = runs
                ∧ paragraph.count = runs.length
                ∧ (paragraph.isEmpty = true ↔ runs = [])
                ∧ paragraph.layout = layout
                ∧ paragraph.location = location
                ∧ paragraph.sealed
                    = { runs, indent := layout.indent.ofNat, fill := layout.fill, location } := by
  have hlength : made.length = makings.length := by
    rw [length_of_makeAll? h, List.length_nil, Nat.zero_add]
  refine ⟨hlength, ?_⟩
  intro n paragraph hparagraph
  obtain ⟨hlt, _⟩ := List.getElem?_eq_some_iff.1 hparagraph
  refine ⟨?_, ?_, ?_⟩
  . obtain ⟨others, rfl⟩ := prefix_of_makeAll? hlater
    rw [List.getElem?_append_left hlt, hparagraph]
  . apply exists_stems h
    rwa [← hlength]
  . intro origin runs hstems
    obtain ⟨rfl, hcount, making, hmaking, hgives⟩ := hstems.describes h hparagraph
    refine ⟨making, _, _, hmaking, hgives, rfl, hcount, ?_, rfl, rfl, rfl⟩
    unfold isEmpty
    rw [hcount, beq_iff_eq, List.length_eq_zero_iff]

theorem runs_of_stems_of_branches
    : let makings : List Making :=
        [.new .standard (some { line := 2, sourceFile := "f" }), .append 0 { content := "a" },
          .append 1 { content := "b" }, .append 1 { content := "c" }]
      let later : List Making := [.reopen 3 (.filled (.number 10)), .append 1 { content := "d" }]
      ∃ made all branch,
        makeAll? [] makings = some made
        ∧ makeAll? made later = some all
        ∧ made[3]? = some branch
        ∧ all[3]? = some branch
        ∧ branch.sealed
            =
          { runs := [{ content := "a" }, { content := "c" }],
            location := { line := 2, sourceFile := "f" } } := by
  intro makings later
  obtain ⟨made, all, branch, h, hlater, hbranch⟩ :
      ∃ made all branch, makeAll? [] makings = some made ∧ makeAll? made later = some all
        ∧ made[3]? = some branch := ⟨_, _, _, rfl, rfl, rfl⟩
  obtain ⟨hall, _, hstems⟩ := (runs_of_stems h hlater).2 3 branch hbranch
  obtain ⟨_, layout, location, hmaking, hgives, _, _, _, _, _, hsealed⟩ := hstems 0
    [{ content := "a" }, { content := "c" }] (.append rfl (.append rfl (.new rfl)))
  obtain rfl := Option.some.inj hmaking
  cases hgives
  exact ⟨made, all, branch, h, hlater, hbranch, hall, hsealed⟩

end OpenParagraph

end DotFormat
