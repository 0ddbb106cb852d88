import DotFormat.Document

/-!
This module contains the paragraph that still takes runs. It is a value: adding a run makes a new one
that shares the earlier runs, and the old one stays valid. The runs are kept in reverse, so that
adding one takes constant time, and put in order once, when the paragraph is sealed. What a run and a
layout are does not matter here.
-/

namespace DotFormat

structure OpenParagraph (layout : Type := Layout) (run : Type := TextRun) where
  layout : layout
  location : SourceLocation := .beforeFirst
  count : Nat := 0
  /-- The runs, the last one first. -/
  latest : List run := []
  deriving DecidableEq, Repr

namespace OpenParagraph

variable {layout run : Type}

def isEmpty (paragraph : OpenParagraph layout run) : Bool :=
  paragraph.count == 0

def runs (paragraph : OpenParagraph layout run) : List run :=
  paragraph.latest.reverse

def append (paragraph : OpenParagraph layout run) (added : run) : OpenParagraph layout run :=
  { paragraph with count := paragraph.count + 1, latest := added :: paragraph.latest }

/--
An empty paragraph that takes the place of another. Without a location of its own it stands before
the first line of the same file.
-/
def reopen (paragraph : OpenParagraph layout run) (next : layout)
    (location : Option SourceLocation := none) : OpenParagraph layout run :=
  { layout := next, location := location.getD (.beforeFirst paragraph.location.sourceFile) }

def sealed (paragraph : OpenParagraph) : Paragraph :=
  { runs := paragraph.runs
    indent := paragraph.layout.indent.ofNat
    fill := paragraph.layout.fill
    location := paragraph.location }

@[simp]
theorem runs_append (paragraph : OpenParagraph layout run) (added : run) :
    (paragraph.append added).runs = paragraph.runs ++ [added] := by
  simp [runs, append]

@[simp]
theorem runs_reopen (paragraph : OpenParagraph layout run) (next : layout)
    (location : Option SourceLocation) : (paragraph.reopen next location).runs = [] :=
  rfl

end OpenParagraph

end DotFormat
