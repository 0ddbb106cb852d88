import DotFormat.Amount
import DotFormat.Style

/-!
This module contains the layout of a paragraph.
-/

namespace DotFormat

structure Layout (flag : Type := Bool) where
  indent : Amount Nat
  fill : flag
  deriving DecidableEq, Repr

namespace Layout

/--
The field of the padding, as messages call it.
-/
def indentField : String := "indent_units"

section

variable {flag : Type} [Flag flag]

/--
The layout of a paragraph that `.paragraph` opens.
-/
def standard : Layout flag :=
  { indent := .number 0, fill := Flag.ofBool false }

/--
The layout of a paragraph that `.fill` opens.
-/
def filled (padding : Amount Nat) : Layout flag :=
  { indent := padding, fill := Flag.ofBool true }

def withIndent (layout : Layout flag) (indent : Amount Nat) : Layout flag :=
  { layout with indent }

def withoutFill (layout : Layout flag) : Layout flag :=
  { layout with fill := Flag.ofBool false }

end

end Layout

end DotFormat
