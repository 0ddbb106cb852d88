/-!
This module contains the style of one run of text. A style is a triple of flags; flags that come from
the outside may be values of any type, so the type of the flags is a parameter.
-/

namespace DotFormat

/--
A type whose values can stand for yes and no.
-/
class Flag (flag : Type) where
  ofBool : Bool → flag

instance : Flag Bool where
  ofBool b := b

@[simp]
theorem Flag.ofBool_eq (b : Bool) : (Flag.ofBool b : Bool) = b :=
  rfl

structure Style (flag : Type := Bool) where
  bold : flag
  italic : flag
  large : flag
  deriving DecidableEq, Repr

namespace Style

section

variable {flag : Type} [Flag flag]

def plain : Style flag :=
  { bold := Flag.ofBool false, italic := Flag.ofBool false, large := Flag.ofBool false }

def withBold (style : Style flag) : Style flag :=
  { style with bold := Flag.ofBool true }

def withItalic (style : Style flag) : Style flag :=
  { style with italic := Flag.ofBool true }

def withLarge (style : Style flag) : Style flag :=
  { style with large := Flag.ofBool true }

def normalSize (style : Style flag) : Style flag :=
  { style with large := Flag.ofBool false }

end

end Style

end DotFormat
