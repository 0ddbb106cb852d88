/-!
This module contains the commands that can be written on a line of their own, and their names.
-/

namespace DotFormat

/--
What a command is called. The names are those that a user writes behind the dot.
-/
inductive Keyword where
  | paragraph
  | fill
  | nofill
  | regular
  | bold
  | italics
  | large
  | normal
  | indent
  deriving DecidableEq, Repr

inductive Command where
  /-- Start a paragraph with the default layout. -/
  | paragraph
  /-- Start a justified paragraph with a fixed padding. -/
  | fill
  /-- Start a paragraph that is not justified. -/
  | nofill
  /-- Start a paragraph with the given padding. -/
  | indent (units : Nat)
  /-- Forget the pending style. -/
  | regular
  /-- Make the next line bold. -/
  | bold
  /-- Make the next line italic. -/
  | italics
  /-- Make the next line large. -/
  | large
  /-- Do not make the next line large. -/
  | normal
  deriving DecidableEq, Repr

def commandMark : Char := '.'

namespace Keyword

def name : Keyword → String
  | paragraph => "paragraph"
  | fill => "fill"
  | nofill => "nofill"
  | regular => "regular"
  | bold => "bold"
  | italics => "italics"
  | large => "large"
  | normal => "normal"
  | indent => "indent"

def all : List Keyword :=
  [paragraph, fill, nofill, regular, bold, italics, large, normal, indent]

theorem mem_all (keyword : Keyword) : keyword ∈ all := by
  cases keyword <;> decide

theorem name_injective {k l : Keyword} (h : k.name = l.name) : k = l := by
  cases k <;> cases l <;> first | rfl | (exact absurd h (by decide))

def ofAlias? (name : String) : Option Keyword :=
  if name = "italic" then some italics else none

/--
The keyword with a given name; other spellings count only if `acceptAlias` is set.
-/
def ofName? (name : String) (acceptAlias : Bool) : Option Keyword :=
  match all.find? fun keyword => keyword.name = name with
  | some keyword => some keyword
  | none => if acceptAlias then ofAlias? name else none

theorem ofName?_name (keyword : Keyword) (acceptAlias : Bool) :
    ofName? keyword.name acceptAlias = some keyword := by
  cases keyword <;> simp [ofName?, all, name, List.find?]

/--
The command of a keyword that takes no argument.
-/
def command? : Keyword → Option Command
  | paragraph => some .paragraph
  | fill => some .fill
  | nofill => some .nofill
  | regular => some .regular
  | bold => some .bold
  | italics => some .italics
  | large => some .large
  | normal => some .normal
  | indent => none

def takesArgument (keyword : Keyword) : Bool :=
  keyword.command?.isNone

end Keyword

namespace Command

def keyword : Command → Keyword
  | paragraph => .paragraph
  | fill => .fill
  | nofill => .nofill
  | indent _ => .indent
  | regular => .regular
  | bold => .bold
  | italics => .italics
  | large => .large
  | normal => .normal

def argument? : Command → Option Nat
  | indent units => some units
  | _ => none

def endsParagraph : Command → Bool
  | paragraph | fill | nofill | indent _ => true
  | _ => false

theorem keyword_of_command? {k : Keyword} {c : Command} (h : k.command? = some c) :
    c.keyword = k := by
  cases k <;> simp [Keyword.command?] at h <;> subst h <;> rfl

end Command

end DotFormat
