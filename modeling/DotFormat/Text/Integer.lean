import DotFormat.Text.Blank
import DotFormat.Text.Decimal

/-!
This module contains the reading of a whole number as a person types it: blanks around it, a sign,
underscores between digits and the decimal digits of every script are accepted.
-/

namespace DotFormat.Text

/--
The zeros of the Unicode 14 characters of category Nd. The ten digits of a script are consecutive.
-/
def decimalZeros : List Nat :=
  [0x30, 0x660, 0x6F0, 0x7C0, 0x966, 0x9E6, 0xA66, 0xAE6, 0xB66, 0xBE6, 0xC66, 0xCE6, 0xD66,
   0xDE6, 0xE50, 0xED0, 0xF20, 0x1040, 0x1090, 0x17E0, 0x1810, 0x1946, 0x19D0, 0x1A80, 0x1A90,
   0x1B50, 0x1BB0, 0x1C40, 0x1C50, 0xA620, 0xA8D0, 0xA900, 0xA9D0, 0xA9F0, 0xAA50, 0xABF0, 0xFF10,
   0x104A0, 0x10D30, 0x11066, 0x110F0, 0x11136, 0x111D0, 0x112F0, 0x11450, 0x114D0, 0x11650,
   0x116C0, 0x11730, 0x118E0, 0x11950, 0x11C50, 0x11D50, 0x11DA0, 0x16A60, 0x16AC0, 0x16B50,
   0x1D7CE, 0x1D7D8, 0x1D7E2, 0x1D7EC, 0x1D7F6, 0x1E140, 0x1E2F0, 0x1E950, 0x1FBF0]

def decimalDigit? (c : Char) : Option Nat :=
  (decimalZeros.find? fun z => z ≤ c.toNat && c.toNat ≤ z + 9).map (c.toNat - ·)

/--
One character of a text that is not all ASCII, in ASCII: a blank becomes a space, a digit the ASCII
digit of its value, and any other character one that no numeral contains.
-/
def toAsciiNumeral (c : Char) : Char :=
  if c.toNat < 0x7F then c
  else if isBlank c then ' '
  else
    match decimalDigit? c with
    | some d => Nat.digitChar d
    | none => '?'

/--
The digits of a numeral, with single underscores between them taken out.
-/
def ungroupDigits : List Char → Option (List Char)
  | [] => none
  | [c] => if c.isDigit then some [c] else none
  | c :: '_' :: rest => if c.isDigit then (ungroupDigits rest).map (c :: ·) else none
  | c :: rest => if c.isDigit then (ungroupDigits rest).map (c :: ·) else none

/--
The blanks that may surround a number: the space and the ASCII characters from tab to carriage return.
-/
def isAsciiBlank (c : Char) : Bool :=
  c == ' ' || (9 ≤ c.toNat && c.toNat ≤ 13)

def readInteger? (text : String) : Option Int :=
  let ascii := if text.toList.all (·.toNat < 0x80) then text.toList
    else text.toList.map toAsciiNumeral
  let bare := (ascii.dropWhile isAsciiBlank).reverse.dropWhile isAsciiBlank |>.reverse
  match bare with
  | '-' :: rest => (magnitude? rest).map fun n => -(n : Int)
  | '+' :: rest => (magnitude? rest).map Int.ofNat
  | rest => (magnitude? rest).map Int.ofNat
where
  /-- The value of digits without a sign. -/
  magnitude? (digits : List Char) : Option Nat :=
    (ungroupDigits digits).bind fun digits => (readDigits digits).toOption

end DotFormat.Text
