/-!
This module contains whole numbers in decimal digits. Numerals are limited to `digitLimit` digits,
both when they are read and when they are written where the limit applies.
-/

namespace DotFormat.Text

/--
The greatest number of digits of a numeral. Leading zeros count, a sign does not.
-/
def digitLimit : Nat := 4300

inductive NumeralError where
  | tooLong
  deriving DecidableEq, Repr

/--
The decimal digits of a number behind its sign, of any length.
-/
def numeral (n : Int) : String :=
  match n with
  | .ofNat n => Nat.repr n
  | .negSucc n => "-" ++ Nat.repr (n + 1)

def fitsNumeral (n : Int) : Bool :=
  (Nat.repr n.natAbs).length ≤ digitLimit

def readDigits (digits : List Char) : Except NumeralError Nat :=
  if digits.length ≤ digitLimit then .ok (Nat.ofDigitChars 10 digits 0) else .error .tooLong

theorem readDigits_repr (n : Nat) (h : (Nat.repr n).length ≤ digitLimit) :
    readDigits (Nat.repr n).toList = .ok n := by
  have hlen : (Nat.repr n).toList.length ≤ digitLimit := by
    rwa [String.length_toList]
  rw [readDigits, if_pos hlen, Nat.toList_repr, Nat.ofDigitChars_ten_toDigits]

end DotFormat.Text
