import DotFormat.Line
import Mathlib.Algebra.Group.Nat.Defs

/-!
This module contains which numbers have a numeral of at most `Text.digitLimit` digits. They are those
below a power of ten, so the amounts that commands are read with are exactly these.
-/

namespace DotFormat

namespace Text

theorem bounds_of_isDigit {c : Char} (h : c.isDigit = true) : 48 ≤ c.toNat ∧ c.toNat ≤ 57 := by
  simpa [Char.isDigit, UInt32.le_iff_toNat_le] using h

theorem digitLimit_pos : 0 < digitLimit := by
  unfold digitLimit
  omega

theorem length_repr_le_iff {n : Nat}
    : (Nat.repr n).length ≤ digitLimit ↔ n < 10 ^ digitLimit := by
  apply Nat.length_repr_le_iff digitLimit_pos

theorem fitsNumeral_iff {n : Int} : fitsNumeral n = true ↔ n.natAbs < 10 ^ digitLimit := by
  unfold fitsNumeral
  rw [decide_eq_true_iff, length_repr_le_iff]

theorem ofDigitChars_lt {digits : List Char} (h : ∀ c ∈ digits, c.isDigit = true) (init : Nat)
    : Nat.ofDigitChars 10 digits init < (init + 1) * 10 ^ digits.length := by
  induction digits generalizing init with
  | nil => simp
  | cons c digits ih =>
    obtain ⟨hc, hdigits⟩ := List.forall_mem_cons.1 h
    obtain ⟨hlow, hhigh⟩ := bounds_of_isDigit hc
    have hinit : 10 * init + (c.toNat - '0'.toNat) + 1 ≤ (init + 1) * 10 := by
      simp only [Char.reduceToNat]
      omega
    rw [Nat.ofDigitChars_cons, List.length_cons]
    calc Nat.ofDigitChars 10 digits (10 * init + (c.toNat - '0'.toNat))
      _ < (10 * init + (c.toNat - '0'.toNat) + 1) * 10 ^ digits.length := ih hdigits _
      _ ≤ (init + 1) * 10 * 10 ^ digits.length := Nat.mul_le_mul_right _ hinit
      _ = (init + 1) * 10 ^ (digits.length + 1) := by rw [Nat.mul_assoc, Nat.pow_succ']

theorem lt_of_readDigits {digits : List Char} (h : ∀ c ∈ digits, c.isDigit = true) {n : Nat}
    (hread : readDigits digits = .ok n) : n < 10 ^ digitLimit := by
  unfold readDigits at hread
  split at hread
  . next hlength =>
    injection hread with hread
    subst hread
    apply Nat.lt_of_lt_of_le
    . apply ofDigitChars_lt h
    . rw [Nat.zero_add, Nat.one_mul]
      apply Nat.pow_le_pow_right
      . omega
      . exact hlength
  . contradiction

end Text

namespace Command

theorem lt_of_readUnits {directive : String} {argument : List Char} {n : Nat}
    (h : readUnits directive argument = .ok n) : n < 10 ^ Text.digitLimit := by
  unfold readUnits at h
  dsimp only at h
  split at h
  . split at h
    . contradiction
    . contradiction
  . split at h
    . contradiction
    . next hdigits =>
      simp only [Bool.or_eq_true, Bool.not_eq_true', not_or, Bool.not_eq_false,
        List.all_eq_true] at hdigits
      split at h
      . next hread =>
        injection h with h
        subst h
        apply Text.lt_of_readDigits hdigits.2 hread
      . contradiction

theorem argument_lt_of_ofWords {keyword : Keyword} {directive : String}
    {arguments : List (List Char)} {command : Command}
    (h : ofWords keyword directive arguments = .ok command)
    : ∀ units ∈ command.argument?, units < 10 ^ Text.digitLimit := by
  unfold ofWords at h
  dsimp only at h
  split at h
  . next found hfound =>
    split at h
    . injection h with h
      subst h
      cases keyword <;> simp [Keyword.command?] at hfound <;> subst hfound <;> simp [argument?]
    . contradiction
  . split at h
    . contradiction
    . next argument =>
      cases hread : readUnits directive argument with
      | error e =>
        rw [hread] at h
        contradiction
      | ok n =>
        rw [hread] at h
        injection h with h
        subst h
        rintro units ⟨⟩
        exact lt_of_readUnits hread
    . contradiction

theorem argument_lt_of_read {rest : List Char} {acceptAlias : Bool} {command : Command}
    (h : read rest acceptAlias = .ok command)
    : ∀ units ∈ command.argument?, units < 10 ^ Text.digitLimit := by
  unfold read at h
  split at h
  . contradiction
  . split at h
    . contradiction
    . dsimp only at h
      split at h
      . contradiction
      . apply argument_lt_of_ofWords h

end Command

end DotFormat
