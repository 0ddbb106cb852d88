import DotFormat.Json.Printer
import DotFormat.Json.Reader
import Mathlib.Data.List.Basic

/-!
This module contains the way back from the text of a JSON scalar to the scalar: strings with their
escapes, and integers. What follows the scalar in the text must not look like more of it.
-/

namespace DotFormat

namespace Json

theorem hexDigit?_digitChar {d : Nat} (h : d < 16) : hexDigit? (Nat.digitChar d) = some d := by
  revert d
  decide

theorem readUnits_hexDigits {n : Nat} (h : n < 0x10000) (rest : List Char)
    : readUnits ('\\' :: 'u' :: (Text.hexDigits 4 n ++ rest))
        = (readUnits rest).map fun (units, rest) => (n :: units, rest) := by
  have hdigits : Text.hexDigits 4 n
      = [Nat.digitChar (n / 16 / 16 / 16 % 16), Nat.digitChar (n / 16 / 16 % 16),
          Nat.digitChar (n / 16 % 16), Nat.digitChar (n % 16)] := rfl
  have hunit : hexUnit? (Nat.digitChar (n / 16 / 16 / 16 % 16)) (Nat.digitChar (n / 16 / 16 % 16))
      (Nat.digitChar (n / 16 % 16)) (Nat.digitChar (n % 16)) = some n := by
    unfold hexUnit?
    repeat rw [hexDigit?_digitChar (by omega)]
    simp only [Option.bind_eq_bind, Option.bind_some, Option.pure_def, Option.some.injEq]
    omega
  rw [hdigits]
  simp only [List.cons_append, List.nil_append, readUnits]
  rw [hunit]

theorem readUnits_escaped {c d : Char} (hc : c ≠ 'u') (h : escaped? c = some d) (rest : List Char)
    : readUnits ('\\' :: c :: rest)
        = (readUnits rest).map fun (units, rest) => (d.toNat :: units, rest) := by
  rw [readUnits]
  . rw [h]
  . intro _ _ _ _ _ heq
    exact absurd heq hc

theorem readUnits_plain {c : Char} (hquote : c ≠ '"') (hbackslash : c ≠ '\\')
    (hcontrol : 0x20 ≤ c.toNat) (rest : List Char)
    : readUnits (c :: rest)
        = (readUnits rest).map fun (units, rest) => (c.toNat :: units, rest) := by
  rw [readUnits]
  . rw [if_neg]
    simp only [Bool.or_eq_true, beq_iff_eq, decide_eq_true_eq, not_or]
    exact ⟨hbackslash, by omega⟩
  . exact hquote
  . intro _ _ _ _ _ heq
    exact absurd heq hbackslash
  . intro _ _ heq
    exact absurd heq hbackslash

theorem readUnits_writeChar (c : Char) (rest : List Char)
    : readUnits (writeChar c ++ rest)
        = (readUnits rest).map fun (units, rest) => (c.toNat :: units, rest) := by
  by_cases hescaped : c ∈ ['"', '\\', '\n', '\r', '\t', '\x0c', '\x08']
  . simp only [List.mem_cons, List.not_mem_nil, or_false] at hescaped
    rcases hescaped with rfl | rfl | rfl | rfl | rfl | rfl | rfl <;>
      exact readUnits_escaped (by decide) rfl rest
  . simp only [List.mem_cons, List.not_mem_nil, or_false, not_or] at hescaped
    obtain ⟨hquote, hbackslash, hothers⟩ := hescaped
    simp only [writeChar, Bool.or_eq_true, beq_iff_eq, hquote, hbackslash, hothers, or_self,
      ↓reduceIte]
    split
    . exact readUnits_hexDigits (by omega) rest
    . exact readUnits_plain hquote hbackslash (by omega) rest

theorem not_isSurrogate (c : Char) : isHighSurrogate c.toNat = false ∧ isLowSurrogate c.toNat = false := by
  have hvalid : c.toNat < 0xD800 ∨ 0xDFFF < c.toNat ∧ c.toNat < 0x110000 := c.valid
  simp only [isHighSurrogate, isLowSurrogate, Bool.and_eq_false_iff, decide_eq_false_iff_not]
  omega

theorem unitChar_toNat (c : Char) : unitChar c.toNat = c := by
  unfold unitChar
  simp [not_isSurrogate]

theorem joinUnits_map_toNat (cs : List Char) : joinUnits (cs.map Char.toNat) = cs := by
  induction cs with
  | nil => rfl
  | cons c cs ih =>
    cases cs with
    | nil => simp [joinUnits, unitChar_toNat]
    | cons d cs =>
      simp only [List.map_cons] at ih ⊢
      unfold joinUnits
      rw [ih]
      simp [not_isSurrogate, unitChar_toNat]

theorem readUnits_flatMap_writeChar (cs rest : List Char)
    : readUnits (cs.flatMap writeChar ++ '"' :: rest) = .ok (cs.map Char.toNat, rest) := by
  induction cs with
  | nil => rfl
  | cons c cs ih =>
    rw [List.flatMap_cons, List.append_assoc, readUnits_writeChar, ih]
    rfl

theorem readString_writeString (s : String) (rest : List Char)
    : ∃ text, writeString s ++ rest = '"' :: text ∧ readString text = .ok (s, rest) := by
  refine ⟨s.toList.flatMap writeChar ++ '"' :: rest, by simp [writeString], ?_⟩
  unfold readString
  rw [readUnits_flatMap_writeChar]
  simp [Except.map, joinUnits_map_toNat]

/--
What follows does not continue a number.
-/
def EndsNumber (rest : List Char) : Prop :=
  ∀ c ∈ rest.head?, c.isDigit = false ∧ c ≠ '.' ∧ c ≠ 'e' ∧ c ≠ 'E'

theorem ne_of_isDigit {c : Char} (hc : c.isDigit = true) (d : Char) (hd : d.isDigit = false)
    : c ≠ d := by
  rintro rfl
  rw [hc] at hd
  contradiction

theorem isDigit_of_mem_toDigits {n : Nat} {c : Char} (h : c ∈ Nat.toDigits 10 n)
    : c.isDigit = true :=
  Nat.isDigit_of_mem_toDigits (by omega) (by omega) h

theorem toDigits_eq_cons (n : Nat)
    : ∃ c digits, Nat.toDigits 10 n = c :: digits ∧ c.isDigit = true := by
  obtain ⟨c, digits, hdigits⟩ := List.exists_cons_of_ne_nil (@Nat.toDigits_ne_nil n 10)
  refine ⟨c, digits, hdigits, ?_⟩
  apply @isDigit_of_mem_toDigits n
  simp [hdigits]

theorem head?_toDigits_ne_zero {n : Nat} (h : 0 < n) : (Nat.toDigits 10 n).head? ≠ some '0' := by
  induction n using Nat.strongRecOn with
  | ind n ih =>
    rw [Nat.toDigits_eq_if (by omega)]
    split
    . next hn =>
      have hdigits : ∀ d < 10, 0 < d → Nat.digitChar d ≠ '0' := by decide
      simpa using hdigits n hn h
    . rw [List.head?_append_of_ne_nil _ Nat.toDigits_ne_nil]
      apply ih <;> omega

theorem takeWhile_isDigit_append {digits rest : List Char} (hdigits : ∀ c ∈ digits, c.isDigit = true)
    (hrest : EndsNumber rest) : (digits ++ rest).takeWhile Char.isDigit = digits := by
  rw [List.takeWhile_append_of_pos hdigits]
  cases rest with
  | nil => simp
  | cons c rest =>
    have hc : c.isDigit = false := (hrest c rfl).1
    simp [hc]

-- Several digits do not begin with zero, so nothing is cut off behind the first one.
theorem leadingDigits (n : Nat) {rest : List Char} (hrest : EndsNumber rest)
    : (if (Nat.toDigits 10 n ++ rest).head? = some '0' then ['0']
        else (Nat.toDigits 10 n ++ rest).takeWhile Char.isDigit) = Nat.toDigits 10 n := by
  rw [List.head?_append_of_ne_nil _ Nat.toDigits_ne_nil,
    takeWhile_isDigit_append (fun _ => isDigit_of_mem_toDigits) hrest]
  rcases Nat.eq_zero_or_pos n with rfl | hn
  . rw [Nat.toDigits_zero]
    rfl
  . rw [if_neg (head?_toDigits_ne_zero hn)]

theorem fraction_eq_nil {rest : List Char} (h : EndsNumber rest) : fraction rest = [] := by
  cases rest with
  | nil => rfl
  | cons c rest =>
    unfold fraction
    split
    . next heq =>
      injection heq with hc
      exact absurd hc (h c rfl).2.1
    . rfl

theorem exponent_eq_nil {rest : List Char} (h : EndsNumber rest) : exponent rest = [] := by
  cases rest with
  | nil => rfl
  | cons c rest =>
    obtain ⟨_, _, he, hE⟩ := h c rfl
    unfold exponent
    simp [he, hE]

theorem readNumber_toDigits {n : Nat} (hn : (Nat.toDigits 10 n).length ≤ Text.digitLimit)
    {sign rest : List Char} (hsign : sign = [] ∨ sign = ['-']) (hrest : EndsNumber rest)
    : readNumber (sign ++ (Nat.toDigits 10 n ++ rest))
        = .ok (.int (if sign.isEmpty then n else -(n : Int)), rest) := by
  have htake : ((sign ++ (Nat.toDigits 10 n ++ rest)).take 1).filter (· == '-') = sign := by
    rcases hsign with rfl | rfl
    . obtain ⟨c, digits, hdigits, hc⟩ := toDigits_eq_cons n
      have hminus : c ≠ '-' := ne_of_isDigit hc '-' rfl
      simp [hdigits, hminus]
    . simp
  have hread : Text.readDigits (Nat.toDigits 10 n) = .ok n := by
    rw [← Nat.toList_repr]
    apply Text.readDigits_repr
    rwa [← String.length_toList, Nat.toList_repr]
  unfold readNumber
  simp only [htake, List.drop_left', leadingDigits n hrest, fraction_eq_nil hrest,
    exponent_eq_nil hrest, hread, List.isEmpty_iff, Nat.toDigits_ne_nil, List.length_nil,
    List.drop_zero]
  simp

theorem findSome?_literals {c : Char} (hc : c.isDigit = true) {sign : List Char}
    (hsign : sign = [] ∨ sign = ['-']) (text : List Char)
    : (literals.findSome? fun (word, value) =>
        (behind? word.toList (sign ++ c :: text)).map (value, ·)) = none := by
  have hne := fun d hd => (ne_of_isDigit hc d hd).symm
  rcases hsign with rfl | rfl
  . simp [literals, behind?, hne 'n' rfl, hne 't' rfl, hne 'f' rfl, hne 'N' rfl, hne 'I' rfl,
      hne '-' rfl]
  . simp [literals, behind?, hne 'I' rfl]

theorem readScalar_toDigits {n : Nat} (hn : (Nat.toDigits 10 n).length ≤ Text.digitLimit)
    {sign rest : List Char} (hsign : sign = [] ∨ sign = ['-']) (hrest : EndsNumber rest)
    : readScalar (sign ++ (Nat.toDigits 10 n ++ rest))
        = .ok (.int (if sign.isEmpty then n else -(n : Int)), rest) := by
  rw [← readNumber_toDigits hn hsign hrest]
  obtain ⟨c, digits, hdigits, hc⟩ := toDigits_eq_cons n
  rw [hdigits, List.cons_append]
  unfold readScalar
  rw [findSome?_literals hc hsign]

theorem numeral_eq (n : Int)
    : ∃ sign, (sign = [] ∨ sign = ['-'])
        ∧ (Text.numeral n).toList = sign ++ Nat.toDigits 10 n.natAbs
        ∧ (if sign.isEmpty then (n.natAbs : Int) else -(n.natAbs : Int)) = n := by
  cases n with
  | ofNat n => exact ⟨[], .inl rfl, by simp [Text.numeral], rfl⟩
  | negSucc n =>
    refine ⟨['-'], .inr rfl, by simp [Text.numeral], ?_⟩
    simp only [List.isEmpty_cons, Bool.false_eq_true, ↓reduceIte]
    omega

theorem isDigit_of_mem_numeral {n : Int} {c : Char} (h : c ∈ (Text.numeral n).toList) (hc : c ≠ '-')
    : c.isDigit = true := by
  obtain ⟨sign, hsign, hnumeral, _⟩ := numeral_eq n
  rw [hnumeral, List.mem_append] at h
  rcases h with h | h
  . rcases hsign with rfl | rfl
    . contradiction
    . exact absurd (List.mem_singleton.1 h) hc
  . exact isDigit_of_mem_toDigits h

theorem toDigits_injective : Function.Injective (Nat.toDigits 10) := by
  intro m n h
  rw [← @Nat.ofDigitChars_ten_toDigits m, h, Nat.ofDigitChars_ten_toDigits]

theorem sign_append_toDigits_inj {sign other : List Char} (hsign : sign = [] ∨ sign = ['-'])
    (hother : other = [] ∨ other = ['-']) {m n : Nat}
    (h : sign ++ Nat.toDigits 10 m = other ++ Nat.toDigits 10 n) : sign = other ∧ m = n := by
  have hdash (n : Nat) (digits : List Char) : Nat.toDigits 10 n ≠ '-' :: digits := by
    intro heq
    have hdigit : '-'.isDigit = true := isDigit_of_mem_toDigits (heq ▸ List.mem_cons_self)
    contradiction
  rcases hsign with rfl | rfl
  . rcases hother with rfl | rfl
    . exact ⟨rfl, toDigits_injective h⟩
    . exact absurd h (hdash m _)
  . rcases hother with rfl | rfl
    . exact absurd h.symm (hdash n _)
    . exact ⟨rfl, toDigits_injective (List.append_cancel_left h)⟩

theorem numeral_injective : Function.Injective Text.numeral := by
  intro m n h
  obtain ⟨sign, hsign, hm, hmvalue⟩ := numeral_eq m
  obtain ⟨other, hother, hn, hnvalue⟩ := numeral_eq n
  rw [← String.toList_inj, hm, hn] at h
  obtain ⟨rfl, habs⟩ := sign_append_toDigits_inj hsign hother h
  rw [← hmvalue, ← hnvalue, habs]

theorem readScalar_numeral {n : Int} (hn : Text.fitsNumeral n = true) {rest : List Char}
    (hrest : EndsNumber rest)
    : readScalar ((Text.numeral n).toList ++ rest) = .ok (.int n, rest) := by
  obtain ⟨sign, hsign, hnumeral, hvalue⟩ := numeral_eq n
  have hlength : (Nat.toDigits 10 n.natAbs).length ≤ Text.digitLimit := by
    unfold Text.fitsNumeral at hn
    rw [decide_eq_true_eq, ← String.length_toList, Nat.toList_repr] at hn
    exact hn
  rw [hnumeral, List.append_assoc, readScalar_toDigits hlength hsign hrest, hvalue]

end Json

end DotFormat
