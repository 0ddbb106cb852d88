import DotFormat.Proofs.Json.Scalar
import DotFormat.Text.Blank
import DotFormat.Text.Quoted
import Mathlib.Algebra.Group.Nat.Defs

/-!
This module contains what the quoted form of a text guarantees. It consists of printable characters, of
which only the space is blank, and it can be read off in front of any other text, whichever mark it
stands in.
-/

namespace DotFormat.Text

/-! ### Printable characters -/

theorem isPrintable_eq_false_of_range {c : Char} {first last : Nat}
    (hrange : (first, last) ∈ nonPrintableRanges) (hascii : 0x7F ≤ first) (hfirst : first ≤ c.toNat)
    (hlast : c.toNat ≤ last) : isPrintable c = false := by
  unfold isPrintable
  rw [if_neg (by omega), Bool.not_eq_false', List.any_eq_true]
  exact ⟨_, hrange, by simp [hfirst, hlast]⟩

-- The blank characters behind the space lie in six of the ranges.
theorem eq_space_of_isBlank {c : Char} (hblank : isBlank c = true) (h : isPrintable c = true)
    : c = ' ' := by
  have hout {first last : Nat} (hrange : (first, last) ∈ nonPrintableRanges)
      (hascii : 0x7F ≤ first) : ¬(first ≤ c.toNat ∧ c.toNat ≤ last) := by
    rintro ⟨hfirst, hlast⟩
    rw [isPrintable_eq_false_of_range hrange hascii hfirst hlast] at h
    contradiction
  have hcontrol := @hout 0x7F 0xA0 (by decide +kernel) (by decide)
  have hogham := @hout 0x1680 0x1680 (by decide +kernel) (by decide)
  have hquad := @hout 0x1FFF 0x200F (by decide +kernel) (by decide)
  have hline := @hout 0x2028 0x202F (by decide +kernel) (by decide)
  have hmath := @hout 0x205F 0x206F (by decide +kernel) (by decide)
  have hideographic := @hout 0x2FFC 0x3000 (by decide +kernel) (by decide)
  have hspace : 0x7F ≤ c.toNat ∨ 0x20 ≤ c.toNat := by
    unfold isPrintable at h
    split at h
    . exact .inr (of_decide_eq_true h)
    . omega
  simp only [isBlank, Bool.or_eq_true, Bool.and_eq_true, decide_eq_true_eq, beq_iff_eq] at hblank
  apply Char.toNat_inj.1
  have hvalue : ' '.toNat = 0x20 := rfl
  omega

def AllPrintable (text : String) : Prop :=
  ∀ c ∈ text.toList, isPrintable c = true

theorem AllPrintable.of_all {text : String} (h : text.toList.all isPrintable = true)
    : AllPrintable text :=
  List.all_eq_true.1 h

theorem AllPrintable.append {text other : String} (htext : AllPrintable text)
    (hother : AllPrintable other) : AllPrintable (text ++ other) := by
  intro c hc
  rw [String.toList_append, List.mem_append] at hc
  exact hc.elim (htext c) (hother c)

/-! ### Hexadecimal digits -/

/--
The value of hexadecimal digits.
-/
def hexValue (digits : List Char) : Nat :=
  digits.foldl (fun value c => 16 * value + (Json.hexDigit? c).getD 0) 0

theorem length_hexDigits (width n : Nat) : (hexDigits width n).length = width := by
  induction width generalizing n with
  | zero => rfl
  | succ width ih => rw [hexDigits, List.length_append, ih, List.length_singleton]

theorem exists_of_mem_hexDigits {width n : Nat} {c : Char} (h : c ∈ hexDigits width n)
    : ∃ d, d < 16 ∧ c = Nat.digitChar d := by
  induction width generalizing n with
  | zero => contradiction
  | succ width ih =>
    rw [hexDigits, List.mem_append, List.mem_singleton] at h
    rcases h with h | h
    . exact ih h
    . exact ⟨n % 16, Nat.mod_lt n (by omega), h⟩

theorem hexValue_hexDigits (width n : Nat) : hexValue (hexDigits width n) = n % 16 ^ width := by
  induction width generalizing n with
  | zero => simp [hexDigits, hexValue, Nat.mod_one]
  | succ width ih =>
    have hlast := Json.hexDigit?_digitChar (Nat.mod_lt n (show 0 < 16 by omega))
    unfold hexValue at ih ⊢
    rw [hexDigits, List.foldl_append, ih, List.foldl_cons, List.foldl_nil, hlast, Option.getD_some,
      Nat.pow_succ, Nat.mul_comm (16 ^ width), Nat.mod_mul]
    omega

/-! ### Quoted characters -/

/--
A quotation mark of either kind.
-/
def IsMark (mark : Char) : Prop :=
  mark = '\'' ∨ mark = '"'

variable {mark : Char}

theorem isMark_quoteMark (text : List Char) : IsMark (quoteMark text) := by
  unfold quoteMark
  split
  . exact .inr rfl
  . exact .inl rfl

theorem IsMark.isPrintable (h : IsMark mark) : isPrintable mark = true := by
  rcases h with rfl | rfl
  . rfl
  . rfl

theorem isPrintable_of_mem_hexDigits {width n : Nat} {c : Char} (h : c ∈ hexDigits width n)
    : isPrintable c = true := by
  have hdigit : ∀ d < 16, isPrintable (Nat.digitChar d) = true := by decide
  obtain ⟨d, hd, rfl⟩ := exists_of_mem_hexDigits h
  exact hdigit d hd

theorem isPrintable_of_mem_quoteChar (hmark : IsMark mark) {c d : Char} (h : d ∈ quoteChar mark c)
    : isPrintable d = true := by
  have hbackslash : isPrintable '\\' = true := rfl
  have hescape {letter : Char} (hletter : isPrintable letter = true) {width n : Nat}
      (hd : d ∈ '\\' :: letter :: hexDigits width n) : isPrintable d = true := by
    rcases List.mem_cons.1 hd with rfl | hd
    . exact hbackslash
    . rcases List.mem_cons.1 hd with rfl | hd
      . exact hletter
      . exact isPrintable_of_mem_hexDigits hd
  unfold quoteChar at h
  split at h
  . next hc =>
    simp only [Bool.or_eq_true, beq_iff_eq] at hc
    rcases List.mem_cons.1 h with rfl | h
    . exact hbackslash
    . rw [List.mem_singleton.1 h]
      rcases hc with rfl | rfl
      . exact hmark.isPrintable
      . exact hbackslash
  . repeat' split at h
    . exact @hescape 'n' rfl 0 0 h
    . exact @hescape 'r' rfl 0 0 h
    . exact @hescape 't' rfl 0 0 h
    . next hc => rwa [List.mem_singleton.1 h]
    . exact hescape rfl h
    . exact hescape rfl h
    . exact hescape rfl h

/--
The quoted form of a text has no line break, no control character and no blank but the space.
-/
theorem allPrintable_quote (text : String) : AllPrintable (quote text) := by
  have hmark := isMark_quoteMark text.toList
  intro c h
  unfold quote at h
  rw [String.toList_ofList, List.mem_append, List.mem_cons, List.mem_flatMap, List.mem_singleton] at h
  rcases h with (rfl | ⟨d, _, h⟩) | rfl
  . exact hmark.isPrintable
  . exact isPrintable_of_mem_quoteChar hmark h
  . exact hmark.isPrintable

/-! ### Reading quoted text -/

/--
The character that a quoted text begins with, and the rest of the text.
-/
def readQuoted : List Char → Option (Char × List Char)
  | '\\' :: 'n' :: rest => some ('\n', rest)
  | '\\' :: 'r' :: rest => some ('\r', rest)
  | '\\' :: 't' :: rest => some ('\t', rest)
  | '\\' :: 'x' :: rest => some (Char.ofNat (hexValue (rest.take 2)), rest.drop 2)
  | '\\' :: 'u' :: rest => some (Char.ofNat (hexValue (rest.take 4)), rest.drop 4)
  | '\\' :: 'U' :: rest => some (Char.ofNat (hexValue (rest.take 8)), rest.drop 8)
  | '\\' :: c :: rest => some (c, rest)
  | c :: rest => some (c, rest)
  | [] => none

theorem read_hexDigits {width : Nat} {c : Char} (h : c.toNat < 16 ^ width) (rest : List Char)
    : (Char.ofNat (hexValue ((hexDigits width c.toNat ++ rest).take width)),
        (hexDigits width c.toNat ++ rest).drop width) = (c, rest) := by
  rw [List.take_left' (length_hexDigits width _), List.drop_left' (length_hexDigits width _),
    hexValue_hexDigits, Nat.mod_eq_of_lt h, Char.ofNat_toNat]

theorem readQuoted_cons {c : Char} (h : c ≠ '\\') (rest : List Char)
    : readQuoted (c :: rest) = some (c, rest) := by
  -- Every other way to begin is a backslash.
  rw [readQuoted]
  all_goals
    intros
    contradiction

theorem readQuoted_quoteChar (hmark : IsMark mark) (c : Char) (rest : List Char)
    : readQuoted (quoteChar mark c ++ rest) = some (c, rest) := by
  have hvalid : c.toNat < 0xD800 ∨ 0xDFFF < c.toNat ∧ c.toNat < 0x110000 := c.valid
  unfold quoteChar
  split
  . next hc =>
    simp only [Bool.or_eq_true, beq_iff_eq] at hc
    rcases hc with rfl | rfl
    . rcases hmark with rfl | rfl
      . rfl
      . rfl
    . rfl
  . next hother =>
    simp only [Bool.or_eq_true, beq_iff_eq, not_or] at hother
    -- First the three control characters with a letter of their own, then a character that stands for
    -- itself, and then the hexadecimal forms, which are wide enough.
    repeat' split
    . next hc =>
      rw [eq_of_beq hc]
      rfl
    . next hc =>
      rw [eq_of_beq hc]
      rfl
    . next hc =>
      rw [eq_of_beq hc]
      rfl
    . apply readQuoted_cons hother.2
    . next h => exact congrArg some (read_hexDigits (by omega) rest)
    . next h => exact congrArg some (read_hexDigits (by omega) rest)
    . exact congrArg some (read_hexDigits (by omega) rest)

theorem quoteChar_append_inj (hmark : IsMark mark) {c d : Char} {rest behind : List Char}
    (h : quoteChar mark c ++ rest = quoteChar mark d ++ behind) : c = d ∧ rest = behind := by
  have hread := congrArg readQuoted h
  rw [readQuoted_quoteChar hmark, readQuoted_quoteChar hmark] at hread
  exact Prod.mk.inj (Option.some.inj hread)

/-! ### Telling quoted texts apart -/

theorem IsMark.ne_backslash (h : IsMark mark) : mark ≠ '\\' := by
  rcases h with rfl | rfl
  . decide
  . decide

-- A mark inside the text has a backslash in front, so a bare one can only be the closing one.
theorem quoteChar_append_ne (hmark : IsMark mark) (c : Char) (rest behind : List Char)
    : quoteChar mark c ++ rest ≠ mark :: behind := by
  have hbackslash {letters : List Char} : '\\' :: letters ++ rest ≠ mark :: behind :=
    fun h => hmark.ne_backslash (List.cons.inj h).1.symm
  unfold quoteChar
  split
  . exact hbackslash
  . next hother =>
    simp only [Bool.or_eq_true, beq_iff_eq, not_or] at hother
    repeat' split
    . exact hbackslash
    . exact hbackslash
    . exact hbackslash
    . exact fun h => hother.1 (List.cons.inj h).1
    . exact hbackslash
    . exact hbackslash
    . exact hbackslash

theorem flatMap_quoteChar_append_inj (hmark : IsMark mark) {text other rest behind : List Char}
    (h : text.flatMap (quoteChar mark) ++ mark :: rest
      = other.flatMap (quoteChar mark) ++ mark :: behind) : text = other ∧ rest = behind := by
  induction text generalizing other with
  | nil =>
    cases other with
    | nil => exact ⟨rfl, (List.cons.inj h).2⟩
    | cons d other =>
      rw [List.flatMap_cons, List.append_assoc] at h
      exact absurd h.symm (quoteChar_append_ne hmark d _ _)
  | cons c text ih =>
    rw [List.flatMap_cons, List.append_assoc] at h
    cases other with
    | nil => exact absurd h (quoteChar_append_ne hmark c _ _)
    | cons d other =>
      rw [List.flatMap_cons, List.append_assoc] at h
      obtain ⟨rfl, hothers⟩ := quoteChar_append_inj hmark h
      obtain ⟨rfl, hrest⟩ := ih hothers
      exact ⟨rfl, hrest⟩

/--
A quoted text ends where its closing mark is, so it tells the text whatever follows.
-/
theorem quote_append_inj {text other : String} {rest behind : List Char}
    (h : (quote text).toList ++ rest = (quote other).toList ++ behind)
    : text = other ∧ rest = behind := by
  simp only [quote, String.toList_ofList, List.cons_append, List.append_assoc, List.nil_append,
    List.cons.injEq] at h
  obtain ⟨hmark, hbody⟩ := h
  rw [← hmark] at hbody
  obtain ⟨htext, hrest⟩ := flatMap_quoteChar_append_inj (isMark_quoteMark _) hbody
  exact ⟨String.toList_inj.1 htext, hrest⟩

end DotFormat.Text
