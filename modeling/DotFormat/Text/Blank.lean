/-!
This module contains the blank characters and the splitting of a text into words. A word is a
maximal piece without blanks, so `words` is insensitive to how much blank space surrounds a word.
-/

namespace DotFormat.Text

/--
The blank characters: those with the Unicode property White_Space and the four information
separators U+001C to U+001F.
-/
def isBlank (c : Char) : Bool :=
  let n := c.toNat
  (9 ≤ n && n ≤ 13) || (28 ≤ n && n ≤ 32) || n == 0x85 || n == 0xA0 || n == 0x1680
    || (0x2000 ≤ n && n ≤ 0x200A) || n == 0x2028 || n == 0x2029 || n == 0x202F || n == 0x205F
    || n == 0x3000

theorem isBlank_of_isWhitespace (c : Char) (h : c.isWhitespace) : isBlank c := by
  simp only [Char.isWhitespace, Bool.or_eq_true, decide_eq_true_eq] at h
  rcases h with ((h | h) | h) | h <;> subst h <;> decide

/--
The words of a text in order, none of them empty.
-/
def words (text : List Char) : List (List Char) :=
  let (first, rest) := go text
  cons first rest
where
  /-- Put a word in front, unless it is empty. -/
  cons (word : List Char) (rest : List (List Char)) : List (List Char) :=
    if word.isEmpty then rest else word :: rest
  /-- The piece up to the first blank, and the words behind it. -/
  go : List Char → List Char × List (List Char)
    | [] => ([], [])
    | c :: text =>
      let (first, rest) := go text
      if isBlank c then ([], cons first rest) else (c :: first, rest)

theorem words.go_of_blank {c : Char} {text : List Char} (h : isBlank c) :
    words.go (c :: text) = ([], words text) := by
  simp [words.go, h, words]

theorem words_cons_of_blank {c : Char} {text : List Char} (h : isBlank c) :
    words (c :: text) = words text := by
  rw [words, words.go_of_blank h]
  rfl

theorem words_nil : words [] = [] :=
  rfl

end DotFormat.Text
