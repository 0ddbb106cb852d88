import DotFormat.Proofs.LineEnd
import DotFormat.Proofs.Refusals

/-!
This module contains what the words of a text are, said by the shape of the text: words are maximal
pieces without blanks, and only blanks stand between them. A text can be seen in this way in exactly
one manner, and dividing it finds that.
-/

namespace DotFormat.Text

def AllBlank (text : List Char) : Prop :=
  ∀ c ∈ text, isBlank c = true

structure IsWord (word : List Char) : Prop where
  ne_nil : word ≠ []
  notBlank : ∀ c ∈ word, isBlank c = false

/--
A text that a word in front of it does not go on in.
-/
def EndsWord (rest : List Char) : Prop :=
  ∀ c ∈ rest.head?, isBlank c = true

/--
A text and its words.
-/
inductive Divided : List Char → List (List Char) → Prop where
  | blank {blanks : List Char} : AllBlank blanks → Divided blanks []
  | word {blanks word rest : List Char} {words : List (List Char)} : AllBlank blanks → IsWord word →
    EndsWord rest → Divided rest words → Divided (blanks ++ (word ++ rest)) (word :: words)

theorem IsWord.of_any {word : List Char} (hne : word ≠ []) (h : word.any isBlank = false)
    : IsWord word where
  ne_nil := hne
  notBlank := fun c hc => Bool.eq_false_iff.2 (List.any_eq_false.1 h c hc)

theorem AllBlank.endsWord {blanks : List Char} (h : AllBlank blanks) : EndsWord blanks :=
  fun c hc => h c (List.mem_of_head? hc)

theorem AllBlank.endsWord_append {blanks : List Char} (h : AllBlank blanks) (hne : blanks ≠ [])
    (rest : List Char) : EndsWord (blanks ++ rest) := by
  intro c hc
  apply h.endsWord
  rwa [List.head?_append_of_ne_nil _ hne] at hc

theorem IsWord.not_endsWord_append {word : List Char} (h : IsWord word) (rest : List Char)
    : ¬EndsWord (word ++ rest) := by
  cases word with
  | nil => exact absurd rfl h.ne_nil
  | cons c word =>
    intro hends
    have hblank : isBlank c = true := hends c rfl
    rw [h.notBlank c List.mem_cons_self] at hblank
    contradiction

theorem words_blank_append {blanks : List Char} (h : AllBlank blanks) (text : List Char)
    : words (blanks ++ text) = words text := by
  induction blanks with
  | nil => rfl
  | cons c blanks ih =>
    obtain ⟨hc, hblanks⟩ := List.forall_mem_cons.1 h
    rw [List.cons_append, words_cons_of_blank hc, ih hblanks]

theorem words_word_append {word rest : List Char} (h : IsWord word) (hrest : EndsWord rest)
    : words (word ++ rest) = word :: words rest := by
  cases rest with
  | nil =>
    rw [List.append_nil, words_eq_singleton h.notBlank h.ne_nil]
    rfl
  | cons c rest =>
    have hc : isBlank c = true := hrest c rfl
    rw [words_append_cons h.notBlank h.ne_nil hc, words_cons_of_blank hc]

theorem Divided.words_eq {text : List Char} {found : List (List Char)} (h : Divided text found)
    : words text = found := by
  induction h with
  | blank hblanks => apply words_eq_nil hblanks
  | word hblanks hword hrest _ ih =>
    rw [words_blank_append hblanks, words_word_append hword hrest, ih]

/-! ### Every text can be divided -/

theorem Divided.cons_of_blank {c : Char} {text : List Char} {found : List (List Char)}
    (hc : isBlank c = true) (h : Divided text found) : Divided (c :: text) found := by
  cases h with
  | blank hblanks => exact .blank (List.forall_mem_cons.2 ⟨hc, hblanks⟩)
  | word hblanks hword hrest hdivided =>
    exact .word (List.forall_mem_cons.2 ⟨hc, hblanks⟩) hword hrest hdivided

-- The character begins a word of its own, unless the text begins with a word that it belongs to.
theorem Divided.exists_cons_of_notBlank {c : Char} {text : List Char} {found : List (List Char)}
    (hc : isBlank c = false) (h : Divided text found) : ∃ others, Divided (c :: text) others := by
  have hnil : AllBlank [] := List.forall_mem_nil _
  have hsingle : IsWord [c] := ⟨by simp, by simpa using hc⟩
  cases h with
  | blank hblanks =>
    exact ⟨_, .word hnil hsingle hblanks.endsWord (.blank hblanks)⟩
  | @word blanks word rest words hblanks hword hrest hdivided =>
    cases blanks with
    | nil =>
      have hlonger : IsWord (c :: word) :=
        ⟨by simp, List.forall_mem_cons.2 ⟨hc, hword.notBlank⟩⟩
      exact ⟨_, .word hnil hlonger hrest hdivided⟩
    | cons b blanks =>
      have hends := hblanks.endsWord_append (List.cons_ne_nil b blanks) (word ++ rest)
      exact ⟨_, .word hnil hsingle hends (.word hblanks hword hrest hdivided)⟩

theorem exists_divided (text : List Char) : ∃ found, Divided text found := by
  induction text with
  | nil => exact ⟨[], .blank (List.forall_mem_nil _)⟩
  | cons c text ih =>
    obtain ⟨found, hfound⟩ := ih
    cases hc : isBlank c with
    | true => exact ⟨found, hfound.cons_of_blank hc⟩
    | false => exact hfound.exists_cons_of_notBlank hc

theorem words_eq_iff {text : List Char} {found : List (List Char)}
    : words text = found ↔ Divided text found := by
  constructor
  . intro h
    obtain ⟨others, hothers⟩ := exists_divided text
    rwa [← h, hothers.words_eq]
  . exact Divided.words_eq

theorem words_eq_nil_iff {text : List Char} : words text = [] ↔ AllBlank text := by
  rw [words_eq_iff]
  constructor
  . intro h
    cases h with
    | blank hblanks => exact hblanks
  . exact .blank

theorem words_eq_singleton_iff {text word : List Char}
    : words text = [word]
        ↔
      ∃ before behind, text = before ++ (word ++ behind) ∧ AllBlank before ∧ IsWord word
        ∧ AllBlank behind := by
  rw [words_eq_iff]
  constructor
  . intro h
    cases h with
    | @word before _ behind _ hbefore hword _ hdivided =>
      exact ⟨before, behind, rfl, hbefore, hword, words_eq_nil_iff.1 hdivided.words_eq⟩
  . rintro ⟨before, behind, rfl, hbefore, hword, hbehind⟩
    exact .word hbefore hword hbehind.endsWord (.blank hbehind)

/--
A text that does not begin with a blank begins with a word.
-/
theorem exists_word_append {text : List Char} (h : ¬EndsWord text)
    : ∃ word rest, text = word ++ rest ∧ IsWord word ∧ EndsWord rest := by
  obtain ⟨found, hfound⟩ := exists_divided text
  cases hfound with
  | blank hblanks => exact absurd hblanks.endsWord h
  | @word blanks word rest words hblanks hword hrest _ =>
    cases blanks with
    | nil => exact ⟨word, rest, rfl, hword, hrest⟩
    | cons b blanks => exact absurd (hblanks.endsWord_append (List.cons_ne_nil b blanks) _) h

end DotFormat.Text
