/-!
This module contains the tags of a text. A tag goes from an angle bracket to the next closing one, and
it may open or close an element. Everything here is about texts as they are, however they were made.
-/

namespace DotFormat.Html

/--
A piece of a text: a tag, or a character that belongs to none.
-/
inductive Token where
  | tag (text : List Char)
  | outside (c : Char)
  deriving DecidableEq, Repr

namespace Token

def tag? : Token → Option (List Char)
  | tag text => some text
  | outside _ => none

def outside? : Token → Option Char
  | tag _ => none
  | outside c => some c

end Token

/--
The pieces of a text. A bracket that is never closed belongs to no tag.
-/
def tokens (text : List Char) : List Token :=
  go [] text
where
  /-- The pieces behind the beginning of a tag, or behind none if it is empty. -/
  go : List Char → List Char → List Token
    | begun, [] => begun.map .outside
    | [], c :: text => if c = '<' then go [c] text else .outside c :: go [] text
    | b :: begun, c :: text =>
      if c = '>' then .tag (b :: begun ++ [c]) :: go [] text else go (b :: begun ++ [c]) text

def tags (text : String) : List (List Char) :=
  (tokens text.toList).filterMap Token.tag?

/--
What stands outside of the tags of a text.
-/
def outside (text : String) : List Char :=
  (tokens text.toList).filterMap Token.outside?

/-! ### Texts with brackets in tags only -/

/--
A text that consists of the given tags and of characters that are no angle brackets.
-/
inductive Marked : List Char → List (List Char) → Prop where
  | nil : Marked [] []
  | char {c : Char} {text : List Char} {found : List (List Char)} : c ≠ '<' → c ≠ '>' →
    Marked text found → Marked (c :: text) found
  | tag {name text : List Char} {found : List (List Char)} : '>' ∉ name → Marked text found →
    Marked ('<' :: (name ++ '>' :: text)) (('<' :: (name ++ ['>'])) :: found)

theorem tokens.go_tag {name : List Char} (h : '>' ∉ name) (b : Char) (begun text : List Char)
    : go (b :: begun) (name ++ '>' :: text) = .tag (b :: begun ++ (name ++ ['>'])) :: go [] text := by
  induction name generalizing begun with
  | nil => simp [go]
  | cons c name ih =>
    rw [List.mem_cons, not_or] at h
    rw [List.cons_append, go, if_neg (Ne.symm h.1), List.cons_append, ih h.2]
    simp

theorem tokens_tag {name : List Char} (h : '>' ∉ name) (text : List Char)
    : tokens ('<' :: (name ++ '>' :: text)) = .tag ('<' :: (name ++ ['>'])) :: tokens text := by
  unfold tokens
  rw [tokens.go, if_pos rfl, tokens.go_tag h]
  rfl

theorem tokens_char {c : Char} (h : c ≠ '<') (text : List Char)
    : tokens (c :: text) = .outside c :: tokens text := by
  unfold tokens
  rw [tokens.go, if_neg h]

namespace Marked

theorem tags_tokens {text : List Char} {found : List (List Char)} (h : Marked text found)
    : (tokens text).filterMap Token.tag? = found := by
  induction h with
  | nil => rfl
  | char hless _ _ ih =>
    rw [tokens_char hless]
    exact ih
  | tag hname _ ih =>
    rw [tokens_tag hname]
    exact congrArg (List.cons _) ih

theorem notMem_outside {text : List Char} {found : List (List Char)} (h : Marked text found)
    : '<' ∉ (tokens text).filterMap Token.outside?
        ∧ '>' ∉ (tokens text).filterMap Token.outside? := by
  induction h with
  | nil => exact ⟨List.not_mem_nil, List.not_mem_nil⟩
  | char hless hgreater _ ih =>
    rw [tokens_char hless]
    exact ⟨List.not_mem_cons_of_ne_of_not_mem (Ne.symm hless) ih.1,
      List.not_mem_cons_of_ne_of_not_mem (Ne.symm hgreater) ih.2⟩
  | tag hname _ ih =>
    rw [tokens_tag hname]
    exact ih

theorem append {text other : List Char} {found others : List (List Char)} (h : Marked text found)
    (hother : Marked other others) : Marked (text ++ other) (found ++ others) := by
  induction h with
  | nil => exact hother
  | char hless hgreater _ ih => exact .char hless hgreater ih
  | tag hname _ ih =>
    rw [List.cons_append, List.append_assoc]
    exact .tag hname ih

theorem plain_append {plain text : List Char} {found : List (List Char)} (hplain : Marked plain [])
    (h : Marked text found) : Marked (plain ++ text) found :=
  hplain.append h

theorem of_plain {text : List Char} (hless : '<' ∉ text) (hgreater : '>' ∉ text)
    : Marked text [] := by
  induction text with
  | nil => exact .nil
  | cons c text ih =>
    rw [List.mem_cons, not_or] at hless hgreater
    exact .char (Ne.symm hless.1) (Ne.symm hgreater.1) (ih hless.2 hgreater.2)

theorem flatMap {parts : List α} {text : α → List Char} {found : α → List (List Char)}
    (h : ∀ part ∈ parts, Marked (text part) (found part))
    : Marked (parts.flatMap text) (parts.flatMap found) := by
  induction parts with
  | nil => exact .nil
  | cons part parts ih =>
    obtain ⟨hpart, hparts⟩ := List.forall_mem_cons.1 h
    exact hpart.append (ih hparts)

theorem intercalate {separator : List Char} (hseparator : Marked separator []) {parts : List α}
    {text : α → List Char} {found : α → List (List Char)}
    (h : ∀ part ∈ parts, Marked (text part) (found part))
    : Marked (separator.intercalate (parts.map text)) (parts.flatMap found) := by
  induction parts with
  | nil => exact .nil
  | cons part parts ih =>
    obtain ⟨hpart, hparts⟩ := List.forall_mem_cons.1 h
    cases parts with
    | nil =>
      have hsingle := hpart.append .nil
      simpa using hsingle
    | cons next parts =>
      rw [List.map_cons, List.map_cons, List.intercalate_cons_cons, List.flatMap_cons,
        List.append_assoc]
      exact hpart.append (hseparator.plain_append (ih hparts))

end Marked

/-! ### Every text -/

-- The induction is along the scanner, so it starts inside of a tag as well as outside.
theorem Marked.of_go {begun text : List Char}
    (hbegun : begun = [] ∨ ∃ name, begun = '<' :: name ∧ '>' ∉ name)
    (hless : '<' ∉ (tokens.go begun text).filterMap Token.outside?)
    (hgreater : '>' ∉ (tokens.go begun text).filterMap Token.outside?)
    : Marked (begun ++ text) ((tokens.go begun text).filterMap Token.tag?) := by
  induction text generalizing begun with
  | nil =>
    rcases hbegun with rfl | ⟨name, rfl, _⟩
    . exact .nil
    . exact absurd List.mem_cons_self hless
  | cons c text ih =>
    rcases hbegun with rfl | ⟨name, rfl, hname⟩
    . by_cases hc : c = '<'
      . subst hc
        exact ih (.inr ⟨[], rfl, List.not_mem_nil⟩) hless hgreater
      . rw [tokens.go, if_neg hc] at hless hgreater ⊢
        have htext := ih (.inl rfl) (List.not_mem_of_not_mem_cons hless)
          (List.not_mem_of_not_mem_cons hgreater)
        exact .char hc (Ne.symm (List.ne_of_not_mem_cons hgreater)) htext
    . rw [tokens.go] at hless hgreater ⊢
      by_cases hc : c = '>'
      . rw [if_pos hc] at hless hgreater ⊢
        subst hc
        exact .tag hname (ih (.inl rfl) hless hgreater)
      . rw [if_neg hc] at hless hgreater ⊢
        have hnext : '>' ∉ name ++ [c] := by
          simp [hname, Ne.symm hc]
        rw [List.append_cons]
        exact ih (.inr ⟨name ++ [c], rfl, hnext⟩) hless hgreater

/--
The texts whose brackets all belong to tags.
-/
theorem marked_iff {text : String} {found : List (List Char)}
    : Marked text.toList found
        ↔ tags text = found ∧ '<' ∉ outside text ∧ '>' ∉ outside text := by
  constructor
  . exact fun h => ⟨h.tags_tokens, h.notMem_outside⟩
  . rintro ⟨rfl, hless, hgreater⟩
    exact .of_go (.inl rfl) hless hgreater

instance (text : String) (found : List (List Char)) : Decidable (Marked text.toList found) :=
  decidable_of_iff _ marked_iff.symm

/-! ### Elements -/

/--
The name of an element in a tag, behind its bracket.
-/
def elementName (text : List Char) : List Char :=
  text.takeWhile fun c => c != ' ' && c != '>'

/--
The element that a tag opens.
-/
def opened? : List Char → Option (List Char)
  | '<' :: '/' :: _ => none
  | '<' :: text => some (elementName text)
  | _ => none

/--
The element that a tag closes.
-/
def closed? : List Char → Option (List Char)
  | '<' :: '/' :: text => some (elementName text)
  | _ => none

/--
Tags that open and close elements in pairs, one inside or behind the other.
-/
inductive Nested : List (List Char) → Prop where
  | nil : Nested []
  | element {name opening closing : List Char} {inner rest : List (List Char)} :
    opened? opening = some name → closed? closing = some name → Nested inner → Nested rest →
    Nested (opening :: (inner ++ closing :: rest))

/--
A single element with another one of its kind nowhere inside.
-/
inductive IsElement (name : List Char) : List (List Char) → Prop where
  | intro {opening closing : List Char} {inner : List (List Char)} :
    opened? opening = some name → closed? closing = some name → Nested inner →
    (∀ tag ∈ inner, opened? tag ≠ some name) → IsElement name (opening :: (inner ++ [closing]))

theorem IsElement.nested {name : List Char} {found : List (List Char)} (h : IsElement name found)
    : Nested found := by
  cases h with
  | intro hopening hclosing hinner _ => exact .element hopening hclosing hinner .nil

namespace Nested

theorem append {found others : List (List Char)} (h : Nested found) (hothers : Nested others)
    : Nested (found ++ others) := by
  induction h with
  | nil => exact hothers
  | element hopening hclosing hinner _ _ ih =>
    rw [List.cons_append, List.append_assoc, List.cons_append]
    exact .element hopening hclosing hinner ih

theorem flatMap {parts : List α} {found : α → List (List Char)}
    (h : ∀ part ∈ parts, Nested (found part)) : Nested (parts.flatMap found) := by
  induction parts with
  | nil => exact .nil
  | cons part parts ih =>
    obtain ⟨hpart, hparts⟩ := List.forall_mem_cons.1 h
    exact hpart.append (ih hparts)

end Nested

end DotFormat.Html
