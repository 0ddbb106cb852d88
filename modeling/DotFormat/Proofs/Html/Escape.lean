import DotFormat.Html.Escape

/-!
This module contains the way back from escaped text to the text. Escaping treats each character by
itself, leaves no character of the markup behind, and can be undone from left to right.
-/

namespace DotFormat.Html

theorem entity_of_plain {c : Char} (h : c ∉ ['&', '<', '>', '"']) : entity c = [c] := by
  simp only [List.mem_cons, List.not_mem_nil, or_false, not_or] at h
  unfold entity
  simp only [beq_iff_eq, h, ↓reduceIte]

theorem replaceChar_of_ne {c d : Char} (h : d ≠ c) (replacement : String)
    : replaceChar c replacement [d] = [d] := by
  unfold replaceChar
  rw [List.flatMap_singleton, if_neg (by simpa using h)]

theorem replaceChar_flatMap (c : Char) (replacement : String) (f : Char → List Char)
    (text : List Char)
    : replaceChar c replacement (text.flatMap f)
        = text.flatMap fun d => replaceChar c replacement (f d) := by
  unfold replaceChar
  rw [List.flatMap_assoc]

-- The ampersand comes first, so no later replacement finds its character in an entity.
theorem replaceChar_singleton (c : Char)
    : replaceChar '"' "&quot;" (replaceChar '>' "&gt;" (replaceChar '<' "&lt;"
        (replaceChar '&' "&amp;" [c]))) = entity c := by
  by_cases h : c ∈ ['&', '<', '>', '"']
  . simp only [List.mem_cons, List.not_mem_nil, or_false] at h
    rcases h with rfl | rfl | rfl | rfl <;> rfl
  . rw [entity_of_plain h]
    simp only [List.mem_cons, List.not_mem_nil, or_false, not_or] at h
    obtain ⟨hand, hless, hgreater, hquote⟩ := h
    rw [replaceChar_of_ne hand, replaceChar_of_ne hless, replaceChar_of_ne hgreater,
      replaceChar_of_ne hquote]

theorem toList_escape (text : String) : (escape text).toList = text.toList.flatMap entity := by
  have hsingletons : text.toList.flatMap (fun c => [c]) = text.toList := by
    simp
  unfold escape
  rw [String.toList_ofList, ← hsingletons]
  simp only [replaceChar_flatMap, replaceChar_singleton]
  rw [hsingletons]

theorem entity_subset {c : Char} (h : c ∈ ['&', '<', '>', '"'])
    : entity c ⊆ "&;ampltgquo".toList := by
  simp only [List.mem_cons, List.not_mem_nil, or_false] at h
  rcases h with rfl | rfl | rfl | rfl
  . decide
  . decide
  . decide
  . decide

theorem mem_entity {c d : Char} (h : d ∈ entity c)
    : d ∈ "&;ampltgquo".toList ∨ (d = c ∧ c ∉ ['&', '<', '>', '"']) := by
  by_cases hc : c ∈ ['&', '<', '>', '"']
  . exact .inl (entity_subset hc h)
  . rw [entity_of_plain hc, List.mem_singleton] at h
    exact .inr ⟨h, hc⟩

theorem mem_escape {text : String} {d : Char} (h : d ∈ (escape text).toList)
    : d ∈ "&;ampltgquo".toList ∨ (d ∈ text.toList ∧ d ∉ ['&', '<', '>', '"']) := by
  rw [toList_escape] at h
  obtain ⟨c, hc, hd⟩ := List.mem_flatMap.1 h
  rcases mem_entity hd with hd | ⟨rfl, hplain⟩
  . exact .inl hd
  . exact .inr ⟨hc, hplain⟩

theorem not_mem_escape {d : Char} (hd : d ∈ ['<', '>', '"']) (text : String)
    : d ∉ (escape text).toList := by
  have hentity : d ∉ "&;ampltgquo".toList := by
    simp only [List.mem_cons, List.not_mem_nil, or_false] at hd
    rcases hd with rfl | rfl | rfl
    . decide
    . decide
    . decide
  intro h
  rcases mem_escape h with hmem | ⟨_, hplain⟩
  . exact hentity hmem
  . exact hplain (List.mem_cons_of_mem _ hd)

/--
The text that escaped text stands for.
-/
def unescape : List Char → List Char
  | '&' :: 'a' :: 'm' :: 'p' :: ';' :: rest => '&' :: unescape rest
  | '&' :: 'l' :: 't' :: ';' :: rest => '<' :: unescape rest
  | '&' :: 'g' :: 't' :: ';' :: rest => '>' :: unescape rest
  | '&' :: 'q' :: 'u' :: 'o' :: 't' :: ';' :: rest => '"' :: unescape rest
  | c :: rest => c :: unescape rest
  | [] => []

theorem unescape_cons {c : Char} (h : c ≠ '&') (rest : List Char)
    : unescape (c :: rest) = c :: unescape rest := by
  rw [unescape]
  all_goals
    intros
    contradiction

theorem unescape_entity_append (c : Char) (rest : List Char)
    : unescape (entity c ++ rest) = c :: unescape rest := by
  by_cases h : c ∈ ['&', '<', '>', '"']
  . simp only [List.mem_cons, List.not_mem_nil, or_false] at h
    rcases h with rfl | rfl | rfl | rfl <;> rfl
  . rw [entity_of_plain h, List.singleton_append, unescape_cons]
    rintro rfl
    simp at h

theorem unescape_flatMap_entity (text : List Char) : unescape (text.flatMap entity) = text := by
  induction text with
  | nil => rfl
  | cons c text ih => rw [List.flatMap_cons, unescape_entity_append, ih]

theorem escape_injective : Function.Injective escape := by
  intro text other h
  have hlists : text.toList.flatMap entity = other.toList.flatMap entity := by
    rw [← toList_escape, ← toList_escape, h]
  apply String.toList_inj.1
  rw [← unescape_flatMap_entity text.toList, hlists, unescape_flatMap_entity]

/-! ### The characters of escaped text -/

/--
The characters that have an entity, and what it is called.
-/
def entityNames : List (Char × String) :=
  [('&', "amp"), ('<', "lt"), ('>', "gt"), ('"', "quot")]

theorem entity_eq_of_names (c : Char)
    : entity c =
        match entityNames.lookup c with
        | some name => '&' :: (name.toList ++ [';'])
        | none => [c] := by
  by_cases h : c ∈ ['&', '<', '>', '"']
  . simp only [List.mem_cons, List.not_mem_nil, or_false] at h
    rcases h with rfl | rfl | rfl | rfl <;> rfl
  . rw [entity_of_plain h]
    simp only [List.mem_cons, List.not_mem_nil, or_false, not_or] at h
    obtain ⟨hand, hless, hgreater, hquote⟩ := h
    simp [entityNames, List.lookup_cons, beq_eq_false_iff_ne.2 hand, beq_eq_false_iff_ne.2 hless,
      beq_eq_false_iff_ne.2 hgreater, beq_eq_false_iff_ne.2 hquote]

theorem escape_append (text other : String) : escape (text ++ other) = escape text ++ escape other := by
  rw [← String.toList_inj, toList_escape, String.toList_append, List.flatMap_append,
    String.toList_append, toList_escape, toList_escape]

-- An entity has no ampersand but its first character.
theorem suffix_of_ampersand_suffix {c : Char} {rest behind : List Char}
    (h : '&' :: rest <:+ entity c ++ behind)
    : (∃ name, (c, name) ∈ entityNames ∧ rest = name.toList ++ ';' :: behind)
      ∨ '&' :: rest <:+ behind := by
  by_cases hc : c ∈ ['&', '<', '>', '"']
  . simp only [List.mem_cons, List.not_mem_nil, or_false] at hc
    rcases hc with rfl | rfl | rfl | rfl
    all_goals simpa [entity, entityNames, List.suffix_cons_iff] using h
  . rw [entity_of_plain hc, List.singleton_append, List.suffix_cons_iff] at h
    rcases h with h | h
    . obtain rfl := (List.cons.inj h).1
      simp at hc
    . exact .inr h

theorem exists_name_of_ampersand {text rest : List Char} (h : '&' :: rest <:+ text.flatMap entity)
    : ∃ c name, (c, name) ∈ entityNames ∧ name.toList ++ [';'] <+: rest := by
  induction text with
  | nil => simp at h
  | cons c text ih =>
    rw [List.flatMap_cons] at h
    rcases suffix_of_ampersand_suffix h with ⟨name, hname, rfl⟩ | h
    . exact ⟨c, name, hname, text.flatMap entity, by simp⟩
    . exact ih h

/--
Escaping puts the entity of each character that has one in its place and keeps every other character,
all at once. So it goes through a text piece by piece, it leaves no character of the markup but
ampersands, each of these begins an entity, and what an escaped text stands for is the text, even if
that holds entities of its own.
-/
theorem escape_substitutes (text : String)
    : (escape text).toList
          =
        (text.toList.flatMap fun c =>
          match entityNames.lookup c with
          | some name => '&' :: (name.toList ++ [';'])
          | none => [c])
      ∧ (∀ other, escape (text ++ other) = escape text ++ escape other)
      ∧ (∀ c ∈ ['<', '>', '"'], c ∉ (escape text).toList)
      ∧ (∀ before rest,
          (escape text).toList = before ++ '&' :: rest
            →
          ∃ c name, (c, name) ∈ entityNames ∧ name.toList ++ [';'] <+: rest)
      ∧ unescape (escape text).toList = text.toList := by
  refine ⟨?_, escape_append text, fun c hc => not_mem_escape hc text, ?_, ?_⟩
  . rw [toList_escape, funext entity_eq_of_names]
  . intro before rest h
    rw [toList_escape] at h
    exact exists_name_of_ampersand ⟨before, h.symm⟩
  . rw [toList_escape, unescape_flatMap_entity]

theorem escape_substitutes_of_entity
    : '<' ∉ (escape "&lt;<").toList
      ∧ ∃ c name, (c, name) ∈ entityNames ∧ name.toList ++ [';'] <+: "amp;lt;&lt;".toList := by
  obtain ⟨_, _, hmarkup, hampersand, _⟩ := escape_substitutes "&lt;<"
  exact ⟨hmarkup '<' List.mem_cons_self, hampersand [] "amp;lt;&lt;".toList rfl⟩

end DotFormat.Html
