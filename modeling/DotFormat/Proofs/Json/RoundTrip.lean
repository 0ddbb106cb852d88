import DotFormat.Proofs.Json.Scalar
import Mathlib.Data.List.Induction

/-!
This module contains the way back from the text of a JSON value to the value. A value comes back if
its integers are short enough to be read and no object in it has a key twice; the indentation does not
matter as long as it is blank.
-/

namespace DotFormat

namespace Json

/--
A value whose text can be read back.
-/
inductive Readable : Json → Prop where
  | null : Readable .null
  | bool (b : Bool) : Readable (.bool b)
  | int {n : Int} (h : Text.fitsNumeral n = true) : Readable (.int n)
  | str (s : String) : Readable (.str s)
  | arr {items : List Json} (h : ∀ item ∈ items, Readable item) : Readable (.arr items)
  | obj {members : List (String × Json)} (hkeys : (members.map Prod.fst).Nodup)
    (h : ∀ member ∈ members, Readable member.2) : Readable (.obj members)

/--
An indentation that is skipped between the parts of a text.
-/
def Indentation.IsBlank (indentation : Indentation) : Prop :=
  ∀ step ∈ indentation, ∀ c ∈ step.toList, isSpace c = true

theorem Indentation.isBlank_none : IsBlank none := by
  rintro step ⟨⟩

theorem Indentation.isBlank_spaces (n : Int) : IsBlank (spaces n) := by
  rintro step ⟨⟩ c hc
  rw [String.toList_ofList] at hc
  rw [List.eq_of_mem_replicate hc]
  rfl

theorem skipSpace_append {blank : List Char} (h : ∀ c ∈ blank, isSpace c = true) (text : List Char)
    : skipSpace (blank ++ text) = skipSpace text := by
  unfold skipSpace
  rw [List.dropWhile_append_of_pos h]

theorem skipSpace_cons {c : Char} (h : isSpace c = false) (text : List Char)
    : skipSpace (c :: text) = c :: text := by
  unfold skipSpace
  rw [List.dropWhile_cons_of_neg]
  simp [h]

variable {indentation : Indentation}

theorem skipSpace_lineBreak (h : indentation.IsBlank) (level : Nat) (text : List Char)
    : skipSpace (indentation.lineBreak level ++ text) = skipSpace text := by
  apply skipSpace_append
  intro c hc
  cases indentation with
  | none => contradiction
  | some step =>
    rcases List.mem_cons.1 hc with rfl | hc
    . rfl
    . obtain ⟨part, hpart, hc⟩ := List.mem_flatten.1 hc
      rw [List.eq_of_mem_replicate hpart] at hc
      exact h step rfl c hc

theorem separator_eq (h : indentation.IsBlank) (level : Nat)
    : ∃ gap, indentation.separator level = ',' :: gap
        ∧ ∀ text, skipSpace (gap ++ text) = skipSpace text := by
  cases indentation with
  | none => exact ⟨[' '], rfl, fun _ => rfl⟩
  | some step => exact ⟨_, rfl, skipSpace_lineBreak h level⟩

theorem endsNumber_cons {c : Char} (h : c ∈ [',', '\n', ']', '\x7d']) (rest : List Char)
    : EndsNumber (c :: rest) := by
  rintro d ⟨⟩
  simp only [List.mem_cons, List.not_mem_nil, or_false] at h
  rcases h with rfl | rfl | rfl | rfl <;> decide

theorem endsNumber_lineBreak {c : Char} (h : c ∈ [']', '\x7d']) (level : Nat) (rest : List Char)
    : EndsNumber (indentation.lineBreak level ++ c :: rest) := by
  cases indentation with
  | none =>
    apply endsNumber_cons
    simp only [List.mem_cons] at h ⊢
    tauto
  | some step =>
    apply endsNumber_cons
    simp

/-! ### Values -/

/--
The text of a value is read back, whatever follows it.
-/
def ReadsBack (indentation : Indentation) (json : Json) : Prop :=
  ∀ (level fuel : Nat) (rest : List Char), 2 * (write indentation level json).length ≤ fuel
    → EndsNumber rest
    → readValue fuel (write indentation level json ++ rest) = .ok (json, rest)

theorem readValue_of_scalar {c : Char} (h : c ∉ ['"', '[', '\x7b']) (fuel : Nat) (text : List Char)
    : readValue (fuel + 1) (c :: text) = readScalar (c :: text) := by
  simp only [List.mem_cons, List.not_mem_nil, or_false, not_or] at h
  rw [readValue]
  all_goals
    intro _ heq
    injection heq with heq
    tauto

-- The first character tells a value from a blank and from the end of an array or object.
theorem write_eq_cons (indentation : Indentation) {json : Json} (h : Readable json) (level : Nat)
    : ∃ c text, write indentation level json = c :: text ∧ isSpace c = false ∧ c ≠ ']' := by
  cases h with
  | null => exact ⟨_, _, rfl, rfl, by decide⟩
  | bool b =>
    cases b with
    | true => exact ⟨_, _, rfl, rfl, by decide⟩
    | false => exact ⟨_, _, rfl, rfl, by decide⟩
  | @int n hn =>
    obtain ⟨sign, hsign, hnumeral, _⟩ := numeral_eq n
    obtain ⟨c, digits, hdigits, hc⟩ := toDigits_eq_cons n.natAbs
    simp only [write, hnumeral, hdigits]
    rcases hsign with rfl | rfl
    . have hne := ne_of_isDigit hc
      refine ⟨c, digits, rfl, ?_, hne ']' rfl⟩
      simp [isSpace, hne ' ' rfl, hne '\t' rfl, hne '\n' rfl, hne '\r' rfl]
    . exact ⟨_, _, rfl, rfl, by decide⟩
  | str s => exact ⟨_, _, rfl, rfl, by decide⟩
  | @arr items hitems =>
    cases items with
    | nil => exact ⟨_, _, rfl, rfl, by decide⟩
    | cons item items => exact ⟨_, _, rfl, rfl, by decide⟩
  | @obj members hkeys hmembers =>
    cases members with
    | nil => exact ⟨_, _, rfl, rfl, by decide⟩
    | cons member members => exact ⟨_, _, rfl, rfl, by decide⟩

theorem readsBack_of_succ {json : Json} (hjson : Readable json)
    (h : ∀ (level fuel : Nat) (rest : List Char),
      2 * (write indentation level json).length ≤ fuel + 1
        → EndsNumber rest
        → readValue (fuel + 1) (write indentation level json ++ rest) = .ok (json, rest))
    : ReadsBack indentation json := by
  intro level fuel rest hfuel hrest
  cases fuel with
  | zero =>
    obtain ⟨c, text, hwrite, _⟩ := write_eq_cons indentation hjson level
    rw [hwrite, List.length_cons] at hfuel
    omega
  | succ fuel => exact h level fuel rest hfuel hrest

theorem readsBack_int {n : Int} (h : Text.fitsNumeral n = true)
    : ReadsBack indentation (.int n) := by
  apply readsBack_of_succ (.int h)
  intro level fuel rest _ hrest
  rw [← readScalar_numeral h hrest]
  obtain ⟨sign, hsign, hnumeral, _⟩ := numeral_eq n
  obtain ⟨c, digits, hdigits, hc⟩ := toDigits_eq_cons n.natAbs
  simp only [write, hnumeral, hdigits]
  rcases hsign with rfl | rfl
  . apply readValue_of_scalar
    have hne := ne_of_isDigit hc
    simp [hne '"' rfl, hne '[' rfl, hne '\x7b' rfl]
  . apply readValue_of_scalar
    decide

theorem readsBack_str (s : String) : ReadsBack indentation (.str s) := by
  apply readsBack_of_succ (.str s)
  intro level fuel rest _ _
  obtain ⟨text, hwrite, hread⟩ := readString_writeString s rest
  simp only [write]
  rw [hwrite, readValue, hread]
  rfl

theorem readsBack_null : ReadsBack indentation .null := by
  apply readsBack_of_succ .null
  intro level fuel rest _ _
  rfl

theorem readsBack_bool (b : Bool) : ReadsBack indentation (.bool b) := by
  apply readsBack_of_succ (.bool b)
  intro level fuel rest _ _
  cases b with
  | true => rfl
  | false => rfl

/-! ### Arrays -/

theorem writeItems_eq_cons (indentation : Indentation) {items : List Json} (hne : items ≠ [])
    (hitems : ∀ item ∈ items, Readable item) (level : Nat)
    : ∃ c text, writeItems indentation level items = c :: text ∧ isSpace c = false ∧ c ≠ ']' := by
  obtain ⟨item, items, rfl⟩ := List.exists_cons_of_ne_nil hne
  have hitem : Readable item := hitems item (by simp)
  obtain ⟨c, text, hwrite, hc⟩ := write_eq_cons indentation hitem (level + 1)
  cases items with
  | nil => exact ⟨c, text, hwrite, hc⟩
  | cons other items =>
    refine ⟨c, text ++ indentation.separator level ++ writeItems indentation level (other :: items),
      ?_, hc⟩
    simp [writeItems, hwrite]

theorem skipSpace_writeItems {items : List Json} (hne : items ≠ [])
    (hitems : ∀ item ∈ items, Readable item) (level : Nat) (rest : List Char)
    : skipSpace (writeItems indentation level items ++ rest)
        = writeItems indentation level items ++ rest := by
  obtain ⟨c, text, hwrite, hc, _⟩ := writeItems_eq_cons indentation hne hitems level
  rw [hwrite, List.cons_append, skipSpace_cons hc]

theorem readItems_writeItems (hblank : indentation.IsBlank) {items : List Json} (hne : items ≠ [])
    (hitems : ∀ item ∈ items, Readable item)
    (hreads : ∀ item ∈ items, ReadsBack indentation item) (level outer fuel : Nat)
    (rest : List Char) (hfuel : 2 * (writeItems indentation level items).length < fuel)
    : readItems fuel
          (writeItems indentation level items ++ (indentation.lineBreak outer ++ ']' :: rest))
        = .ok (items, rest) := by
  induction items generalizing fuel with
  | nil => contradiction
  | cons item items ih =>
    obtain ⟨_, hitems⟩ := List.forall_mem_cons.1 hitems
    obtain ⟨hitem, hreads⟩ := List.forall_mem_cons.1 hreads
    obtain ⟨fuel, rfl⟩ : ∃ n, fuel = n + 1 := ⟨fuel - 1, by omega⟩
    unfold readItems
    cases items with
    | nil =>
      simp only [writeItems] at hfuel ⊢
      rw [hitem (level + 1) fuel _ (by omega) (endsNumber_lineBreak (by simp) outer rest)]
      simp only [skipSpace_lineBreak hblank]
      rw [skipSpace_cons rfl]
      rfl
    | cons other items =>
      obtain ⟨gap, hseparator, hgap⟩ := separator_eq hblank level
      simp only [writeItems, hseparator, List.length_append, List.length_cons] at hfuel
      simp only [writeItems, hseparator, List.append_assoc, List.cons_append]
      rw [hitem (level + 1) fuel _ (by omega) (endsNumber_cons (by simp) _)]
      simp only
      rw [skipSpace_cons rfl]
      simp only
      rw [hgap, skipSpace_writeItems (by simp) hitems, ih (by simp) hitems hreads fuel (by omega)]
      rfl

theorem readsBack_arr (hblank : indentation.IsBlank) {items : List Json}
    (hitems : ∀ item ∈ items, Readable item)
    (hreads : ∀ item ∈ items, ReadsBack indentation item)
    : ReadsBack indentation (.arr items) := by
  apply readsBack_of_succ (.arr hitems)
  intro level fuel rest hfuel _
  cases items with
  | nil => rfl
  | cons item items =>
    simp only [write, List.length_append, List.length_cons, List.length_nil] at hfuel
    simp only [write, List.cons_append, List.append_assoc, List.nil_append]
    rw [readValue, skipSpace_lineBreak hblank, skipSpace_writeItems (by simp) hitems]
    obtain ⟨c, text, hwrite, _, hbracket⟩ := writeItems_eq_cons indentation (by simp) hitems level
    split
    . next heq =>
      rw [hwrite] at heq
      injection heq with hc
      contradiction
    . rw [readItems_writeItems hblank (by simp) hitems hreads level (level - 1) fuel rest (by omega)]
      rfl

/-! ### Objects -/

theorem put_of_not_mem {members : List (String × Json)} {key : String}
    (h : key ∉ members.map Prod.fst) (value : Json)
    : put members key value = members ++ [(key, value)] := by
  induction members with
  | nil => rfl
  | cons member members ih =>
    simp only [List.map_cons, List.mem_cons, not_or] at h
    unfold put
    rw [if_neg (Ne.symm h.1), ih h.2]
    rfl

-- Only a key that occurs twice makes a difference between the pairs of a text and the members.
theorem collect_eq_self {members : List (String × Json)} (h : (members.map Prod.fst).Nodup)
    : collect members = members := by
  induction members using List.reverseRecOn with
  | nil => rfl
  | append_singleton members member ih =>
    rw [List.map_append, List.nodup_append] at h
    have hnew : member.1 ∉ members.map Prod.fst := by
      intro hmem
      exact h.2.2 _ hmem member.1 (by simp) rfl
    unfold collect at ih ⊢
    rw [List.foldl_append, ih h.1]
    exact put_of_not_mem hnew member.2

theorem writeMembers_eq_cons (indentation : Indentation) {members : List (String × Json)}
    (hne : members ≠ []) (level : Nat)
    : ∃ text, writeMembers indentation level members = '"' :: text := by
  obtain ⟨⟨key, value⟩, members, rfl⟩ := List.exists_cons_of_ne_nil hne
  cases members with
  | nil => exact ⟨_, rfl⟩
  | cons other members => exact ⟨_, rfl⟩

theorem skipSpace_writeMembers {members : List (String × Json)} (hne : members ≠ []) (level : Nat)
    (rest : List Char)
    : skipSpace (writeMembers indentation level members ++ rest)
        = writeMembers indentation level members ++ rest := by
  obtain ⟨text, hwrite⟩ := writeMembers_eq_cons indentation hne level
  rw [hwrite]
  exact skipSpace_cons rfl _

theorem readMembers_writeString {value : Json} (hvalue : Readable value)
    (hreads : ReadsBack indentation value) (key : String) (level fuel : Nat) {rest : List Char}
    (hfuel : 2 * (write indentation level value).length ≤ fuel) (hrest : EndsNumber rest)
    : (∀ behind, skipSpace rest = '\x7d' :: behind
        → readMembers (fuel + 1)
              (writeString key ++ ':' :: ' ' :: (write indentation level value ++ rest))
            = .ok ([(key, value)], behind))
      ∧ (∀ behind, skipSpace rest = ',' :: behind
        → readMembers (fuel + 1)
              (writeString key ++ ':' :: ' ' :: (write indentation level value ++ rest))
            = (readMembers fuel (skipSpace behind)).map fun (pairs, rest) =>
                ((key, value) :: pairs, rest)) := by
  obtain ⟨text, hwrite, hread⟩ := readString_writeString key
    (':' :: ' ' :: (write indentation level value ++ rest))
  obtain ⟨c, written, hvalue, hc, _⟩ := write_eq_cons indentation hvalue level
  have hskip : skipSpace (' ' :: (write indentation level value ++ rest))
      = write indentation level value ++ rest := by
    rw [hvalue]
    exact skipSpace_cons hc _
  have hcolon : skipSpace (':' :: ' ' :: (write indentation level value ++ rest))
      = ':' :: ' ' :: (write indentation level value ++ rest) := skipSpace_cons rfl _
  refine ⟨?_, ?_⟩
  all_goals
    intro behind hbehind
    rw [hwrite, readMembers]
    simp only [hread, hcolon, hskip, hreads level fuel rest hfuel hrest, hbehind]

theorem readMembers_writeMembers (hblank : indentation.IsBlank) {members : List (String × Json)}
    (hne : members ≠ []) (hmembers : ∀ member ∈ members, Readable member.2)
    (hreads : ∀ member ∈ members, ReadsBack indentation member.2) (level outer fuel : Nat)
    (rest : List Char) (hfuel : 2 * (writeMembers indentation level members).length < fuel)
    : readMembers fuel
          (writeMembers indentation level members
            ++ (indentation.lineBreak outer ++ '\x7d' :: rest))
        = .ok (members, rest) := by
  induction members generalizing fuel with
  | nil => contradiction
  | cons member members ih =>
    obtain ⟨key, value⟩ := member
    obtain ⟨hvalue, hmembers⟩ := List.forall_mem_cons.1 hmembers
    obtain ⟨hread, hreads⟩ := List.forall_mem_cons.1 hreads
    obtain ⟨fuel, rfl⟩ : ∃ n, fuel = n + 1 := ⟨fuel - 1, by omega⟩
    cases members with
    | nil =>
      simp only [writeMembers, List.length_append, List.length_cons] at hfuel
      have hvalueFuel : 2 * (write indentation (level + 1) value).length ≤ fuel := by omega
      simp only [writeMembers, List.append_assoc, List.cons_append]
      apply (readMembers_writeString hvalue hread key _ fuel hvalueFuel
        (endsNumber_lineBreak (by simp) outer rest)).1
      rw [skipSpace_lineBreak hblank, skipSpace_cons rfl]
    | cons other members =>
      obtain ⟨gap, hseparator, hgap⟩ := separator_eq hblank level
      simp only [writeMembers, hseparator, List.length_append, List.length_cons] at hfuel
      have hvalueFuel : 2 * (write indentation (level + 1) value).length ≤ fuel := by omega
      simp only [writeMembers, hseparator, List.append_assoc, List.cons_append]
      rw [(readMembers_writeString hvalue hread key _ fuel hvalueFuel
        (endsNumber_cons (by simp) _)).2 _ (skipSpace_cons rfl _)]
      rw [hgap, skipSpace_writeMembers (by simp), ih (by simp) hmembers hreads fuel (by omega)]
      rfl

theorem readsBack_obj (hblank : indentation.IsBlank) {members : List (String × Json)}
    (hkeys : (members.map Prod.fst).Nodup)
    (hmembers : ∀ member ∈ members, Readable member.2)
    (hreads : ∀ member ∈ members, ReadsBack indentation member.2)
    : ReadsBack indentation (.obj members) := by
  apply readsBack_of_succ (.obj hkeys hmembers)
  intro level fuel rest hfuel _
  cases members with
  | nil => rfl
  | cons member members =>
    simp only [write, List.length_append, List.length_cons, List.length_nil] at hfuel
    simp only [write, List.cons_append, List.append_assoc, List.nil_append]
    rw [readValue, skipSpace_lineBreak hblank, skipSpace_writeMembers (by simp)]
    obtain ⟨text, hwrite⟩ := writeMembers_eq_cons indentation
      (List.cons_ne_nil member members) level
    split
    . next heq =>
      rw [hwrite] at heq
      injection heq with hquote
      contradiction
    . rw [readMembers_writeMembers hblank (by simp) hmembers hreads level (level - 1) fuel rest
        (by omega)]
      simp only [Except.map]
      rw [collect_eq_self hkeys]

theorem Readable.readsBack (hblank : indentation.IsBlank) {json : Json} (h : Readable json)
    : ReadsBack indentation json := by
  induction h with
  | null => exact readsBack_null
  | bool b => exact readsBack_bool b
  | int h => exact readsBack_int h
  | str s => exact readsBack_str s
  | arr h ih => exact readsBack_arr hblank h ih
  | obj hkeys h ih => exact readsBack_obj hblank hkeys h ih

theorem read_write (hblank : indentation.IsBlank) {json : Json} (h : Readable json)
    {rest : List Char} (hrest : ∀ c ∈ rest, isSpace c = true)
    (hends : EndsNumber rest)
    : read (String.ofList (write indentation 1 json ++ rest)) = .ok json := by
  obtain ⟨c, text, hwrite, hc, _⟩ := write_eq_cons indentation h 1
  have hskip : skipSpace (write indentation 1 json ++ rest) = write indentation 1 json ++ rest := by
    rw [hwrite]
    exact skipSpace_cons hc _
  have hrestSkip : skipSpace rest = [] := by
    rw [← List.append_nil rest, skipSpace_append hrest]
    rfl
  unfold read
  rw [String.toList_ofList, hskip, h.readsBack hblank 1 _ rest _ hends]
  . simp [hrestSkip]
  . rw [List.length_append]
    omega

/-! ### The order of the members -/

theorem sortedItems_eq_map (items : List Json) : sortedItems items = items.map sorted := by
  induction items with
  | nil => rfl
  | cons item items ih => simp [sortedItems, ih]

theorem sortedMembers_eq_map (members : List (String × Json))
    : sortedMembers members = members.map fun member => (member.1, sorted member.2) := by
  induction members with
  | nil => rfl
  | cons member members ih => simp [sortedMembers, ih]

theorem insertByKey_perm (member : String × Json) (members : List (String × Json))
    : (insertByKey member members).Perm (member :: members) := by
  induction members with
  | nil => exact .refl _
  | cons other members ih =>
    unfold insertByKey
    split
    . exact .refl _
    . exact (ih.cons other).trans (.swap member other members)

theorem sortByKey_perm (members : List (String × Json)) : (sortByKey members).Perm members := by
  induction members with
  | nil => exact .refl _
  | cons member members ih => exact (insertByKey_perm member _).trans (ih.cons member)

theorem Readable.sorted {json : Json} (h : Readable json) : Readable json.sorted := by
  induction h with
  | null => exact .null
  | bool b => exact .bool b
  | int h => exact .int h
  | str s => exact .str s
  | @arr items _ ih =>
    unfold Json.sorted
    rw [sortedItems_eq_map]
    apply Readable.arr
    intro item hitem
    obtain ⟨original, horiginal, rfl⟩ := List.mem_map.1 hitem
    exact ih original horiginal
  | @obj members hkeys _ ih =>
    unfold Json.sorted
    rw [sortedMembers_eq_map]
    have hperm := sortByKey_perm (members.map fun member => (member.1, member.2.sorted))
    apply Readable.obj
    . rw [(hperm.map Prod.fst).nodup_iff, List.map_map]
      exact hkeys
    . intro member hmember
      obtain ⟨original, horiginal, rfl⟩ := List.mem_map.1 (hperm.mem_iff.1 hmember)
      exact ih original horiginal

theorem haveShortNumerals_eq_all (items : List Json)
    : haveShortNumerals items = items.all hasShortNumerals := by
  induction items with
  | nil => rfl
  | cons item items ih => rw [haveShortNumerals, ih, List.all_cons]

theorem membersHaveShortNumerals_eq_all (members : List (String × Json))
    : membersHaveShortNumerals members = members.all fun member => member.2.hasShortNumerals := by
  induction members with
  | nil => rfl
  | cons member members ih => rw [membersHaveShortNumerals, ih, List.all_cons]

theorem Readable.hasShortNumerals {json : Json} (h : Readable json)
    : json.hasShortNumerals = true := by
  induction h with
  | null => rfl
  | bool b => rfl
  | int h => exact h
  | str s => rfl
  | arr _ ih =>
    unfold Json.hasShortNumerals
    rw [haveShortNumerals_eq_all, List.all_eq_true]
    exact ih
  | obj _ _ ih =>
    unfold Json.hasShortNumerals
    rw [membersHaveShortNumerals_eq_all, List.all_eq_true]
    exact ih

/--
The text of a value stands for the value with its members in order, also with blanks behind it.
-/
theorem read_print (hblank : indentation.IsBlank) {json : Json} (h : Readable json)
    : ∃ text, print indentation json = .ok text
        ∧ read text = .ok json.sorted
        ∧ read (text ++ "\n") = .ok json.sorted := by
  refine ⟨_, if_pos h.hasShortNumerals, ?_, ?_⟩
  . rw [← List.append_nil (write indentation 1 json.sorted)]
    apply read_write hblank h.sorted
    . simp
    . rintro c ⟨⟩
  . have hnewline : "\n" = String.ofList ['\n'] := rfl
    rw [hnewline, ← String.ofList_append]
    apply read_write hblank h.sorted
    . simp [isSpace]
    . apply endsNumber_cons
      simp

end Json

end DotFormat
