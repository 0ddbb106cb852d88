import DotFormat.Proofs.Words

/-!
This module contains the grammar of lines. What a line says is given by the shape of the line alone, for
every line that is accepted and for every way in which one is malformed, and reading a line finds that.
-/

namespace DotFormat

/-! ### Keywords -/

/--
A way to write a keyword: its name, or the other spelling of `.italics` where that counts.
-/
def Keyword.IsSpelled (acceptAlias : Bool) (keyword : Keyword) (name : String) : Prop :=
  name = keyword.name ∨ (acceptAlias = true ∧ keyword = italics ∧ name = "italic")

namespace Keyword

variable {acceptAlias : Bool} {keyword : Keyword} {name : String}

theorem ofName?_eq_some_iff
    : ofName? name acceptAlias = some keyword ↔ keyword.IsSpelled acceptAlias name := by
  constructor
  . intro h
    unfold ofName? at h
    split at h
    . next found hfound =>
      have hname := List.find?_some hfound
      rw [Option.some.inj h] at hname
      exact .inl (of_decide_eq_true hname).symm
    . unfold ofAlias? at h
      split at h
      . next haccept =>
        split at h
        . next hname => exact .inr ⟨haccept, (Option.some.inj h).symm, hname⟩
        . contradiction
      . contradiction
  . rintro (rfl | ⟨rfl, rfl, rfl⟩)
    . apply ofName?_name
    . rfl

theorem ofName?_eq_none_iff
    : ofName? name acceptAlias = none ↔ ∀ keyword : Keyword, ¬keyword.IsSpelled acceptAlias name := by
  rw [Option.eq_none_iff_forall_ne_some]
  simp only [ne_eq, ofName?_eq_some_iff]

theorem IsSpelled.isWord (h : keyword.IsSpelled acceptAlias name) : Text.IsWord name.toList := by
  rcases h with rfl | ⟨_, _, rfl⟩
  . cases keyword <;> exact .of_any (by decide) (by decide)
  . exact .of_any (by decide) (by decide)

theorem IsSpelled.eq_indent (h : keyword.IsSpelled acceptAlias name)
    (hcommand : keyword.command? = none) : keyword = indent ∧ name = "indent" := by
  cases keyword with
  | indent =>
    rcases h with rfl | ⟨_, _, _⟩
    . exact ⟨rfl, rfl⟩
    . contradiction
  | _ => contradiction

end Keyword

namespace Command

/-! ### The grammar -/

/--
One digit or more.
-/
structure IsNumeral (digits : List Char) : Prop where
  ne_nil : digits ≠ []
  isDigit : ∀ c ∈ digits, c.isDigit = true

/--
What is wrong with an argument that is no numeral.
-/
inductive BadUnits : List Char → ArgumentFault → Prop where
  | negative {digits : List Char} : IsNumeral digits → BadUnits ('-' :: digits) .negative
  | notInteger {argument : List Char} : ¬IsNumeral argument →
    (∀ digits, argument = '-' :: digits → ¬IsNumeral digits) → BadUnits argument .notInteger

/--
What the text behind the dot of a line says.
-/
inductive Says (acceptAlias : Bool)
    : List Char → Except (Refusal LineFault) Command → Prop where
  /-- Nothing or a blank follows the dot. -/
  | unnamed {rest : List Char} : Text.EndsWord rest →
    Says acceptAlias rest (.error (.malformed (.unknownDirective "")))
  | unknown {name : String} {rest : List Char} : Text.IsWord name.toList → Text.EndsWord rest →
    (∀ keyword : Keyword, ¬keyword.IsSpelled acceptAlias name) →
    Says acceptAlias (name.toList ++ rest) (.error (.malformed (.unknownDirective name)))
  | plain {name : String} {blanks : List Char} {keyword : Keyword} {command : Command} :
    keyword.IsSpelled acceptAlias name → keyword.command? = some command → Text.AllBlank blanks →
    Says acceptAlias (name.toList ++ blanks) (.ok command)
  /-- An argument where there must be none. -/
  | excess {name : String} {rest : List Char} {arguments : List (List Char)} {keyword : Keyword}
    {command : Command} :
    keyword.IsSpelled acceptAlias name → keyword.command? = some command → Text.EndsWord rest →
    Text.Divided rest arguments → arguments ≠ [] →
    Says acceptAlias (name.toList ++ rest) (.error (.malformed
      (.invalidArgument name (String.ofList (List.intercalate [' '] arguments)) .takesNone)))
  | missing {blanks : List Char} : Text.AllBlank blanks →
    Says acceptAlias ("indent".toList ++ blanks) (.error (.malformed (.missingArgument "indent")))
  | several {rest : List Char} {arguments : List (List Char)} : Text.EndsWord rest →
    Text.Divided rest arguments → 2 ≤ arguments.length →
    Says acceptAlias ("indent".toList ++ rest) (.error (.malformed
      (.invalidArgument "indent" (String.ofList (List.intercalate [' '] arguments)) .notSingle)))
  | indent {before digits behind : List Char} : before ≠ [] → Text.AllBlank before →
    IsNumeral digits → Text.AllBlank behind → digits.length ≤ Text.digitLimit →
    Says acceptAlias ("indent".toList ++ (before ++ (digits ++ behind)))
      (.ok (.indent (Nat.ofDigitChars 10 digits 0)))
  | overlong {before digits behind : List Char} : before ≠ [] → Text.AllBlank before →
    IsNumeral digits → Text.AllBlank behind → Text.digitLimit < digits.length →
    Says acceptAlias ("indent".toList ++ (before ++ (digits ++ behind))) (.error .tooLong)
  | invalid {before argument behind : List Char} {reason : ArgumentFault} : before ≠ [] →
    Text.AllBlank before → Text.IsWord argument → Text.AllBlank behind → BadUnits argument reason →
    Says acceptAlias ("indent".toList ++ (before ++ (argument ++ behind))) (.error (.malformed
      (.invalidArgument "indent" (String.ofList argument) reason)))

/-! ### Amounts -/

section

variable {argument digits : List Char} {directive : String}

theorem IsNumeral.isWord (h : IsNumeral digits) : Text.IsWord digits where
  ne_nil := h.ne_nil
  notBlank := fun c hc => Text.isBlank_of_isDigit (h.isDigit c hc)

theorem IsNumeral.head?_ne_minus (h : IsNumeral digits) : digits.head? ≠ some '-' := by
  intro hminus
  have hdigit := h.isDigit _ (List.mem_of_head? hminus)
  contradiction

theorem isNumeral_iff : IsNumeral digits ↔ (digits.isEmpty || !digits.all Char.isDigit) = false := by
  rw [Bool.or_eq_false_iff, List.isEmpty_eq_false_iff, Bool.not_eq_false', List.all_eq_true]
  exact ⟨fun h => ⟨h.ne_nil, h.isDigit⟩, fun h => ⟨h.1, h.2⟩⟩

theorem readUnits_of_isNumeral (h : IsNumeral digits)
    : readUnits directive digits =
        if digits.length ≤ Text.digitLimit then .ok (Nat.ofDigitChars 10 digits 0)
        else .error .tooLong := by
  unfold readUnits Text.readDigits
  simp only [if_neg h.head?_ne_minus, isNumeral_iff.1 h]
  by_cases hlength : digits.length ≤ Text.digitLimit
  . simp only [if_pos hlength]
    rfl
  . simp only [if_neg hlength]
    rfl

theorem readUnits_of_badUnits {reason : ArgumentFault} (h : BadUnits argument reason)
    : readUnits directive argument
        = .error (.malformed (.invalidArgument directive (String.ofList argument) reason)) := by
  unfold readUnits
  cases h with
  | negative hdigits =>
    simp only [List.head?_cons, ↓reduceIte, List.tail_cons, isNumeral_iff.1 hdigits]
    rfl
  | notInteger hargument hdigits =>
    by_cases hminus : argument.head? = some '-'
    . obtain ⟨digits, rfl⟩ := List.head?_eq_some_iff.1 hminus
      have hother := hdigits digits rfl
      rw [isNumeral_iff, Bool.not_eq_false] at hother
      simp only [List.head?_cons, ↓reduceIte, List.tail_cons, hother]
    . rw [isNumeral_iff, Bool.not_eq_false] at hargument
      simp only [if_neg hminus, hargument, ↓reduceIte]

theorem isNumeral_or_exists_badUnits (argument : List Char)
    : IsNumeral argument ∨ ∃ reason, BadUnits argument reason := by
  by_cases hargument : IsNumeral argument
  . exact .inl hargument
  . right
    by_cases hdigits : ∃ digits, argument = '-' :: digits ∧ IsNumeral digits
    . obtain ⟨digits, rfl, hdigits⟩ := hdigits
      exact ⟨_, .negative hdigits⟩
    . exact ⟨_, .notInteger hargument fun digits hminus hnumeral => hdigits ⟨digits, hminus, hnumeral⟩⟩

end

/-! ### Reading finds what the grammar says -/

variable {acceptAlias : Bool} {rest : List Char}

theorem read_of_endsWord (h : Text.EndsWord rest)
    : read rest acceptAlias = .error (.malformed (.unknownDirective "")) := by
  unfold read
  cases rest with
  | nil => rfl
  | cons c rest =>
    have hc : Text.isBlank c = true := h c rfl
    split
    . rfl
    . rw [if_pos]
      exact hc

theorem read_of_isWord {name : String} (hname : Text.IsWord name.toList) (hrest : Text.EndsWord rest)
    : read (name.toList ++ rest) acceptAlias
        =
      match Keyword.ofName? name acceptAlias with
      | none => .error (.malformed (.unknownDirective name))
      | some keyword => ofWords keyword name (Text.words rest) := by
  have hhead : (name.toList ++ rest).head?.any Text.isBlank = false := by
    rw [List.head?_append_of_ne_nil _ hname.ne_nil]
    cases hfirst : name.toList.head? with
    | none => rfl
    | some c => exact hname.notBlank c (List.mem_of_head? hfirst)
  unfold read
  rw [Text.words_word_append hname hrest, hhead]
  simp only [String.ofList_toList]
  rfl

theorem read_of_isSpelled {name : String} {keyword : Keyword}
    (h : keyword.IsSpelled acceptAlias name) (hrest : Text.EndsWord rest)
    : read (name.toList ++ rest) acceptAlias = ofWords keyword name (Text.words rest) := by
  rw [read_of_isWord h.isWord hrest, Keyword.ofName?_eq_some_iff.2 h]

theorem read_indent_append (hrest : Text.EndsWord rest)
    : read ("indent".toList ++ rest) acceptAlias = ofWords .indent "indent" (Text.words rest) :=
  read_of_isSpelled (.inl rfl) hrest

theorem read_indent_argument {before argument behind : List Char} (hne : before ≠ [])
    (hbefore : Text.AllBlank before) (hargument : Text.IsWord argument)
    (hbehind : Text.AllBlank behind)
    : read ("indent".toList ++ (before ++ (argument ++ behind))) acceptAlias
        = (readUnits "indent" argument).map indent := by
  have hwords : Text.words (before ++ (argument ++ behind)) = [argument] :=
    Text.words_eq_singleton_iff.2 ⟨before, behind, rfl, hbefore, hargument, hbehind⟩
  rw [read_indent_append (hbefore.endsWord_append hne _), hwords]
  rfl

theorem Says.read_eq {outcome : Except (Refusal LineFault) Command} (h : Says acceptAlias rest outcome)
    : read rest acceptAlias = outcome := by
  cases h with
  | unnamed hrest => apply read_of_endsWord hrest
  | unknown hname hrest hkeyword =>
    rw [read_of_isWord hname hrest, Keyword.ofName?_eq_none_iff.2 hkeyword]
  | plain hname hcommand hblanks =>
    rw [read_of_isSpelled hname hblanks.endsWord, Text.words_eq_nil_iff.2 hblanks]
    unfold ofWords
    simp only [hcommand]
    rfl
  | excess hname hcommand hrest harguments hne =>
    rw [read_of_isSpelled hname hrest, harguments.words_eq]
    unfold ofWords
    simp only [hcommand, List.isEmpty_eq_false_iff.2 hne]
    rfl
  | missing hblanks =>
    rw [read_indent_append hblanks.endsWord, Text.words_eq_nil_iff.2 hblanks]
    rfl
  | several hrest harguments hlength =>
    rw [read_indent_append hrest, harguments.words_eq]
    unfold ofWords
    simp only [Keyword.command?]
    split
    . simp at hlength
    . simp at hlength
    . rfl
  | indent hne hbefore hdigits hbehind hlength =>
    rw [read_indent_argument hne hbefore hdigits.isWord hbehind, readUnits_of_isNumeral hdigits,
      if_pos hlength]
    rfl
  | overlong hne hbefore hdigits hbehind hlength =>
    rw [read_indent_argument hne hbefore hdigits.isWord hbehind, readUnits_of_isNumeral hdigits,
      if_neg (by omega)]
    rfl
  | invalid hne hbefore hargument hbehind hbad =>
    rw [read_indent_argument hne hbefore hargument hbehind, readUnits_of_badUnits hbad]
    rfl

/-! ### The grammar leaves no text out -/

theorem exists_says_argument {before argument behind : List Char} (hne : before ≠ [])
    (hbefore : Text.AllBlank before) (hargument : Text.IsWord argument)
    (hbehind : Text.AllBlank behind)
    : ∃ outcome, Says acceptAlias ("indent".toList ++ (before ++ (argument ++ behind))) outcome := by
  rcases isNumeral_or_exists_badUnits argument with hdigits | ⟨reason, hbad⟩
  . by_cases hlength : argument.length ≤ Text.digitLimit
    . exact ⟨_, .indent hne hbefore hdigits hbehind hlength⟩
    . exact ⟨_, .overlong hne hbefore hdigits hbehind (by omega)⟩
  . exact ⟨_, .invalid hne hbefore hargument hbehind hbad⟩

theorem exists_says_indent (hrest : Text.EndsWord rest)
    : ∃ outcome, Says acceptAlias ("indent".toList ++ rest) outcome := by
  match harguments : Text.words rest with
  | [] => exact ⟨_, .missing (Text.words_eq_nil_iff.1 harguments)⟩
  | [argument] =>
    obtain ⟨before, behind, rfl, hbefore, hargument, hbehind⟩ :=
      Text.words_eq_singleton_iff.1 harguments
    apply exists_says_argument _ hbefore hargument hbehind
    -- Without a blank behind the keyword the argument would belong to it.
    rintro rfl
    exact hargument.not_endsWord_append behind hrest
  | first :: second :: others =>
    exact ⟨_, .several hrest (Text.words_eq_iff.1 harguments) (by simp)⟩

theorem exists_says_isSpelled {name : String} {keyword : Keyword}
    (h : keyword.IsSpelled acceptAlias name) (hrest : Text.EndsWord rest)
    : ∃ outcome, Says acceptAlias (name.toList ++ rest) outcome := by
  cases hcommand : keyword.command? with
  | none =>
    obtain ⟨rfl, rfl⟩ := h.eq_indent hcommand
    exact exists_says_indent hrest
  | some command =>
    by_cases harguments : Text.words rest = []
    . exact ⟨_, .plain h hcommand (Text.words_eq_nil_iff.1 harguments)⟩
    . exact ⟨_, .excess h hcommand hrest (Text.words_eq_iff.1 rfl) harguments⟩

theorem exists_says (acceptAlias : Bool) (rest : List Char)
    : ∃ outcome, Says acceptAlias rest outcome := by
  by_cases hrest : Text.EndsWord rest
  . exact ⟨_, .unnamed hrest⟩
  . obtain ⟨word, behind, rfl, hword, hbehind⟩ := Text.exists_word_append hrest
    obtain ⟨name, rfl⟩ : ∃ name : String, word = name.toList :=
      ⟨String.ofList word, String.toList_ofList.symm⟩
    by_cases hkeyword : ∃ keyword : Keyword, keyword.IsSpelled acceptAlias name
    . obtain ⟨keyword, hname⟩ := hkeyword
      exact exists_says_isSpelled hname hbehind
    . exact ⟨_, .unknown hword hbehind (not_exists.1 hkeyword)⟩

theorem read_eq_iff_says {outcome : Except (Refusal LineFault) Command}
    : read rest acceptAlias = outcome ↔ Says acceptAlias rest outcome := by
  constructor
  . intro h
    obtain ⟨found, hfound⟩ := exists_says acceptAlias rest
    rwa [← h, hfound.read_eq]
  . exact Says.read_eq

end Command

/-! ### Lines -/

namespace Line

variable {line : String} {location : SourceLocation} {acceptAlias : Bool}

/--
The error of a line that is malformed in some way.
-/
def malformation (line : String) (location : SourceLocation) (fault : LineFault) : ParseError :=
  { fault, line := some location.line, sourceFile := location.sourceFile, lineText := some line }

/--
What a line is if the text behind its dot says the given.
-/
def said (line : String) (location : SourceLocation)
    : Except (Refusal LineFault) Command → Except (Refusal ParseError) Line
  | .ok found => .ok (.command found location)
  | .error (.malformed fault) => .error (.malformed (malformation line location fault))
  | .error .tooLong => .error .tooLong

theorem read_of_mark {rest : List Char} (h : line.toList = '.' :: rest)
    : read line location acceptAlias = said line location (Command.read rest acceptAlias) := by
  unfold read isCommand
  rw [h]
  match Command.read rest acceptAlias with
  | .ok found => simp [said, commandMark]
  | .error (.malformed fault) => simp [said, commandMark, Refusal.map, malformation]
  | .error .tooLong => simp [said, commandMark, Refusal.map]

theorem read_of_text (h : line.toList.head? ≠ some '.')
    : read line location acceptAlias = .ok (.text line location) := by
  unfold read isCommand commandMark
  simp only [h, decide_false, Bool.false_eq_true, ↓reduceIte]

-- A line without a dot is text, and the grammar decides about every other one.
theorem read_eq_iff {outcome : Except (Refusal ParseError) Line}
    : read line location acceptAlias = outcome
        ↔
      (line.toList.head? ≠ some '.' ∧ outcome = .ok (.text line location))
        ∨ ∃ rest found, line.toList = '.' :: rest ∧ Command.Says acceptAlias rest found
            ∧ outcome = said line location found := by
  simp only [← Command.read_eq_iff_says]
  constructor
  . rintro rfl
    by_cases hmark : line.toList.head? = some '.'
    . obtain ⟨rest, hrest⟩ := List.head?_eq_some_iff.1 hmark
      exact .inr ⟨rest, _, hrest, rfl, read_of_mark hrest⟩
    . exact .inl ⟨hmark, read_of_text hmark⟩
  . rintro (⟨hmark, rfl⟩ | ⟨rest, _, hrest, rfl, rfl⟩)
    . apply read_of_text hmark
    . apply read_of_mark hrest

theorem read_eq_text_iff {content : String} {place : SourceLocation}
    : read line location acceptAlias = .ok (.text content place)
        ↔
      line.toList.head? ≠ some '.' ∧ content = line ∧ place = location := by
  rw [read_eq_iff]
  constructor
  . rintro (⟨hmark, h⟩ | ⟨rest, found, _, _, h⟩)
    . cases h
      exact ⟨hmark, rfl, rfl⟩
    . match found with
      | .ok _ | .error (.malformed _) | .error .tooLong => cases h
  . rintro ⟨hmark, rfl, rfl⟩
    exact .inl ⟨hmark, rfl⟩

theorem read_eq_command_iff {command : Command} {place : SourceLocation}
    : read line location acceptAlias = .ok (.command command place)
        ↔
      place = location
        ∧ ∃ rest, line.toList = '.' :: rest ∧ Command.Says acceptAlias rest (.ok command) := by
  rw [read_eq_iff]
  constructor
  . rintro (⟨_, h⟩ | ⟨rest, found, hrest, hsays, h⟩)
    . cases h
    . match found with
      | .ok _ =>
        cases h
        exact ⟨rfl, rest, hrest, hsays⟩
      | .error (.malformed _) | .error .tooLong => cases h
  . rintro ⟨rfl, rest, hrest, hsays⟩
    exact .inr ⟨rest, _, hrest, hsays, rfl⟩

theorem read_eq_tooLong_iff
    : read line location acceptAlias = .error .tooLong
        ↔
      ∃ rest, line.toList = '.' :: rest ∧ Command.Says acceptAlias rest (.error .tooLong) := by
  rw [read_eq_iff]
  constructor
  . rintro (⟨_, h⟩ | ⟨rest, found, hrest, hsays, h⟩)
    . cases h
    . match found with
      | .error .tooLong => exact ⟨rest, hrest, hsays⟩
      | .ok _ | .error (.malformed _) => cases h
  . rintro ⟨rest, hrest, hsays⟩
    exact .inr ⟨rest, _, hrest, hsays, rfl⟩

theorem read_eq_malformed_iff {error : ParseError}
    : read line location acceptAlias = .error (.malformed error)
        ↔
      ∃ rest fault, line.toList = '.' :: rest
        ∧ Command.Says acceptAlias rest (.error (.malformed fault))
        ∧ error = malformation line location fault := by
  rw [read_eq_iff]
  constructor
  . rintro (⟨_, h⟩ | ⟨rest, found, hrest, hsays, h⟩)
    . cases h
    . match found with
      | .error (.malformed fault) =>
        cases h
        exact ⟨rest, fault, hrest, hsays, rfl⟩
      | .ok _ | .error .tooLong => cases h
  . rintro ⟨rest, fault, hrest, hsays, rfl⟩
    exact .inr ⟨rest, _, hrest, hsays, rfl⟩

-- The sign counts as part of a number, so this one is negative although it is zero.
example : read ".indent -0" { line := 1 }
    = .error (.malformed (malformation ".indent -0" { line := 1 }
        (.invalidArgument "indent" "-0" .negative))) := rfl

end Line

end DotFormat
