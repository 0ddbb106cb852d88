import DotFormat.Proofs.Run

/-!
This module contains what holds of a machine whatever it is asked to do. It can be given lines and
directives in any order, each with a configuration and a place of its own, and a request that it refuses
leaves it as it is. No run is lost or doubled on the way, and the two copies of the layout and the count
of the runs stay right.
-/

namespace DotFormat

namespace Keyword

def endsParagraph (keyword : Keyword) : Bool :=
  keyword.command?.all Command.endsParagraph

def restyle (keyword : Keyword) (style : Style) : Style :=
  keyword.command?.elim style fun command => command.restyle style

theorem restyle_of_endsParagraph {keyword : Keyword} (h : keyword.endsParagraph = true)
    (style : Style) : keyword.restyle style = style := by
  cases keyword <;> first | rfl | contradiction

end Keyword

/--
The argument suits the keyword. Where one is taken, it is a number that is not negative, or a truth
value, which counts as a number.
-/
def Directive.isFit (directive : Directive) : Bool :=
  !directive.keyword.takesArgument ||
    match directive.argument with
    | .int n => 0 ≤ n
    | .bool _ => true
    | _ => false

theorem Amount.value_ofNat_nonneg (amount : Amount Nat) : 0 ≤ amount.ofNat.value := by
  cases amount with
  | number n => apply Int.natCast_nonneg
  | flag b => apply Int.natCast_nonneg

/--
Something that a machine can be asked to do.
-/
inductive Request where
  | take (config : Config) (line : String) (location : SourceLocation)
  | carryOut (config : Config) (directive : Directive)

namespace Request

inductive Meaning where
  | text (content : String) (location : SourceLocation)
  | command (keyword : Keyword)
  | refused

def meaning : Request → Meaning
  | take config line location =>
    match Line.read line location config.acceptsAlias with
    | .ok (.text content location) => .text content location
    | .ok (.command found _) => .command found.keyword
    | .error _ => .refused
  | carryOut _ directive => if directive.isFit then .command directive.keyword else .refused

def endsParagraph (request : Request) : Bool :=
  match request.meaning with
  | .command keyword => keyword.endsParagraph
  | _ => false

/--
The runs that some requests ask for, if the given style is pending before them.
-/
def runs (style : Style) : List Request → List TextRun
  | [] => []
  | request :: requests =>
    match request.meaning with
    | .text content location => .styled content style location :: runs .plain requests
    | .command keyword => runs (keyword.restyle style) requests
    | .refused => runs style requests

end Request

namespace Machine

/--
What a request leads to, if it is not refused.
-/
def answer? (machine : Machine) : Request → Option Move
  | .take config line location => (machine.process config line location).toOption
  | .carryOut config directive => (machine.apply config directive).toOption

/--
The machine behind a request, which is the old one if the request is refused.
-/
def next (machine : Machine) (request : Request) : Machine :=
  (machine.answer? request).elim machine Move.machine

def behind (machine : Machine) (requests : List Request) : Machine :=
  requests.foldl next machine

/--
The paragraphs that some requests seal.
-/
def sealedBy (machine : Machine) : List Request → List Paragraph
  | [] => []
  | request :: requests =>
    ((machine.answer? request).bind Move.emitted).toList
      ++ (machine.next request).sealedBy requests

/-! ### One request -/

theorem apply_of_command (machine : Machine) (config : Config) {directive : Directive}
    {command : Command} (h : directive.keyword.command? = some command)
    : directive.isFit = true
      ∧ machine.apply config directive
          = .ok (machine.perform config command directive.location) := by
  unfold Directive.isFit Keyword.takesArgument apply
  rw [h]
  exact ⟨rfl, rfl⟩

theorem toOption_apply_of_indent (machine : Machine) (config : Config) {directive : Directive}
    (h : directive.keyword.command? = none)
    : if directive.isFit then
        ∃ layout, (machine.apply config directive).toOption
          = some (machine.turn layout directive.keyword directive.location)
      else (machine.apply config directive).toOption = none := by
  obtain ⟨keyword, argument, location⟩ := directive
  unfold Directive.isFit Keyword.takesArgument apply Directive.indent
  dsimp only at h ⊢
  rw [h]
  cases argument with
  | int n =>
    cases n with
    | ofNat n => exact ⟨_, rfl⟩
    | negSucc n => rfl
  | bool b => exact ⟨_, rfl⟩
  | null | real | str | arr | obj => rfl

/--
What a machine makes of a request, by the meaning of the request.
-/
inductive Answers (machine : Machine) : Request.Meaning → Option Move → Prop where
  | text (content : String) (location : SourceLocation) :
    Answers machine (.text content location) (some { machine := machine.addText content location })
  | turn {keyword : Keyword} (layout : Layout) (location : SourceLocation) :
    keyword.endsParagraph = true →
    Answers machine (.command keyword) (some (machine.turn layout keyword location))
  | restyle {keyword : Keyword} : keyword.endsParagraph = false →
    Answers machine (.command keyword)
      (some { machine := { machine with style := keyword.restyle machine.style } })
  | refused : Answers machine .refused none

theorem answers_perform (machine : Machine) (config : Config) (command : Command)
    (location : SourceLocation)
    : machine.Answers (.command command.keyword)
        (some (machine.perform config command location)) := by
  cases command with
  | paragraph | fill | nofill | indent => exact .turn _ _ rfl
  | regular | bold | italics | large | normal => exact .restyle rfl

theorem answers (machine : Machine) (request : Request)
    : machine.Answers request.meaning (machine.answer? request) := by
  cases request with
  | take config line location =>
    unfold Request.meaning answer? process
    dsimp only
    cases Line.read line location config.acceptsAlias with
    | error refusal => exact .refused
    | ok found =>
      cases found with
      | text content place => exact .text content place
      | command command place => apply answers_perform
  | carryOut config directive =>
    unfold Request.meaning answer?
    dsimp only
    cases hcommand : directive.keyword.command? with
    | some command =>
      obtain ⟨hfit, happly⟩ := apply_of_command machine config hcommand
      rw [happly, if_pos hfit, ← Command.keyword_of_command? hcommand]
      apply answers_perform
    | none =>
      have happly := toOption_apply_of_indent machine config hcommand
      cases hfit : directive.isFit with
      | false =>
        rw [hfit] at happly
        rw [happly]
        exact .refused
      | true =>
        rw [hfit] at happly
        obtain ⟨layout, happly⟩ := happly
        have hends : directive.keyword.endsParagraph = true := by
          unfold Keyword.endsParagraph
          rw [hcommand]
          rfl
        rw [happly]
        exact .turn layout _ hends

/-! ### What a request keeps -/

/--
The layout beside the open paragraph is its own, and its count is that of its runs.
-/
structure IsConsistent (machine : Machine) : Prop where
  layout : machine.layout = machine.paragraph.layout
  count : machine.paragraph.count = machine.paragraph.runs.length

theorem isConsistent_start (sourceFile : Option String) : (start sourceFile).IsConsistent :=
  ⟨rfl, rfl⟩

theorem IsConsistent.next {machine : Machine} (h : machine.IsConsistent) (request : Request)
    : (machine.next request).IsConsistent := by
  unfold Machine.next
  -- The meaning and the answer are named, so that each case settles both.
  have hanswers := machine.answers request
  generalize request.meaning = meaning, machine.answer? request = answer at hanswers ⊢
  cases hanswers with
  | text content location =>
    refine ⟨h.layout, ?_⟩
    simp [addText, OpenParagraph.append, OpenParagraph.runs, h.count]
  | turn => exact ⟨rfl, rfl⟩
  | restyle => exact ⟨h.layout, h.count⟩
  | refused => exact h

theorem IsConsistent.behind {machine : Machine} (h : machine.IsConsistent)
    (requests : List Request) : (machine.behind requests).IsConsistent := by
  induction requests generalizing machine with
  | nil => exact h
  | cons request requests ih => exact ih (h.next request)

theorem IsConsistent.isEmpty_iff {machine : Machine} (h : machine.IsConsistent)
    : machine.paragraph.isEmpty = true ↔ machine.paragraph.runs = [] := by
  unfold OpenParagraph.isEmpty
  rw [h.count, beq_iff_eq, List.length_eq_zero_iff]

/-! ### What some requests lead to -/

theorem length_sealedBy (machine : Machine) (requests : List Request)
    : (machine.sealedBy requests).length = requests.countP Request.endsParagraph := by
  induction requests generalizing machine with
  | nil => rfl
  | cons request requests ih =>
    unfold sealedBy
    rw [List.length_append, ih, List.countP_cons]
    unfold Request.endsParagraph
    have hanswers := machine.answers request
    generalize request.meaning = meaning, machine.answer? request = answer at hanswers ⊢
    cases hanswers with
    | text => simp
    | turn layout location hends =>
      simp [hends, turn]
      omega
    | restyle hends => simp [hends]
    | refused => simp

-- A run that was added stays in the open paragraph until this is sealed, and then in what was sealed.
theorem flatMap_runs_sealedBy (machine : Machine) (requests : List Request)
    : (machine.sealedBy requests).flatMap (·.runs) ++ (machine.behind requests).finish.runs
        = machine.paragraph.runs ++ Request.runs machine.style requests := by
  induction requests generalizing machine with
  | nil => simp [sealedBy, behind, finish, Request.runs, OpenParagraph.sealed]
  | cons request requests ih =>
    unfold sealedBy Request.runs
    have hbehind : machine.behind (request :: requests) = (machine.next request).behind requests :=
      rfl
    rw [List.flatMap_append, hbehind, List.append_assoc, ih]
    unfold next
    have hanswers := machine.answers request
    generalize request.meaning = meaning, machine.answer? request = answer at hanswers ⊢
    cases hanswers with
    | text => simp [addText]
    | turn layout location hends =>
      simp [turn, OpenParagraph.sealed, Keyword.restyle_of_endsParagraph hends]
    | restyle => simp
    | refused => simp

/--
Whatever a machine is asked to do from the start on, the copies of what it knows agree, every run that
was asked for stands once and in order in the paragraphs that it sealed and in the open one, and it
sealed one paragraph for each command that ends a paragraph and was not refused.
-/
theorem consistent_behind_start (sourceFile : Option String) (requests : List Request)
    : ((start sourceFile).behind requests).layout
          = ((start sourceFile).behind requests).paragraph.layout
      ∧ 0 ≤ ((start sourceFile).behind requests).layout.indent.ofNat.value
      ∧ ((start sourceFile).behind requests).paragraph.count
          = ((start sourceFile).behind requests).paragraph.runs.length
      ∧ (((start sourceFile).behind requests).paragraph.isEmpty = true
          ↔ ((start sourceFile).behind requests).paragraph.runs = [])
      ∧ ((start sourceFile).sealedBy requests).flatMap (·.runs)
            ++ ((start sourceFile).behind requests).finish.runs
          = Request.runs .plain requests
      ∧ ((start sourceFile).sealedBy requests).length
          = requests.countP Request.endsParagraph := by
  have hconsistent := (isConsistent_start sourceFile).behind requests
  refine ⟨hconsistent.layout, ?_, hconsistent.count, hconsistent.isEmpty_iff, ?_, ?_⟩
  . apply Amount.value_ofNat_nonneg
  . apply flatMap_runs_sealedBy
  . apply length_sealedBy

end Machine

end DotFormat
