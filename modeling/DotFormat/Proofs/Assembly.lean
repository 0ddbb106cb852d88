import DotFormat.Assembly

/-!
This module contains that a document is completed once. Whatever an assembly is asked to do, and in
whatever order, it takes everything up to the first completion, which makes the document of just that.
From then on it refuses everything and stays as it is.
-/

namespace DotFormat

namespace Assembly

/--
Something that an assembly can be asked to do.
-/
inductive Call where
  | append (added : Paragraph)
  | record (added : Diagnostic)
  | complete

/--
What a call answers, which is a document if it completes one, and the assembly behind it.
-/
structure Outcome where
  reply : Except AssemblyError (Option Document)
  assembly : Assembly

namespace Call

def operation : Call → AssemblyOperation
  | append _ => .append
  | record _ => .record
  | complete => .complete

def paragraph? : Call → Option Paragraph
  | append added => some added
  | _ => none

def diagnostic? : Call → Option Diagnostic
  | record added => some added
  | _ => none

def perform : Call → Assembling (Option String) Paragraph Diagnostic (Option Document)
  | append added => do
    Assembly.append added
    return none
  | record added => do
    Assembly.record added
    return none
  | complete => return some (← Assembly.complete).document

def run (assembly : Assembly) (call : Call) : Outcome :=
  let (reply, behind) := call.perform.run.run assembly
  { reply, assembly := behind }

end Call

/--
What comes of some calls, one after the other.
-/
def outcomes (assembly : Assembly) : List Call → List Outcome
  | [] => []
  | call :: calls => call.run assembly :: outcomes (call.run assembly).assembly calls

def behind (assembly : Assembly) : List Call → Assembly
  | [] => assembly
  | call :: calls => behind (call.run assembly).assembly calls

def appended (calls : List Call) : List Paragraph :=
  calls.filterMap Call.paragraph?

def recorded (calls : List Call) : List Diagnostic :=
  calls.filterMap Call.diagnostic?

variable {assembly : Assembly} {draft : Draft} {calls later : List Call} {call : Call}

/-! ### One call -/

theorem run_of_open (draft : Draft) (call : Call)
    : call.run { draft } =
        match call with
        | .append added => { reply := .ok none, assembly := { draft := draft.append added } }
        | .record added => { reply := .ok none, assembly := { draft := draft.record added } }
        | .complete =>
          { reply := .ok (some draft.document), assembly := { draft, completed := some draft } } := by
  cases call with
  | append => rfl
  | record => rfl
  | complete => rfl

-- The check comes before any change, so the assembly that a refusal leaves is the old one.
theorem run_of_completed (h : assembly.isCompleted = true) (call : Call)
    : call.run assembly = { reply := .error (.alreadyCompleted call.operation), assembly } := by
  obtain ⟨draft, completed⟩ := assembly
  cases completed with
  | none => contradiction
  | some document =>
    cases call with
    | append => rfl
    | record => rfl
    | complete => rfl

/-! ### Some calls -/

theorem getElem?_outcomes_append (assembly : Assembly) (before : List Call) (n : Nat)
    : (outcomes assembly (before ++ calls))[before.length + n]?
        = (outcomes (assembly.behind before) calls)[n]? := by
  induction before generalizing assembly with
  | nil => rw [List.nil_append, List.length_nil, Nat.zero_add, behind]
  | cons first before ih =>
    rw [List.length_cons, Nat.add_right_comm, List.cons_append, outcomes, List.getElem?_cons_succ, ih,
      behind]

theorem behind_of_open (draft : Draft) (h : .complete ∉ calls)
    : behind { draft } calls =
        { draft :=
            { draft with
              paragraphs := draft.paragraphs ++ appended calls
              diagnostics := draft.diagnostics ++ recorded calls } } := by
  induction calls generalizing draft with
  | nil => simp [behind, appended, recorded]
  | cons call calls ih =>
    rw [List.mem_cons, not_or] at h
    rw [behind, run_of_open]
    cases call with
    | append added =>
      rw [ih _ h.2]
      simp [appended, recorded, List.filterMap_cons, Call.paragraph?, Call.diagnostic?, Draft.append]
    | record added =>
      rw [ih _ h.2]
      simp [appended, recorded, List.filterMap_cons, Call.paragraph?, Call.diagnostic?, Draft.record]
    | complete => exact absurd rfl h.1

theorem outcomes_of_completed (h : assembly.isCompleted = true) {n : Nat} (hcall : calls[n]? = some call)
    : (outcomes assembly calls)[n]?
        = some { reply := .error (.alreadyCompleted call.operation), assembly } := by
  induction calls generalizing n with
  | nil => contradiction
  | cons first calls ih =>
    rw [outcomes, run_of_completed h]
    cases n with
    | zero =>
      obtain rfl := Option.some.inj hcall
      rfl
    | succ n => exact ih hcall

/-! ### From the start on -/

theorem behind_start (sourceFile : Option String) (h : .complete ∉ calls)
    : (start sourceFile).behind calls =
        { draft := { sourceFile, paragraphs := appended calls, diagnostics := recorded calls } } :=
  behind_of_open { sourceFile } h

theorem run_of_ne_complete (draft : Draft) (h : call ≠ .complete)
    : (call.run { draft }).reply = .ok none
      ∧ (call.run { draft }).assembly.isCompleted = false
      ∧ (call.run { draft }).assembly.size = draft.paragraphs.length + (appended [call]).length := by
  rw [run_of_open]
  cases call with
  | append added => simp [isCompleted, size, appended, Call.paragraph?, Draft.append]
  | record added => simp [isCompleted, size, appended, Call.paragraph?, Draft.record]
  | complete => exact absurd rfl h

/--
Up to the first completion every call is taken, and the assembly counts the paragraphs that it was
given. The first completion gives the document of the paragraphs and the diagnostics of the calls
before it, each in order. Every call behind it is refused by name, and leaves the assembly as it is,
with its count and its document.
-/
theorem completes_once (sourceFile : Option String) (calls : List Call)
    : (∀ before call later,
          calls = before ++ call :: later
            →
          .complete ∉ before
            →
          call ≠ .complete
            →
          ∃ outcome,
            (outcomes (start sourceFile) calls)[before.length]? = some outcome
            ∧ outcome.reply = .ok none
            ∧ outcome.assembly.size = (appended (before ++ [call])).length
            ∧ outcome.assembly.isCompleted = false)
      ∧ ∀ before later,
          calls = before ++ .complete :: later
            →
          .complete ∉ before
            →
          ∃ (document : Document) (final : Assembly),
            (outcomes (start sourceFile) calls)[before.length]?
                = some { reply := .ok (some document), assembly := final }
            ∧ document
                = { paragraphs := appended before, sourceFile, diagnostics := recorded before }
            ∧ final.size = (appended before).length
            ∧ final.isCompleted = true
            ∧ final.completed.map Draft.document = some document
            ∧ ∀ n call,
                later[n]? = some call
                  →
                ∃ error,
                  (outcomes (start sourceFile) calls)[before.length + 1 + n]?
                      = some { reply := .error error, assembly := final }
                  ∧ error.message
                      = "cannot " ++ call.operation.name ++ ": document already completed" := by
  constructor
  . rintro before call later rfl hbefore hcall
    refine ⟨_, getElem?_outcomes_append (start sourceFile) before 0, ?_⟩
    rw [behind_start sourceFile hbefore]
    obtain ⟨hreply, hopen, hsize⟩ := run_of_ne_complete
      { sourceFile, paragraphs := appended before, diagnostics := recorded before } hcall
    refine ⟨hreply, ?_, hopen⟩
    rw [hsize, appended, appended, appended, List.filterMap_append, List.length_append]
  . rintro before later rfl hbefore
    have hhere := @getElem?_outcomes_append (.complete :: later) (start sourceFile) before
    rw [behind_start sourceFile hbefore, outcomes, run_of_open] at hhere
    refine ⟨_, _, hhere 0, rfl, rfl, rfl, rfl, ?_⟩
    intro n call hcall
    refine ⟨_, ?_, rfl⟩
    rw [Nat.add_assoc, Nat.add_comm 1, hhere, List.getElem?_cons_succ]
    apply outcomes_of_completed rfl hcall

theorem completes_once_of_late_append
    : let calls : List Call :=
        [.append {}, .record { kind := "A", message := "b" }, .complete, .append { fill := true },
          .complete]
      let skipped : Diagnostic := { kind := "A", message := "b" }
      ∃ outcome final error,
        (outcomes (start (some "f")) calls)[1]? = some outcome
        ∧ outcome.assembly.size = 1
        ∧ (outcomes (start (some "f")) calls)[2]?
            =
          some {
            reply := .ok (some
              { paragraphs := [{}], sourceFile := some "f", diagnostics := [skipped] })
            assembly := final }
        ∧ final.size = 1
        ∧ (outcomes (start (some "f")) calls)[4]? = some { reply := .error error, assembly := final }
        ∧ error.message = "cannot complete: document already completed" := by
  intro calls skipped
  obtain ⟨htaken, hcompleted⟩ := completes_once (some "f") calls
  obtain ⟨outcome, houtcome, _, hcount, _⟩ := htaken [.append {}] (.record skipped)
    [.complete, .append { fill := true }, .complete] rfl (by simp) (by simp)
  obtain ⟨_, final, hfinal, rfl, hsize, _, _, hrefused⟩ := hcompleted
    [.append {}, .record skipped] [.append { fill := true }, .complete] rfl (by simp)
  obtain ⟨error, herror, hmessage⟩ := hrefused 1 .complete rfl
  exact ⟨outcome, final, error, houtcome, hcount, hfinal, hsize, herror, hmessage⟩

end Assembly

end DotFormat
