import DotFormat.Proofs.Ambient
import DotFormat.Session

/-!
This module contains that scopes nest. Whatever a program does in the scope of a configuration, and
however the scope ends, the configuration that was in force just before the scope is in force again
behind it. Until it is replaced, the configuration of a scope is in force inside, and one that is
not valid is refused before anything has changed.
-/

namespace DotFormat

namespace Ambient

@[simp]
theorem under_settle (body : Ambient ε α) (config : Config)
    : (settle body : Ambient δ (Except ε α)).under config
        = (.ok (body.under config).1, (body.under config).2) :=
  rfl

theorem under_mapBoth (f : α → β) (body : Ambient α α) (config : Config)
    : (body.mapBoth f).under config =
        match body.under config with
        | (.ok found, behind) => (.ok (f found), behind)
        | (.error e, behind) => (.error (f e), behind) := by
  unfold under mapBoth
  rw [ExceptT.run_adapt, ExceptT.run_map, StateT.run_map, StateT.run_map]
  cases body.run.run config with
  | mk result behind => cases result <;> rfl

end Ambient

theorem Config.ofJson_of_negative {members : List (String × Json)} {units : Int}
    (h : members.lookup "fill_padding_units" = some (.int units)) (hunits : units < 0)
    : ofJson (.obj members) = .error (.padding (.negative units)) := by
  have hnegative := Amount.ofJson_int_eq_error_iff.2 ⟨hunits, rfl⟩
  change ofMembers members = _
  unfold ofMembers
  rw [h, Option.getD_some, hnegative]

theorem lookup_filter [BEq α] [LawfulBEq α] {keep : α × β → Bool} {members : List (α × β)} {key : α}
    {value : β} (h : members.lookup key = some value) (hkeep : keep (key, value) = true)
    : (members.filter keep).lookup key = some value := by
  induction members with
  | nil => contradiction
  | cons member members ih =>
    obtain ⟨name, other⟩ := member
    rw [List.lookup_cons] at h
    cases hname : key == name with
    | true =>
      rw [hname] at h
      obtain rfl := beq_iff_eq.1 hname
      obtain rfl := Option.some.inj h
      rw [List.filter_cons_of_pos hkeep, List.lookup_cons_self]
    | false =>
      rw [hname] at h
      rw [List.filter_cons]
      split
      . rw [List.lookup_cons, hname, ih h]
      . exact ih h

theorem Config.exists_ofOptions_of_negative {members : List (String × Json)} {units : Int}
    (h : members.lookup "fill_padding_units" = some (.int units)) (hunits : units < 0)
    : ∃ e, ofOptions members = .error e := by
  unfold ofOptions
  split
  . exact ⟨_, rfl⟩
  . exact ⟨_, ofJson_of_negative (lookup_filter h rfl) hunits⟩

namespace Session

open Ambient

variable {config : Config} {step : Step} {steps : List Step}

/-! ### Steps -/

namespace Outcome

/--
What is recorded of an outcome.
-/
def entry (outcome : Outcome α) : α × Config :=
  (outcome.reply, outcome.config)

theorem ofResult_mapBoth (f : α → β) (body : Ambient α α) (config : Config)
    : ofResult ((body.mapBoth f).under config) =
        { ofResult (body.under config) with reply := f (ofResult (body.under config)).reply } := by
  rw [under_mapBoth]
  cases body.under config with
  | mk result behind => cases result <;> rfl

end Outcome

theorem Step.run_eq (config : Config) (step : Step)
    : step.run config = .ofResult (step.perform.under config) :=
  rfl

theorem runAll_eq (config : Config) (steps : List Step)
    : runAll config steps = .ofResult ((performAll steps).under config) :=
  rfl

namespace Step

theorem run_within {written : Json} {own : Config} (h : Config.ofJson written = .ok own)
    : (within written steps).run config =
        { reply := .block (runAll own steps).reply
          failed := (runAll own steps).failed
          config } := by
  rw [run_eq, runAll_eq, perform, h]
  dsimp only
  rw [Outcome.ofResult_mapBoth, under_within]
  cases (performAll steps).under own with
  | mk result behind => cases result <;> rfl

theorem run_within_of_error {written : Json} {e : ConfigError}
    (h : Config.ofJson written = .error e)
    : (within written steps).run config = { reply := .badConfig e, failed := true, config } := by
  rw [run_eq, perform, h]
  rfl

theorem run_attempt
    : (attempt steps).run config =
        { reply := .block (runAll config steps).reply
          config := (runAll config steps).config } := by
  rw [run_eq, runAll_eq, perform, under_bind, under_settle]
  cases (performAll steps).under config with
  | mk result behind => cases result <;> rfl

theorem entry_run_demand : ((demand step).run config).entry = (step.run config).entry := by
  rw [run_eq, run_eq, perform, under_bind]
  cases step.perform.under config with
  | mk result behind =>
    cases result with
    | error reply => rfl
    | ok reply =>
      dsimp only
      split
      . rfl
      . rfl

theorem entry_run_set_of_error {written : Json} {e : ConfigError}
    (h : Config.ofJson written = .error e)
    : ((set written).run config).entry = (.badConfig e, config) := by
  rw [run_eq, perform, h]
  rfl

theorem config_run_read (source : String) : ((read source).run config).config = config := by
  rw [run_eq, perform, under_bind, under_settle, readText, under_readLines]
  rfl

theorem entry_run_format_of_error {options : List (String × Json)} {e : ConfigError}
    (h : Config.ofOptions options = .error e) (source : String)
    : ((format options source).run config).entry = (.badConfig e, config) := by
  rw [run_eq, perform, h]
  rfl

theorem config_run_format (options : List (String × Json)) (source : String)
    : ((format options source).run config).config = config := by
  cases h : Config.ofOptions options with
  | error e => exact congrArg Prod.snd (entry_run_format_of_error h source)
  | ok own =>
    rw [run_eq, perform, h]
    dsimp only
    rw [under_bind, under_settle, Formatter.readText, under_within]
    rfl

theorem config_run_within (written : Json) (steps : List Step)
    : ((within written steps).run config).config = config := by
  cases h : Config.ofJson written with
  | error e => rw [run_within_of_error h]
  | ok own => rw [run_within h]

end Step

/-! ### Programs -/

theorem runAll_cons
    : runAll config (step :: steps) =
        if (step.run config).failed then
          { step.run config with reply := [(step.run config).entry] }
        else
          let others := runAll (step.run config).config steps
          { others with reply := (step.run config).entry :: others.reply } := by
  rw [runAll_eq, performAll, Step.run_eq, under_bind, under_settle]
  cases step.perform.under config with
  | mk result behind =>
    cases result with
    | error reply => rfl
    | ok reply => exact Outcome.ofResult_mapBoth _ _ _

theorem reply_runAll_cons
    : (runAll config (step :: steps)).reply
        =
      (step.run config).entry ::
        if (step.run config).failed then [] else (runAll (step.run config).config steps).reply := by
  rw [runAll_cons]
  split
  . rfl
  . rfl

/-! ### What keeps the configuration -/

mutual

/--
A step does not put another configuration in force: it is no setting or resetting, and none is
attempted in it.
-/
def Step.keeps : Step → Bool
  | .set _ | .reset => false
  | .demand step => step.keeps
  | .attempt steps => keepsAll steps
  | _ => true

def keepsAll : List Step → Bool
  | [] => true
  | step :: steps => step.keeps && keepsAll steps

end

mutual

theorem Step.config_run_of_keeps (config : Config) (step : Step) (h : step.keeps = true)
    : (step.run config).config = config := by
  cases step with
  | get | fail => rfl
  | set written | reset => contradiction
  | read source => exact Step.config_run_read source
  | format options source => exact Step.config_run_format options source
  | within written steps => exact Step.config_run_within written steps
  | demand step =>
    have hentry : ((Step.demand step).run config).config = (step.run config).config :=
      congrArg Prod.snd Step.entry_run_demand
    rw [hentry]
    exact Step.config_run_of_keeps config step h
  | attempt steps =>
    rw [Step.run_attempt]
    exact config_runAll_of_keepsAll config steps h

theorem config_runAll_of_keepsAll (config : Config) (steps : List Step)
    (h : keepsAll steps = true) : (runAll config steps).config = config := by
  cases steps with
  | nil => rfl
  | cons step steps =>
    rw [keepsAll, Bool.and_eq_true] at h
    have hstep := Step.config_run_of_keeps config step h.1
    rw [runAll_cons]
    split
    . exact hstep
    . rw [hstep]
      exact config_runAll_of_keepsAll config steps h.2

end

theorem config_of_getElem?_reply {n : Nat} {entry : Reply × Config}
    (hentry : (runAll config steps).reply[n]? = some entry)
    (hkeeps : ∀ other ∈ steps.take (n + 1), other.keeps = true) : entry.2 = config := by
  induction n generalizing steps with
  | zero =>
    cases steps with
    | nil => contradiction
    | cons step steps =>
      rw [reply_runAll_cons] at hentry
      cases hentry
      apply Step.config_run_of_keeps
      apply hkeeps
      simp
  | succ n ih =>
    cases steps with
    | nil => contradiction
    | cons step steps =>
      rw [List.take_succ_cons, List.forall_mem_cons] at hkeeps
      rw [reply_runAll_cons, List.getElem?_cons_succ, Step.config_run_of_keeps config step hkeeps.1]
        at hentry
      split at hentry
      . contradiction
      . exact ih hentry hkeeps.2

/-! ### Entries at any depth -/

/--
An entry in the replies to some steps, at any depth: the step that it belongs to, and the
configuration that was in force just before this step.
-/
inductive IsEntry : Config → List Step → List (Reply × Config) → Config → Step → Reply × Config →
    Prop where
  | first {current : Config} {step : Step} {steps : List Step} {entry : Reply × Config}
    {entries : List (Reply × Config)} :
    IsEntry current (step :: steps) (entry :: entries) current step entry
  | later {current before : Config} {first step : Step} {steps : List Step}
    {done entry : Reply × Config} {entries : List (Reply × Config)} :
    IsEntry done.2 steps entries before step entry →
    IsEntry current (first :: steps) (done :: entries) before step entry
  | demand {current before : Config} {demanded step : Step} {steps : List Step}
    {done entry : Reply × Config} {entries : List (Reply × Config)} :
    IsEntry current [demanded] [done] before step entry →
    IsEntry current (.demand demanded :: steps) (done :: entries) before step entry
  | within {current own before behind : Config} {written : Json} {step : Step}
    {inside steps : List Step} {entry : Reply × Config} {replies entries : List (Reply × Config)} :
    Config.ofJson written = .ok own → IsEntry own inside replies before step entry →
    IsEntry current (.within written inside :: steps) ((.block replies, behind) :: entries) before
      step entry
  | attempt {current before behind : Config} {step : Step} {inside steps : List Step}
    {entry : Reply × Config} {replies entries : List (Reply × Config)} :
    IsEntry current inside replies before step entry →
    IsEntry current (.attempt inside :: steps) ((.block replies, behind) :: entries) before
      step entry

-- A step at any depth is carried out as if the program began with it.
theorem IsEntry.eq_entry_run {current before : Config} {replies : List (Reply × Config)}
    {entry : Reply × Config} (h : IsEntry current steps replies before step entry)
    (hreplies : replies = (runAll current steps).reply) : entry = (step.run before).entry := by
  induction h with
  | first =>
    rw [reply_runAll_cons] at hreplies
    exact (List.cons.inj hreplies).1
  | later hrest ih =>
    rw [reply_runAll_cons] at hreplies
    obtain ⟨rfl, hentries⟩ := List.cons.inj hreplies
    split at hentries
    . subst hentries
      cases hrest
    . exact ih hentries
  | demand _ ih =>
    rw [reply_runAll_cons, Step.entry_run_demand] at hreplies
    obtain ⟨rfl, _⟩ := List.cons.inj hreplies
    apply ih
    rw [reply_runAll_cons]
    split
    . rfl
    . rfl
  | within hconfig _ ih =>
    rw [reply_runAll_cons, Step.run_within hconfig] at hreplies
    obtain ⟨hblock, _⟩ := List.cons.inj hreplies
    exact ih (Reply.block.inj (congrArg Prod.fst hblock))
  | attempt _ ih =>
    rw [reply_runAll_cons, Step.run_attempt] at hreplies
    obtain ⟨hblock, _⟩ := List.cons.inj hreplies
    exact ih (Reply.block.inj (congrArg Prod.fst hblock))

/--
A scope at any depth, however it ends, leaves the configuration that was in force just before it.
Inside, its own configuration is in force until a step puts another one in force. A configuration
that is not valid, such as one with a negative padding, is refused and changes nothing.
-/
theorem scopes_nest {ambient before : Config} {program : List Step} {entry : Reply × Config}
    (h : IsEntry ambient program (runAll ambient program).reply before step entry)
    : (∀ written inside,
          step = .within written inside
            →
          entry.2 = before
          ∧ (∀ own,
              Config.ofJson written = .ok own
                →
              ∃ replies, entry.1 = .block replies
                ∧ ∀ (n : Nat) (reply : Reply × Config),
                    replies[n]? = some reply
                      →
                    (∀ other ∈ inside.take (n + 1), other.keeps = true)
                      →
                    reply.2 = own)
          ∧ ∀ e, Config.ofJson written = .error e → entry.1 = .badConfig e)
      ∧ (∀ written e,
          step = .set written → Config.ofJson written = .error e → entry = (.badConfig e, before))
      ∧ (∀ options source,
          step = .format options source
            →
          entry.2 = before ∧ ∀ e, Config.ofOptions options = .error e → entry.1 = .badConfig e)
      ∧ ∀ members units,
          members.lookup "fill_padding_units" = some (.int units)
            →
          units < 0
            →
          Config.ofJson (.obj members) = .error (.padding (.negative units))
          ∧ ∃ e, Config.ofOptions members = .error e := by
  obtain rfl := h.eq_entry_run rfl
  refine ⟨?_, ?_, ?_, ?_⟩
  . rintro written inside rfl
    refine ⟨Step.config_run_within written inside, ?_, ?_⟩
    . intro own hown
      rw [Step.run_within hown]
      exact ⟨_, rfl, fun n reply hreply => config_of_getElem?_reply hreply⟩
    . intro e he
      rw [Step.run_within_of_error he]
      rfl
  . rintro written e rfl he
    exact Step.entry_run_set_of_error he
  . rintro options source rfl
    refine ⟨Step.config_run_format options source, ?_⟩
    intro e he
    rw [Step.entry_run_format_of_error he]
  . intro members units hlookup hunits
    exact ⟨Config.ofJson_of_negative hlookup hunits,
      Config.exists_ofOptions_of_negative hlookup hunits⟩

theorem scopes_nest_of_failure
    : let inside : List Step := [.get, .set (.obj []), .fail]
      let inner : Step := .within (.obj [("fill_padding_units", .int 3)]) inside
      let program : List Step :=
        [.attempt [.within (.obj [("strict", .bool false)]) [.reset, inner, .get]]]
      let ambient : Config := { fillPadding := .number 2 }
      ∃ entry replies,
        IsEntry ambient program (runAll ambient program).reply {} inner entry
        ∧ entry.2 = {}
        ∧ entry.1 = .block replies
        ∧ ∀ reply, replies[0]? = some reply → reply.2 = { fillPadding := .number 3 } := by
  intro inside inner program ambient
  have h : IsEntry ambient program (runAll ambient program).reply {} inner (inner.run {}).entry :=
    .attempt (.within rfl (.later .first))
  obtain ⟨hafter, hinside, _⟩ := (scopes_nest h).1 _ _ rfl
  obtain ⟨replies, hblock, hreplies⟩ := hinside { fillPadding := .number 3 } rfl
  have hkeeps : ∀ other ∈ inside.take 1, other.keeps = true := by
    intro other hother
    rw [List.mem_singleton.1 hother]
    rfl
  exact ⟨_, replies, h, hafter, hblock, fun reply hreply => hreplies 0 reply hreply hkeeps⟩

end Session

end DotFormat
